import Mathlib
import ShaderProbe.Proofs.LoopPlaces
import ShaderProbe.Proofs.Plan

/-!
# What is kept of a source

An instrumented text holds the lines around the instrumented function as they are.  The edits of a
function are made by line numbers of the whole text, so this rests on where they are made: the
statement and the loops of a function lie behind its header, and every edit with them
(`Cap.take_of_apply`, `Shadow.take_of_insert`).

`Probe.lines_of_instrument` gives the layout of every answer.  An entry point is changed between the
lines in front of it and those behind it.  A helper is kept, with the lines in front of it less an
entry point that ends there, and is followed by a truncated copy and by an entry point.
-/

namespace ShaderProbe

variable {config : Config}

/-! ### Edits behind a line -/

/-- Edits behind a line keep the lines in front of it. -/
lemma Edit.take_apply {edits : List Edit} {start : Nat} (h : ∀ e ∈ edits, start ≤ e.line)
    (lines : List Text) : (apply edits lines).take start = lines.take start := by
  rw [apply_eq_applyFrom]
  exact (applyFrom_split (fun e he => by simpa using h e he) lines).1

namespace Cap

variable {lines code : List Text} {start count : Nat} {loop : Loop} {edits : List Edit}

/-- A block is closed behind the header of the function. -/
lemma le_line_of_closeBody (hloop : loop.LiesIn start count) :
    ∀ e ∈ closeBody loop, start ≤ e.line := by
  intro e he
  rw [closeBody, Option.mem_toList, Option.map_eq_some_iff] at he
  obtain ⟨last, hlast, rfl⟩ := he
  exact hloop.headerLine.1.trans (hloop.bodyEnd last hlast).1

/-- A counter is declared behind the header of the function. -/
lemma le_line_of_counterEdits (hloop : loop.LiesIn start count)
    (h : counterEdits config lines code loop = .ok edits) : ∀ e ∈ edits, start ≤ e.line := by
  obtain ⟨column, hkeyword⟩ := hloop.keyword
  obtain ⟨header, -, h⟩ := bind_eq_ok_iff.mp h
  simp only [hkeyword, Option.getD_some] at h
  have hheader := hloop.headerLine.1
  split at h
  · obtain rfl := Except.ok.inj h
    intro e he
    rcases List.mem_cons.mp he with rfl | he
    · exact hheader
    · exact le_line_of_closeBody hloop e he
  · obtain ⟨line, -, h⟩ := bind_eq_ok_iff.mp h
    split at h
    · obtain rfl := Except.ok.inj h
      exact fun e he => List.mem_singleton.mp he ▸ hheader
    · obtain rfl := Except.ok.inj h
      exact fun e he => List.mem_singleton.mp he ▸ hheader

/-- A guard is put behind the header of the function. -/
lemma le_line_of_guardEdits (hloop : loop.LiesIn start count) {cap : Int}
    (h : guardEdits config lines code loop cap = .ok edits) : ∀ e ∈ edits, start ≤ e.line := by
  have hheader := hloop.headerLine.1
  rw [guardEdits] at h
  split at h
  · rename_i brace hbrace
    have hline := hheader.trans (hloop.brace brace hbrace).1
    obtain ⟨line, -, h⟩ := bind_eq_ok_iff.mp h
    split at h
    · obtain rfl := Except.ok.inj h
      exact fun e he => List.mem_singleton.mp he ▸ hline
    · obtain ⟨header, -, h⟩ := bind_eq_ok_iff.mp h
      obtain rfl := Except.ok.inj h
      exact fun e he => List.mem_singleton.mp he ▸ hline
  · rename_i close _ hclose
    obtain ⟨close', hclose', hline, -⟩ := hloop.parenClose
    obtain rfl : close' = close := Option.some.inj (hclose'.symm.trans hclose)
    obtain rfl := Except.ok.inj h
    intro e he
    rcases List.mem_cons.mp he with rfl | he
    · exact hheader.trans hline
    · exact le_line_of_closeBody hloop e he
  · obtain rfl := Except.ok.inj h
    exact fun e he => absurd he List.not_mem_nil

/-- The edits that cap loops are made behind the header of the function. -/
lemma le_line_of_editsFor {caps : Caps} {loops : List Loop}
    (hloops : ∀ loop ∈ loops, loop.LiesIn start count)
    (h : editsFor config lines code caps loops = .ok edits) : ∀ e ∈ edits, start ≤ e.line := by
  induction loops generalizing edits with
  | nil =>
    obtain rfl := Except.ok.inj h
    exact fun e he => absurd he List.not_mem_nil
  | cons loop loops ih =>
    have hloop := hloops loop List.mem_cons_self
    have hrest := fun loop hmem => hloops loop (List.mem_cons_of_mem _ hmem)
    rw [editsFor] at h
    split at h
    · exact ih hrest h
    · obtain ⟨counter, hcounter, h⟩ := bind_eq_ok_iff.mp h
      obtain ⟨guard, hguard, h⟩ := bind_eq_ok_iff.mp h
      obtain ⟨others, hothers, h⟩ := bind_eq_ok_iff.mp h
      obtain rfl := Except.ok.inj h
      intro e he
      rw [List.mem_append, List.mem_append] at he
      rcases he with (he | he) | he
      · exact le_line_of_counterEdits hloop hcounter e he
      · exact le_line_of_guardEdits hloop hguard e he
      · exact ih hrest hothers e he

/-- **Capping keeps the lines in front of the function.** -/
theorem take_of_apply {caps : Caps} {result : List Text}
    (h : apply config lines start caps = .ok result) : result.take start = lines.take start := by
  rw [apply] at h
  split at h
  · exact absurd h (by simp)
  · obtain ⟨edits, hedits, h⟩ := bind_eq_ok_iff.mp h
    obtain rfl := Except.ok.inj h
    exact Edit.take_apply
      (le_line_of_editsFor (fun loop hloop => Loop.liesIn_of_mem_find hloop) hedits) lines

end Cap

namespace Shadow

variable {lines result : List Text} {start count : Nat}

/-- The assignment keeps the lines in front of the statement. -/
lemma take_of_assign {target : Nat} {assignment : Text} (hstart : start ≤ target)
    (h : assign config lines target assignment = .ok result) :
    result.take start = lines.take start := by
  obtain ⟨line, -, h⟩ := bind_eq_ok_iff.mp h
  obtain ⟨last, -, h⟩ := bind_eq_ok_iff.mp h
  cases last with
  | none =>
    obtain rfl := Except.ok.inj h
    exact List.take_insertIdx_eq_take_of_le _ _ _ _ (by omega)
  | some last =>
    dsimp only at h
    split at h
    · obtain rfl := Except.ok.inj h
      exact List.take_set_of_le hstart
    · obtain rfl := Except.ok.inj h
      exact List.take_insertIdx_eq_take_of_le _ _ _ _ (by omega)

/-- The declaration keeps the lines in front of the loop. -/
lemma take_of_declare {marked : List Text} {loop : Loop} {declaration : Text}
    (hloop : loop.LiesIn start count) (h : declare lines marked loop declaration = .ok result) :
    result.take start = marked.take start := by
  obtain ⟨column, hkeyword⟩ := hloop.keyword
  have hheader := hloop.headerLine.1
  obtain ⟨header, -, h⟩ := bind_eq_ok_iff.mp h
  simp only [hkeyword, Option.getD_some] at h
  obtain ⟨line, -, h⟩ := bind_eq_ok_iff.mp h
  split at h
  · obtain rfl := Except.ok.inj h
    exact List.take_set_of_le hheader
  · obtain ⟨code, -, h⟩ := bind_eq_ok_iff.mp h
    split at h
    · obtain rfl := Except.ok.inj h
      exact List.take_set_of_le hheader
    · obtain rfl := Except.ok.inj h
      exact List.take_insertIdx_eq_take_of_le _ _ _ _ hheader

/-- **Carrying a value out of loops keeps the lines in front of them.** -/
theorem take_of_insert {target : Nat} {shown : Variable} {loops : List Loop}
    {shadow : Option Text} (hloops : ∀ loop ∈ loops, loop.LiesIn start count)
    (hstart : start ≤ target) (h : insert config lines target shown loops = .ok (result, shadow)) :
    result.take start = lines.take start := by
  rw [insert] at h
  split at h
  · obtain ⟨rfl, -⟩ := Prod.mk.inj (Except.ok.inj h)
    rfl
  · rename_i outermost hmost
    obtain ⟨assigned, hassigned, h⟩ := bind_eq_ok_iff.mp h
    obtain ⟨declared, hdeclared, h⟩ := bind_eq_ok_iff.mp h
    obtain ⟨rfl, -⟩ := Prod.mk.inj (Except.ok.inj h)
    rw [take_of_declare (hloops outermost (Loop.mem_of_outermost? hmost)) hdeclared,
      take_of_assign hstart hassigned]

end Shadow

/-! ### Layouts -/

namespace Outline

/-- The brace that ends a function stands on the line of its header or behind it. -/
lemma startLine_le_of_functionAt? {code rest : List Text} {line last : Nat} {f : Signature}
    (h : functionAt? config code line rest = some f) (hlast : f.endLine = some last) :
    f.startLine ≤ last := by
  rw [functionAt?] at h
  simp only [Option.bind_eq_bind, Option.bind_eq_some_iff] at h
  obtain ⟨text, -, header, -, h⟩ := h
  split at h
  · obtain ⟨body, -, h⟩ := Option.bind_eq_some_iff.mp h
    obtain ⟨hstart, hend⟩ := Signature.lines_of_ofCode? h
    rw [hstart]
    rw [hend, Option.map_eq_some_iff] at hlast
    obtain ⟨offset, -, rfl⟩ := hlast
    rw [FlatText.locate_eq_locateFrom]
    exact FlatText.le_line_locateFrom _ _ _
  · exact absurd h (by simp)

/-- A function ends on its first line or behind it. -/
lemma startLine_le_endLine {lines : List Text} {f : Signature} {last : Nat}
    (h : f ∈ functions config lines) (hlast : f.endLine = some last) : f.startLine ≤ last := by
  have hfrom : ∀ {code rest : List Text} {line depth skip : Nat},
      f ∈ functionsFrom config code line depth skip rest → f.startLine ≤ last := by
    intro code rest
    induction rest with
    | nil => exact fun h => absurd h List.not_mem_nil
    | cons l ls ih =>
      intro line depth skip h
      cases skip with
      | succ skip => exact ih h
      | zero =>
        rw [functionsFrom] at h
        split at h
        · exact ih h
        · rename_i signature hsignature
          have hfunction : functionAt? config code line (l :: ls) = some signature := by
            split at hsignature
            · exact hsignature
            · exact absurd hsignature (by simp)
          split at h
          · rw [List.mem_singleton.mp h] at hlast
            rename_i hnone
            rw [hnone] at hlast
            exact absurd hlast (by simp)
          · rcases List.mem_cons.mp h with rfl | h
            · exact startLine_le_of_functionAt? hfunction hlast
            · exact ih h
  exact hfrom h

end Outline

/-- Lines without line feeds are not split further. -/
lemma Text.flatMap_lines {ls : List Text} (h : ∀ l ∈ ls, '\n' ∉ l) : ls.flatMap lines = ls := by
  induction ls with
  | nil => rfl
  | cons l ls ih =>
    rw [List.flatMap_cons, lines_eq_singleton (h l List.mem_cons_self),
      ih fun x hx => h x (List.mem_cons_of_mem l hx), List.singleton_append]

namespace Variant

/-- The lines in front of a function are kept, less the first entry point that ends there. -/
def IsFront (lines : List Text) (function : Signature) (front : List Text) : Prop :=
  match (Outline.functions {} lines).find? fun f =>
    f.isEntryPoint {} && f.endLine.any fun last => last < function.startLine with
  | none => front = lines.take function.startLine
  | some entry => ∃ last, entry.endLine = some last ∧ entry.startLine ≤ last ∧
      last < function.startLine ∧
      front = lines.take entry.startLine ++ (lines.take function.startLine).drop (last + 1)

/-- Only the function is changed; closing braces may follow. -/
def KeepsAround (lines : List Text) (function : Signature) (answer : Text) : Prop :=
  ∃ (middle : List Text) (closers : Nat), Text.lines answer =
    lines.take function.startLine ++ (middle ++
      (lines.drop (function.stopLine lines.length) ++ List.replicate closers ['}']))

/-- The function is kept behind the lines in front of it and closed.  A copy follows, which ends
with the return of a value and is closed, then an entry point. -/
def HasCopy (lines : List Text) (function : Signature) (answer : Text) : Prop :=
  ∃ (front copy entry : List Text) (value : Text) (closers closers' closers'' : Nat),
    IsFront lines function front ∧ Text.isIdent value = true ∧ Text.lines answer =
      front ++ (((lines.take (function.stopLine lines.length)).drop function.startLine ++
          List.replicate closers ['}']) ++ ([] ::
        ((copy ++ (({} : Config).indent ++ "return " ++ value ++ ";") ::
          List.replicate closers' ['}']) ++ ([] ::
        (({} : Config).entryHeader :: entry ++ List.replicate closers'' ['}'])))))

/-- The function, with its loops capped, is behind the lines in front of it, and an entry point
follows. -/
def HasCall (lines : List Text) (function : Signature) (answer : Text) : Prop :=
  ∃ (front own entry : List Text) (closers : Nat), IsFront lines function front ∧
    Text.lines answer = front ++ (own ++ ([] ::
      (({} : Config).entryHeader :: entry ++ List.replicate closers ['}'])))

variable {settings : Settings} {lines : List Text} {function : Signature} {shown : Variable}
  {loops : List Loop} {text : Text} {statementEnd : Nat}

/-- A truncated function keeps the lines in front of it. -/
lemma take_of_truncated {kept : List Text} {name : Text} {count : Nat}
    (hloops : ∀ loop ∈ loops, loop.LiesIn function.startLine count)
    (hstart : function.startLine ≤ statementEnd)
    (h : truncated config settings lines function statementEnd shown loops = .ok (kept, name)) :
    kept.take function.startLine = lines.take function.startLine := by
  obtain ⟨⟨marked, shadow⟩, hmarked, h⟩ := bind_eq_ok_iff.mp h
  obtain ⟨capped, hcapped, h⟩ := bind_eq_ok_iff.mp h
  obtain ⟨rfl, -⟩ := Prod.mk.inj (Except.ok.inj h)
  have hkept : min function.startLine (keptLines lines.length statementEnd loops) =
      min function.startLine lines.length ∨
      function.startLine ≤ keptLines lines.length statementEnd loops := by
    rw [keptLines]
    split
    · exact .inr (by omega)
    · split
      · exact .inl rfl
      · exact .inr (by omega)
  rw [Cap.take_of_apply hcapped, Shadow.take_of_insert hloops hstart hmarked, List.take_take]
  rcases hkept with hkept | hkept
  · rw [hkept, ← List.take_take, List.take_length]
  · rw [Nat.min_eq_left hkept]

/-! ### The parts of a variant -/

/-- The lines that show a value at the end of an entry point. -/
def visibleLines (config : Config) (settings : Settings) (function : Signature) (shown : Variable)
    (name : Text) : List Text :=
  Visualization.indented config settings.options (outputOf config function) shown.type name

/-- The statements that show a value are lines. -/
lemma visibleLines_ne_nil (config : Config) (settings : Settings) (function : Signature)
    (shown : Variable) (name : Text) : visibleLines config settings function shown name ≠ [] := by
  simp [visibleLines, Visualization.indented, Visualization.statements]

/-- An entry point in place: the truncated text, the lines that show the value, closing braces, and
the lines behind the entry point. -/
lemma exists_of_entryPoint
    (h : entryPoint config settings lines function statementEnd shown loops = .ok text) :
    ∃ (kept : List Text) (name : Text) (closers closers' : Nat),
      truncated config settings lines function statementEnd shown loops = .ok (kept, name) ∧
      Balance.openBlocks kept function.startLine = closers ∧
      text = Text.ofLines (kept ++ (visibleLines config settings function shown name ++
        (List.replicate closers ['}'] ++ (lines.drop (function.stopLine lines.length) ++
          List.replicate closers' ['}'])))) := by
  obtain ⟨⟨kept, name⟩, hkept, h⟩ := bind_eq_ok_iff.mp h
  obtain ⟨closed, hclosed, h⟩ := bind_eq_ok_iff.mp h
  obtain ⟨result, hresult, h⟩ := bind_eq_ok_iff.mp h
  obtain rfl := Except.ok.inj h
  obtain ⟨n, hn, rfl⟩ := Balance.close_eq_ok_iff.mp hclosed
  obtain ⟨n', -, rfl⟩ := Balance.close_eq_ok_iff.mp hresult
  refine ⟨kept, name, n, n', hkept, hn, ?_⟩
  rw [List.drop_left, Signature.stopLine]
  cases function.endLine with
  | none => simp [visibleLines]
  | some last => simp [visibleLines]

/-- A truncated copy: its lines with the header exchanged, the return of the value, and closing
braces. -/
lemma exists_of_debugCopy {name : Text} {copy : List Text}
    (h : debugCopy config settings lines function statementEnd shown loops name = .ok copy) :
    ∃ (kept : List Text) (value header : Text) (body : List Text) (closers : Nat),
      truncated config settings lines function statementEnd shown loops = .ok (kept, value) ∧
      kept.drop function.startLine = header :: body ∧
      Balance.openBlocks (renameHeader header shown.type name :: body) 0 = closers ∧
      copy = (renameHeader header shown.type name :: body) ++
        (config.indent ++ "return " ++ value ++ ";") :: List.replicate closers ['}'] := by
  obtain ⟨⟨kept, value⟩, hkept, h⟩ := bind_eq_ok_iff.mp h
  dsimp only at h
  split at h
  · exact absurd h (by simp)
  · rename_i header body hdrop
    obtain ⟨closed, hclosed, h⟩ := bind_eq_ok_iff.mp h
    obtain rfl := Except.ok.inj h
    obtain ⟨n, hn, rfl⟩ := Balance.close_eq_ok_iff.mp hclosed
    refine ⟨kept, value, header, body, n, hkept, hdrop, hn, ?_⟩
    rw [List.drop_left, List.append_assoc, List.singleton_append]

/-- A helper with its copy: the lines in front of it, the helper, the copy and an entry point. -/
lemma exists_of_helper {line : Nat}
    (h : helper config settings lines function line shown loops (some statementEnd) = .ok text) :
    ∃ (working copy : List Text) (closers closers' : Nat),
      captureReturn config lines line shown = .ok working ∧
      debugCopy config settings working function statementEnd shown loops
        (config.copyStem ++ function.name) = .ok copy ∧
      functionLines lines function = .ok ((lines.take (function.stopLine lines.length)).drop
        function.startLine ++ List.replicate closers ['}']) ∧
      text = Text.ofLines (linesBefore config lines function ++
        (((lines.take (function.stopLine lines.length)).drop function.startLine ++
          List.replicate closers ['}']) ++ ([] :: (copy ++ ([] ::
            (callingEntryPoint config settings (config.copyStem ++ function.name)
              function.parameters shown.type ++ List.replicate closers' ['}'])))))) := by
  obtain ⟨last, hlast, h⟩ := bind_eq_ok_iff.mp h
  obtain rfl := Except.ok.inj hlast
  obtain ⟨working, hworking, h⟩ := bind_eq_ok_iff.mp h
  obtain ⟨copy, hcopy, h⟩ := bind_eq_ok_iff.mp h
  obtain ⟨own, hown, h⟩ := bind_eq_ok_iff.mp h
  obtain ⟨result, hresult, h⟩ := bind_eq_ok_iff.mp h
  obtain rfl := Except.ok.inj h
  obtain ⟨n, -, rfl⟩ := Balance.close_eq_ok_iff.mp hown
  obtain ⟨n', -, rfl⟩ := Balance.close_eq_ok_iff.mp hresult
  exact ⟨working, copy, n, n', hworking, hcopy, hown, by simp⟩

/-- A whole helper: the lines in front of it, the helper and an entry point. -/
lemma exists_of_wholeHelper (h : wholeHelper config settings lines function = .ok text) :
    ∃ (own : List Text) (closers : Nat), text = Text.ofLines (linesBefore config lines function ++
      (own ++ ([] :: (callingEntryPoint config settings function.name function.parameters
        function.returnType ++ List.replicate closers ['}'])))) := by
  obtain ⟨capped, -, h⟩ := bind_eq_ok_iff.mp h
  obtain ⟨own, -, h⟩ := bind_eq_ok_iff.mp h
  obtain ⟨result, hresult, h⟩ := bind_eq_ok_iff.mp h
  obtain rfl := Except.ok.inj h
  obtain ⟨n, -, rfl⟩ := Balance.close_eq_ok_iff.mp hresult
  exact ⟨own, n, by simp⟩

/-! ### What is kept -/

/-- Closing braces are lines of one line each. -/
lemma flatMap_lines_replicate (n : Nat) :
    (List.replicate n (['}'] : Text)).flatMap Text.lines = List.replicate n ['}'] :=
  Text.flatMap_lines fun l hl => by
    rw [List.eq_of_mem_replicate hl]
    decide

/-- **An entry point is changed in place.** -/
theorem keepsAround_of_entryPoint {count : Nat} (hlines : ∀ l ∈ lines, '\n' ∉ l)
    (hloops : ∀ loop ∈ loops, loop.LiesIn function.startLine count)
    (hstart : function.startLine ≤ statementEnd)
    (h : entryPoint {} settings lines function statementEnd shown loops = .ok text) :
    KeepsAround lines function text := by
  obtain ⟨kept, name, n, n', hkept, -, rfl⟩ := exists_of_entryPoint h
  have hfront := take_of_truncated hloops hstart hkept
  have hne := visibleLines_ne_nil {} settings function shown name
  refine ⟨(kept.drop function.startLine ++ (visibleLines {} settings function shown name ++
    List.replicate n ['}'])).flatMap Text.lines, n', ?_⟩
  rw [Text.lines_ofLines fun h => hne (List.append_eq_nil_iff.mp (List.append_eq_nil_iff.mp h).2).1]
  conv_lhs => rw [← List.take_append_drop function.startLine kept, hfront]
  simp only [List.append_assoc, List.flatMap_append]
  rw [Text.flatMap_lines fun l hl => hlines l (List.mem_of_mem_take hl),
    Text.flatMap_lines fun l (hl : l ∈ lines.drop _) => hlines l (List.mem_of_mem_drop hl),
    flatMap_lines_replicate, flatMap_lines_replicate]

/-- The lines in front of a function, less an entry point that ends there. -/
lemma isFront_linesBefore (lines : List Text) (function : Signature) :
    IsFront lines function (linesBefore {} lines function) := by
  rw [IsFront, linesBefore]
  cases hentry : (Outline.functions {} lines).find? fun f =>
    f.isEntryPoint {} && f.endLine.any fun last => last < function.startLine with
  | none => rfl
  | some entry =>
    have hfound := List.find?_some hentry
    rw [Bool.and_eq_true, Option.any_eq_true] at hfound
    obtain ⟨last, hlast, hlt⟩ := hfound.2
    have hlt := of_decide_eq_true hlt
    have hle := Outline.startLine_le_endLine (List.mem_of_find?_eq_some hentry) hlast
    refine ⟨last, hlast, hle, hlt, ?_⟩
    dsimp only
    rw [List.take_take, Nat.min_eq_left (by omega), Signature.stopLine, hlast]

/-- The lines in front of a function stay lines of one line each. -/
lemma flatMap_lines_linesBefore (hlines : ∀ l ∈ lines, '\n' ∉ l) (function : Signature) :
    (linesBefore {} lines function).flatMap Text.lines = linesBefore {} lines function :=
  Text.flatMap_lines (not_mem_linesBefore hlines function)

/-- A synthesized entry point starts with its header. -/
lemma exists_flatMap_callingEntryPoint (settings : Settings) (callee type : Text)
    (parameters : List Parameter) :
    ∃ entry, (callingEntryPoint {} settings callee parameters type).flatMap Text.lines =
      ({} : Config).entryHeader :: entry := by
  have hheader := Text.lines_eq_singleton (not_mem_entryHeader Config.isPlain_default)
  rw [callingEntryPoint, List.cons_append, List.cons_append, List.flatMap_cons, hheader]
  exact ⟨_, rfl⟩

/-- **A helper is kept, and a copy of it follows.** -/
theorem hasCopy_of_helper {line : Nat} (hlines : ∀ l ∈ lines, '\n' ∉ l) (hshown : shown.IsPlain)
    (h : helper {} settings lines function line shown loops (some statementEnd) = .ok text) :
    HasCopy lines function text := by
  obtain ⟨working, copy, n, n', -, hcopy, -, rfl⟩ := exists_of_helper h
  obtain ⟨kept, value, header, body, m, hkept, -, -, rfl⟩ := exists_of_debugCopy hcopy
  have hvalue : Text.isIdent value = true := by
    obtain ⟨⟨marked, shadow⟩, hmarked, hkept⟩ := bind_eq_ok_iff.mp hkept
    obtain ⟨capped, -, hkept⟩ := bind_eq_ok_iff.mp hkept
    obtain ⟨-, rfl⟩ := Prod.mk.inj (Except.ok.inj hkept)
    rw [Shadow.insert] at hmarked
    split at hmarked
    · obtain ⟨-, rfl⟩ := Prod.mk.inj (Except.ok.inj hmarked)
      exact hshown.name
    · obtain ⟨assigned, -, hmarked⟩ := bind_eq_ok_iff.mp hmarked
      obtain ⟨declared, -, hmarked⟩ := bind_eq_ok_iff.mp hmarked
      obtain ⟨-, rfl⟩ := Prod.mk.inj (Except.ok.inj hmarked)
      exact (by decide : Text.isIdent ({} : Config).shadow = true)
  obtain ⟨entry, hentry⟩ := exists_flatMap_callingEntryPoint settings
    (({} : Config).copyStem ++ function.name) shown.type function.parameters
  have hreturn : Text.lines (({} : Config).indent ++ "return " ++ value ++ ";") =
      [({} : Config).indent ++ "return " ++ value ++ ";"] :=
    Text.lines_eq_singleton (by simp [Text.not_mem_of_isIdent hvalue])
  refine ⟨_, (renameHeader header shown.type (({} : Config).copyStem ++ function.name) ::
    body).flatMap Text.lines, entry, value, n, m, n', isFront_linesBefore lines function, hvalue, ?_⟩
  rw [Text.lines_ofLines (by simp)]
  simp only [List.flatMap_append, List.flatMap_cons, hentry, hreturn, flatMap_lines_replicate,
    flatMap_lines_linesBefore hlines, Text.flatMap_lines fun l hl =>
      hlines l (List.mem_of_mem_take (List.mem_of_mem_drop hl))]
  rfl

/-- **A whole helper stands behind the lines in front of it, and a call follows.** -/
theorem hasCall_of_wholeHelper (hlines : ∀ l ∈ lines, '\n' ∉ l)
    (h : wholeHelper {} settings lines function = .ok text) : HasCall lines function text := by
  obtain ⟨own, n, rfl⟩ := exists_of_wholeHelper h
  obtain ⟨entry, hentry⟩ := exists_flatMap_callingEntryPoint settings function.name
    function.returnType function.parameters
  refine ⟨_, own.flatMap Text.lines, entry, n, isFront_linesBefore lines function, ?_⟩
  rw [Text.lines_ofLines (by simp)]
  simp only [List.flatMap_append, List.flatMap_cons, hentry, flatMap_lines_replicate,
    flatMap_lines_linesBefore hlines]
  rfl

end Variant

/-! ### The layout of an answer -/

namespace Probe

/-- The loops around a statement are loops of the function. -/
lemma mem_find_of_loopsAround {lines : List Text} {function : Signature} {line : Int}
    {loops : List Loop} (h : loopsAround config lines function line = .ok loops) :
    ∀ loop ∈ loops, loop ∈ Loop.find lines function.startLine := by
  intro loop hloop
  obtain ⟨last, -, h⟩ := bind_eq_ok_iff.mp h
  cases last with
  | none =>
    rw [← Except.ok.inj h] at hloop
    exact (List.mem_filter.mp hloop).1
  | some last =>
    rw [← Except.ok.inj h] at hloop
    exact (List.mem_filter.mp hloop).1

/-- The loops around a statement lie in the function. -/
lemma liesIn_of_loopsAround {lines : List Text} {function : Signature} {line : Int}
    {loops : List Loop} (h : loopsAround config lines function line = .ok loops) :
    ∀ loop ∈ loops, loop.LiesIn function.startLine lines.length := fun loop hloop =>
  Loop.liesIn_of_mem_find (mem_find_of_loopsAround h loop hloop)

/-- What an answer keeps of the lines, by the plan it carries out for a line of a function. -/
def Plan.Keeps (lines : List Text) (function : Signature) (answer : Text) : Plan → Prop
  | .nothing => False
  | .value f _ _ _ => f = function ∧
      if function.isEntryPoint {} then Variant.KeepsAround lines function answer
      else Variant.HasCopy lines function answer
  | .result f => f = function ∧ function.isEntryPoint {} = false ∧
      Variant.HasCall lines function answer

/-- **The source around the instrumented function is kept.**  The lines around an entry point stay
as they are.  A helper stays as it is, behind the lines in front of it less an entry point that ends
there; a copy and an entry point follow. -/
theorem lines_of_instrument {settings : Variant.Settings} {source : Text} {line : Int}
    {shown : Option Text} {answer : Text}
    (h : instrument {} settings source line shown = .ok (some answer)) :
    ∃ (target : Nat) (function : Signature) (p : Plan),
      Target.resolve (Text.lines source) line shown = some target ∧
        Outline.enclosing? {} (Text.lines source) target = some function ∧
          planLine {} (Text.lines source) function target = .ok p ∧
            p.Keeps (Text.lines source) function answer := by
  have hlines : ∀ l ∈ Text.lines source, '\n' ∉ l := fun l => Text.not_mem_lines
  rw [instrument_eq_run] at h
  rcases exists_plan (Text.lines source) line shown with
    hplan | ⟨target, function, p, htarget, hfunction, hp, hplan, hfor⟩
  · rw [hplan] at h
    exact absurd (Except.ok.inj h) (by simp)
  · refine ⟨target, function, p, htarget, hfunction, hp, ?_⟩
    rw [hplan] at h
    cases hfor with
    | nothing => exact absurd (Except.ok.inj h) (by simp)
    | value hfind hshown hknown hcapture =>
      refine ⟨rfl, ?_⟩
      obtain ⟨loops, hloops, h⟩ := bind_eq_ok_iff.mp (map_some_eq_ok_iff.mp h)
      have hstart := Outline.startLine_le_of_enclosing? hfunction
      obtain ⟨-, -, -, -, hend, -, -⟩ := Statement.bounds_of_find hfind
      split at h
      · rename_i hentry
        rw [if_pos hentry]
        exact Variant.keepsAround_of_entryPoint hlines (liesIn_of_loopsAround hloops) (by omega) h
      · rename_i hhelper
        rw [if_neg hhelper]
        exact Variant.hasCopy_of_helper hlines hshown h
    | result hhelper =>
      exact ⟨rfl, hhelper, Variant.hasCall_of_wholeHelper hlines (map_some_eq_ok_iff.mp h)⟩

/-- An entry point in front of a helper. -/
def helperBehindEntry : Text :=
  Text.ofLines
    ["void mainImage(out vec4 O, in vec2 U) \x7b", "  O = vec4(1.0);", "\x7d",
      "float f(float x) \x7b", "  float y = x;", "  return y;", "\x7d"]

/-- The answer for the helper keeps it, without the entry point in front of it. -/
theorem lines_of_instrument_behind_entry :
    ∃ answer, instrument {} {} helperBehindEntry 4 none = .ok (some answer) ∧
      ∃ (target : Nat) (function : Signature) (p : Plan),
        Target.resolve (Text.lines helperBehindEntry) 4 none = some target ∧
          Outline.enclosing? {} (Text.lines helperBehindEntry) target = some function ∧
            planLine {} (Text.lines helperBehindEntry) function target = .ok p ∧
              p.Keeps (Text.lines helperBehindEntry) function answer := by
  have hsome : (instrument {} {} helperBehindEntry 4 none).toOption.join.isSome = true := by
    decide +kernel
  obtain ⟨answer, hanswer⟩ := Option.isSome_iff_exists.mp hsome
  have hok := eq_ok_of_toOption (Option.join_eq_some_iff.mp hanswer)
  exact ⟨answer, hok, lines_of_instrument hok⟩

end Probe

end ShaderProbe
