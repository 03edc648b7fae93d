import Mathlib
import ShaderProbe.Proofs.Preserved

/-!
# How a request can fail

A request fails for two reasons only (`Probe.errors_of_instrument`): the text closes more blocks
than it opens, or a pair of a loop and its cap is negative.  No place that an edit refers to is out
of range, since the statement and the loops of a function lie on its lines and behind its header,
and lines are only ever added to a text.  The offsets of a flat text that are looked up have a place
too (`Outline.exists_locate?_of_mem_functions`, `Loop.exists_locate?_of_mem_find`).

`OnlyFails` collects the errors of a computation part by part.
-/

namespace ShaderProbe

/-- The errors of a computation are of a kind. -/
def OnlyFails {α : Type} (kind : Error → Prop) (x : Except Error α) : Prop :=
  ∀ e, x = .error e → kind e

namespace OnlyFails

variable {α β : Type} {kind : Error → Prop} {x : Except Error α}

/-- A result is no error. -/
lemma of_exists (h : ∃ a, x = .ok a) : OnlyFails kind x := by
  obtain ⟨a, rfl⟩ := h
  exact fun e he => absurd he (by simp)

/-- Two computations in a row fail as the first of them does, or as the second. -/
lemma bind {f : α → Except Error β} (hx : OnlyFails kind x)
    (hf : ∀ a, x = .ok a → OnlyFails kind (f a)) : OnlyFails kind (x >>= f) := by
  cases x with
  | error e => exact fun e' he => hx e' (by simpa [Bind.bind, Except.bind] using he)
  | ok a => exact hf a rfl

/-- A computation whose result is changed fails as before. -/
lemma map {f : α → β} (hx : OnlyFails kind x) : OnlyFails kind (f <$> x) := by
  cases x with
  | error e => exact fun e' he => hx e' (by simpa [Functor.map, Except.map] using he)
  | ok a => exact of_exists ⟨f a, rfl⟩

end OnlyFails

/-- The expected errors: blocks are closed too often, or the first invalid pair of the caps is
named. -/
inductive Error.IsExpected (caps : Cap.Caps) : Error → Prop
  | braces {excess line : Nat} (hexcess : 0 < excess) :
    IsExpected caps (.unbalancedBraces excess line)
  | cap {front back : Cap.Caps} {index cap : Int} (hcaps : caps = front ++ (index, cap) :: back)
      (hinvalid : index < 0 ∨ cap < 0) (hvalid : ∀ entry ∈ front, 0 ≤ entry.1 ∧ 0 ≤ entry.2) :
      IsExpected caps (.invalidCap index cap)

/-- A text is closed, or it has too many closing braces. -/
lemma Balance.onlyFails_close (caps : Cap.Caps) (lines : List Text) (start : Nat) :
    OnlyFails (Error.IsExpected caps) (close lines start) := by
  rw [close]
  split
  · rename_i hdepth
    rintro e he
    obtain rfl := Except.error.inj he
    exact .braces (by omega)
  · exact .of_exists ⟨_, rfl⟩

/-- A line of the text can be looked up. -/
lemma exists_lineAt {lines : List Text} {line : Nat} (h : line < lines.length) :
    ∃ text, lineAt lines line = .ok text :=
  ⟨lines[line], lineAt_eq_ok_iff.mpr (List.getElem?_eq_getElem h)⟩

/-! ### Edits -/

/-- Edits add lines. -/
lemma Edit.length_le_apply (edits : List Edit) (lines : List Text) :
    lines.length ≤ (apply edits lines).length := by
  rw [apply, List.length_flatten]
  have hcount := List.length_le_sum_of_one_le
    ((lines.mapIdx fun line text => applyLine edits line text).map List.length)
  rw [List.length_map, List.length_mapIdx] at hcount
  refine hcount fun n hn => ?_
  obtain ⟨block, hblock, rfl⟩ := List.mem_map.mp hn
  obtain ⟨line, hline, rfl⟩ := List.mem_mapIdx.mp hblock
  simp [applyLine]
  omega

namespace Cap

variable {lines code : List Text} {start : Nat} {loop : Loop}

/-- The counter of a loop can be declared. -/
lemma exists_counterEdits (config : Config) (hloop : loop.LiesIn start lines.length)
    (hcode : code.length = lines.length) :
    ∃ edits, counterEdits config lines code loop = .ok edits := by
  obtain ⟨column, hkeyword⟩ := hloop.keyword
  obtain ⟨header, hheader⟩ := exists_lineAt hloop.headerLine.2
  obtain ⟨line, hline⟩ := exists_lineAt (hcode ▸ hloop.headerLine.2)
  simp only [counterEdits, hheader, hkeyword, Option.getD_some, bind, Except.bind, hline]
  split
  · exact ⟨_, rfl⟩
  · split <;> exact ⟨_, rfl⟩

/-- The guard of a loop can be put in. -/
lemma exists_guardEdits (config : Config) (hloop : loop.LiesIn start lines.length)
    (hcode : code.length = lines.length) (cap : Int) :
    ∃ edits, guardEdits config lines code loop cap = .ok edits := by
  rw [guardEdits]
  split
  · rename_i brace hbrace
    obtain ⟨header, hheader⟩ := exists_lineAt hloop.headerLine.2
    obtain ⟨line, hline⟩ := exists_lineAt (hcode ▸ (hloop.brace brace hbrace).2)
    simp only [hline, hheader, bind, Except.bind]
    split <;> exact ⟨_, rfl⟩
  · exact ⟨_, rfl⟩
  · exact ⟨_, rfl⟩

/-- The loops of a function can be capped. -/
lemma exists_editsFor (config : Config) {loops : List Loop}
    (hloops : ∀ loop ∈ loops, loop.LiesIn start lines.length) (hcode : code.length = lines.length)
    (caps : Caps) :
    ∃ edits, editsFor config lines code caps loops = .ok edits := by
  induction loops with
  | nil => exact ⟨_, rfl⟩
  | cons loop loops ih =>
    have hloop := hloops loop List.mem_cons_self
    obtain ⟨others, hothers⟩ := ih fun loop hmem => hloops loop (List.mem_cons_of_mem _ hmem)
    rw [editsFor]
    split
    · exact ⟨others, hothers⟩
    · rename_i cap _
      obtain ⟨counter, hcounter⟩ := exists_counterEdits config hloop hcode
      obtain ⟨guard, hguard⟩ := exists_guardEdits config hloop hcode cap
      exact ⟨_, by rw [hcounter, hguard, hothers]; rfl⟩

/-- **Capping fails for an invalid pair only**, and the first one is named. -/
theorem onlyFails_apply (config : Config) (lines : List Text) (start : Nat) (caps : Caps) :
    OnlyFails (Error.IsExpected caps) (apply config lines start caps) := by
  rw [apply]
  split
  · rename_i index cap hfound
    obtain ⟨hinvalid, front, back, hcaps, hvalid⟩ := List.find?_eq_some_iff_append.mp hfound
    rintro e he
    obtain rfl := Except.error.inj he
    refine .cap hcaps (by simpa using hinvalid) fun entry hentry => ?_
    simpa using hvalid entry hentry
  · have hloops : ∀ loop ∈ Loop.find lines start, loop.LiesIn start lines.length :=
      fun loop hloop => Loop.liesIn_of_mem_find hloop
    obtain ⟨result, hresult⟩ := exists_editsFor config hloops (Comment.length_strip lines) caps
    exact .of_exists ⟨_, by rw [edits, hresult]; rfl⟩

/-- What is capped has valid caps. -/
lemma valid_of_apply {config : Config} {caps : Caps} {result : List Text}
    (h : apply config lines start caps = .ok result) :
    ∀ entry ∈ caps, 0 ≤ entry.1 ∧ 0 ≤ entry.2 := by
  rw [apply] at h
  split at h
  · exact absurd h (by simp)
  · rename_i hnone
    intro entry hentry
    simpa using List.find?_eq_none.mp hnone entry hentry

/-- Capping adds lines. -/
lemma length_le_of_apply {config : Config} {caps : Caps} {result : List Text}
    (h : apply config lines start caps = .ok result) : lines.length ≤ result.length := by
  rw [apply] at h
  split at h
  · exact absurd h (by simp)
  · obtain ⟨edits, -, h⟩ := bind_eq_ok_iff.mp h
    obtain rfl := Except.ok.inj h
    exact Edit.length_le_apply edits lines

end Cap

namespace Shadow

variable {lines : List Text}

/-- The value can be assigned on a line of the text. -/
lemma exists_assign (config : Config) {target : Nat} (htarget : target < lines.length)
    (assignment : Text) :
    ∃ result, assign config lines target assignment = .ok result ∧
      lines.length ≤ result.length := by
  obtain ⟨line, hline⟩ := exists_lineAt htarget
  obtain ⟨last, hlast⟩ := Statement.exists_endAt config.maxStatementLines lines target
  simp only [assign, hline, hlast, bind, Except.bind]
  split
  · split
    · exact ⟨_, rfl, by simp⟩
    · exact ⟨_, rfl, by simp [List.length_insertIdx]; split <;> omega⟩
  · exact ⟨_, rfl, by simp [List.length_insertIdx]; split <;> omega⟩

/-- The shadow can be declared in front of a loop of the text. -/
lemma exists_declare {marked : List Text} {loop : Loop} {start count : Nat}
    (hloop : loop.LiesIn start count) (hheader : loop.headerLine < lines.length)
    (hmarked : lines.length ≤ marked.length) (declaration : Text) :
    ∃ result, declare lines marked loop declaration = .ok result ∧
      lines.length ≤ result.length := by
  obtain ⟨column, hkeyword⟩ := hloop.keyword
  obtain ⟨header, hline⟩ := exists_lineAt hheader
  obtain ⟨line, hline'⟩ := exists_lineAt (hheader.trans_le hmarked)
  have hcode : loop.headerLine < (Comment.strip lines).length := by rwa [Comment.length_strip]
  obtain ⟨code, hcode⟩ := exists_lineAt hcode
  simp only [declare, hline, hkeyword, Option.getD_some, bind, Except.bind, hline', hcode]
  split
  · exact ⟨_, rfl, by simpa using hmarked⟩
  · split
    · exact ⟨_, rfl, by simpa using hmarked⟩
    · exact ⟨_, rfl, by simp [List.length_insertIdx]; split <;> omega⟩

/-- **A value can be carried out of loops** that start on lines of the text. -/
theorem exists_insert (config : Config) {target start count : Nat} {loops : List Loop}
    (htarget : target < lines.length) (hloops : ∀ loop ∈ loops, loop.LiesIn start count)
    (hheader : ∀ loop ∈ Loop.outermost? loops, loop.headerLine < lines.length)
    (shown : Variable) :
    ∃ result, insert config lines target shown loops = .ok result ∧
      lines.length ≤ result.1.length := by
  rw [insert]
  split
  · exact ⟨_, rfl, le_rfl⟩
  · rename_i outermost hmost
    obtain ⟨marked, hmarked, hlength⟩ := exists_assign config htarget
      (config.shadow ++ " = " ++ shown.name ++ ";")
    obtain ⟨result, hresult, hlength'⟩ := exists_declare
      (hloops outermost (Loop.mem_of_outermost? hmost)) (hheader outermost hmost) hlength
      (shown.type ++ " " ++ config.shadow ++ ";")
    exact ⟨_, by rw [hmarked]; simp only [bind, Except.bind, hresult]; rfl, hlength'⟩

end Shadow

/-! ### Variants -/

namespace Variant

variable {config : Config} {settings : Settings} {lines : List Text} {function : Signature}
  {shown : Variable} {loops : List Loop} {statementEnd : Nat}

/-- What is known of the statement at which a function is truncated: it ends on a line of the
function, and the loops around it start in front of its end. -/
structure IsCut (lines : List Text) (function : Signature) (statementEnd : Nat)
    (loops : List Loop) : Prop where
  start : function.startLine ≤ statementEnd
  bound : statementEnd < lines.length
  liesIn : ∀ loop ∈ loops, loop.LiesIn function.startLine lines.length
  headerLine : ∀ loop ∈ loops, loop.headerLine ≤ statementEnd

/-- The end of the statement is kept. -/
lemma IsCut.lt_length (h : IsCut lines function statementEnd loops) :
    statementEnd < (lines.take (keptLines lines.length statementEnd loops)).length := by
  have hbound := h.bound
  rw [List.length_take, keptLines]
  split
  · omega
  · split <;> omega

/-- A function is truncated unless a cap is invalid, and keeps its header. -/
lemma onlyFails_truncated (h : IsCut lines function statementEnd loops) :
    OnlyFails (Error.IsExpected settings.caps)
        (truncated config settings lines function statementEnd shown loops) ∧
      ∀ kept name, truncated config settings lines function statementEnd shown loops =
        .ok (kept, name) → function.startLine < kept.length ∧
          ∀ entry ∈ settings.caps, 0 ≤ entry.1 ∧ 0 ≤ entry.2 := by
  have hkept := h.lt_length
  obtain ⟨⟨marked, shadow⟩, hmarked, hlength⟩ := Shadow.exists_insert config hkept h.liesIn
    (fun loop hloop => (h.headerLine loop (Loop.mem_of_outermost? hloop)).trans_lt hkept) shown
  constructor
  · refine .bind (.of_exists ⟨_, hmarked⟩) fun result hresult => ?_
    exact .bind (Cap.onlyFails_apply _ _ _ _) fun capped _ => .of_exists ⟨_, rfl⟩
  · intro kept name htruncated
    obtain ⟨result, hresult, htruncated⟩ := bind_eq_ok_iff.mp htruncated
    obtain ⟨capped, hcapped, htruncated⟩ := bind_eq_ok_iff.mp htruncated
    obtain ⟨rfl, -⟩ := Prod.mk.inj (Except.ok.inj htruncated)
    obtain rfl := Except.ok.inj (hmarked.symm.trans hresult)
    have hlength' := Cap.length_le_of_apply hcapped
    have hstart := h.start
    exact ⟨by omega, Cap.valid_of_apply hcapped⟩

/-- An entry point in place. -/
lemma onlyFails_entryPoint (h : IsCut lines function statementEnd loops) :
    OnlyFails (Error.IsExpected settings.caps)
      (entryPoint config settings lines function statementEnd shown loops) :=
  .bind (onlyFails_truncated h).1 fun _ _ =>
    .bind (Balance.onlyFails_close _ _ _) fun _ _ =>
      .bind (Balance.onlyFails_close _ _ _) fun _ _ => .of_exists ⟨_, rfl⟩

/-- A truncated copy of a helper: its header is there to be exchanged. -/
lemma onlyFails_debugCopy {name : Text} (h : IsCut lines function statementEnd loops) :
    OnlyFails (Error.IsExpected settings.caps)
      (debugCopy config settings lines function statementEnd shown loops name) := by
  obtain ⟨hfails, hkept⟩ := onlyFails_truncated h
  refine .bind hfails fun pair htruncated => ?_
  obtain ⟨kept, value⟩ := pair
  have hlength := (hkept kept value htruncated).1
  dsimp only
  split
  · rename_i hnil
    rw [List.drop_eq_nil_iff] at hnil
    omega
  · exact .bind (Balance.onlyFails_close _ _ _) fun _ _ => .of_exists ⟨_, rfl⟩

/-- A returned value can be captured, and the lines keep their numbers. -/
lemma exists_captureReturn {line : Nat} (hcapture : IsCapturable lines line shown) :
    ∃ working, captureReturn {} lines line shown = .ok working ∧ working.length = lines.length := by
  rw [captureReturn]
  split
  · rename_i hname
    obtain ⟨returned, hreturned⟩ :=
      ReturnStatement.exists_find ({} : Config).maxStatementLines lines line
    rw [hreturned]
    cases returned with
    | none => exact ⟨_, rfl, rfl⟩
    | some returned =>
      have htype := not_mem_type_of_isCapturable hname hcapture hreturned
      have hescape : '\\' ∉ shown.name := by
        rw [hname]
        decide
      simp only [bind, Except.bind, captureDeclaration_of_plain htype hescape]
      exact ⟨_, rfl, List.length_modify _ _ _⟩
  · exact ⟨_, rfl, rfl⟩

/-- A helper with its copy. -/
lemma onlyFails_helper {line : Nat} (h : IsCut lines function statementEnd loops)
    (hcapture : IsCapturable lines line shown) :
    OnlyFails (Error.IsExpected settings.caps)
      (helper {} settings lines function line shown loops (some statementEnd)) := by
  obtain ⟨working, hworking, hlength⟩ := exists_captureReturn hcapture
  refine .bind (.of_exists ⟨_, rfl⟩) fun last hlast => ?_
  obtain rfl := Except.ok.inj hlast
  refine .bind (.of_exists ⟨_, hworking⟩) fun result hresult => ?_
  obtain rfl := Except.ok.inj (hworking.symm.trans hresult)
  have hcut : IsCut working function statementEnd loops :=
    ⟨h.start, hlength ▸ h.bound, hlength ▸ h.liesIn, h.headerLine⟩
  exact .bind (onlyFails_debugCopy hcut) fun _ _ => .bind (Balance.onlyFails_close _ _ _) fun _ _ =>
    .bind (Balance.onlyFails_close _ _ _) fun _ _ => .of_exists ⟨_, rfl⟩

/-- A whole helper. -/
lemma onlyFails_wholeHelper (config : Config) (settings : Settings) (lines : List Text)
    (function : Signature) :
    OnlyFails (Error.IsExpected settings.caps) (wholeHelper config settings lines function) :=
  .bind (Cap.onlyFails_apply _ _ _ _) fun _ _ => .bind (Balance.onlyFails_close _ _ _) fun _ _ =>
    .bind (Balance.onlyFails_close _ _ _) fun _ _ => .of_exists ⟨_, rfl⟩

end Variant

namespace Probe

/-- The loops around a line can be found. -/
lemma exists_loopsAround (config : Config) (lines : List Text) (function : Signature) (line : Int) :
    ∃ loops, loopsAround config lines function line = .ok loops := by
  obtain ⟨last, hlast⟩ := Statement.exists_endAt config.maxStatementLines lines line
  unfold loopsAround
  rw [hlast]
  cases last <;> exact ⟨_, rfl⟩

/-- The statement that a plan is about is one to truncate its function at. -/
lemma isCut_of_find {lines : List Text} {function : Signature} {line : Nat} {s : Statement}
    {loops : List Loop} (hfunction : Outline.enclosing? {} lines line = some function)
    (hfind : Statement.find ({} : Config).maxStatementLines (Comment.strip lines) line =
      .ok (some s))
    (hloops : loopsAround {} lines function line = .ok loops) :
    Variant.IsCut lines function s.endLine loops := by
  have hstart := Outline.startLine_le_of_enclosing? hfunction
  obtain ⟨-, -, -, -, hline, -, hend⟩ := Statement.bounds_of_find hfind
  rw [Comment.length_strip] at hend
  refine ⟨by omega, hend, liesIn_of_loopsAround hloops, fun loop hloop => ?_⟩
  rw [loopsAround, Statement.endAt_of_find hfind] at hloops
  rw [← Except.ok.inj hloops] at hloop
  exact Loop.headerLine_le_of_mem_enclosing hloop

/-- Carrying out a plan fails as expected. -/
lemma onlyFails_run {lines : List Text} {function : Signature} {line : Nat} {p : Plan}
    (hfunction : Outline.enclosing? {} lines line = some function)
    (hp : p.IsFor lines function line) (settings : Variant.Settings) :
    OnlyFails (Error.IsExpected settings.caps) (p.run {} settings lines) := by
  cases hp with
  | nothing => exact .of_exists ⟨none, rfl⟩
  | value hfind hshown hknown hcapture =>
    refine .map (.bind (.of_exists (exists_loopsAround _ _ _ _)) fun loops hloops => ?_)
    have hcut := isCut_of_find hfunction hfind hloops
    split
    · exact Variant.onlyFails_entryPoint hcut
    · exact Variant.onlyFails_helper hcut hcapture
  | result hhelper => exact .map (Variant.onlyFails_wholeHelper _ _ _ _)

/-- What is shown has valid caps. -/
lemma valid_of_run {lines : List Text} {function : Signature} {line : Nat} {p : Plan}
    {settings : Variant.Settings} {answer : Text}
    (hp : p.IsFor lines function line) (h : p.run {} settings lines = .ok (some answer)) :
    ∀ entry ∈ settings.caps, 0 ≤ entry.1 ∧ 0 ≤ entry.2 := by
  have htruncated : ∀ {lines statementEnd shown loops result},
      Variant.truncated {} settings lines function statementEnd shown loops = .ok result →
      ∀ entry ∈ settings.caps, 0 ≤ entry.1 ∧ 0 ≤ entry.2 := by
    intro lines statementEnd shown loops result h
    obtain ⟨marked, -, h⟩ := bind_eq_ok_iff.mp h
    obtain ⟨capped, hcapped, -⟩ := bind_eq_ok_iff.mp h
    exact Cap.valid_of_apply hcapped
  cases hp with
  | nothing => exact absurd (Except.ok.inj h) (by simp)
  | value hfind hshown hknown hcapture =>
    obtain ⟨loops, -, h⟩ := bind_eq_ok_iff.mp (map_some_eq_ok_iff.mp h)
    split at h
    · obtain ⟨kept, name, n, n', hkept, -⟩ := Variant.exists_of_entryPoint h
      exact htruncated hkept
    · obtain ⟨working, copy, n, n', -, hcopy, -, -⟩ := Variant.exists_of_helper h
      obtain ⟨kept, value, header, body, m, hkept, -⟩ := Variant.exists_of_debugCopy hcopy
      exact htruncated hkept
  | result hhelper =>
    obtain ⟨capped, hcapped, -⟩ := bind_eq_ok_iff.mp (map_some_eq_ok_iff.mp h)
    exact Cap.valid_of_apply hcapped

/-- Only the empty plan shows nothing. -/
lemma run_eq_none_iff {settings : Variant.Settings} {lines : List Text} {p : Plan} :
    p.run {} settings lines = .ok none ↔ p = .nothing := by
  have hmap : ∀ x : Except Error Text, some <$> x ≠ .ok none := by
    intro x
    cases x with
    | error e => simp [Functor.map, Except.map]
    | ok a => simp [Functor.map, Except.map]
  cases p with
  | nothing => simp [Plan.run]
  | value function line shown last => simpa [Plan.run] using hmap _
  | result function => simpa [Plan.run] using hmap _

/-- **A request fails as expected.**  The text closes more blocks than it opens, or some pair of a
loop and its cap is negative and the message names the first one.  A text is only answered for valid
caps, and whether there is anything to show does not depend on them. -/
theorem errors_of_instrument (settings : Variant.Settings) (source : Text) (line : Int)
    (shown : Option Text) :
    (∀ e, instrument {} settings source line shown = .error e →
      (∃ excess start, 0 < excess ∧ e = .unbalancedBraces excess start) ∨
        ∃ front index cap back, settings.caps = front ++ (index, cap) :: back ∧
          (index < 0 ∨ cap < 0) ∧ (∀ entry ∈ front, 0 ≤ entry.1 ∧ 0 ≤ entry.2) ∧
            e = .invalidCap index cap ∧
              e.message = "Invalid loop cap " ++ Text.ofInt index ++ ": " ++ Text.ofInt cap) ∧
      (∀ answer, instrument {} settings source line shown = .ok (some answer) →
        ∀ entry ∈ settings.caps, 0 ≤ entry.1 ∧ 0 ≤ entry.2) ∧
        (instrument {} settings source line shown = .ok none →
          ∀ caps, instrument {} { settings with caps } source line shown = .ok none) := by
  simp only [instrument_eq_run]
  rcases exists_plan (Text.lines source) line shown with
    hplan | ⟨target, function, p, -, hfunction, -, hplan, hfor⟩
  · rw [hplan]
    exact ⟨fun e h => absurd h (by simp [bind, Except.bind, Plan.run]),
      fun answer h => absurd (Except.ok.inj h) (by simp), fun _ _ => rfl⟩
  · rw [hplan]
    refine ⟨fun e h => ?_, fun answer h => valid_of_run hfor h, fun h caps => ?_⟩
    · cases onlyFails_run hfunction hfor settings e h with
      | braces hexcess => exact .inl ⟨_, _, hexcess, rfl⟩
      | cap hcaps hinvalid hvalid => exact .inr ⟨_, _, _, _, hcaps, hinvalid, hvalid, rfl, rfl⟩
    · rw [run_eq_none_iff.mp h]
      rfl

end Probe

end ShaderProbe
