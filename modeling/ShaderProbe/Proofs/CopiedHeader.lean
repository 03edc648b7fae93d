import Mathlib
import ShaderProbe.Proofs.FunctionHeader
import ShaderProbe.Proofs.StrayBraces

/-!
# The header of a copy

The copy of a helper keeps the header of the helper up to the parenthesis that closes the list of
parameters: what is put into the copy stands behind it (`Variant.agrees_of_truncated`), since the
loops of a function and the statement that is shown do.  The return type and the name of the header
line are exchanged, but only if the line reads as a header with its comments; a comment in front of
the parenthesis keeps it from being renamed (`Variant.renameHeader_of_ne`).
`Probe.signature_of_copy` says what is read at the first line of the copy in each case.
-/

namespace ShaderProbe

namespace Edit

/-- The edit is made behind a place. -/
def IsBehind (place : Position) : Edit → Prop
  | lineBefore line _ => place.line < line
  | inline line column _ => place.line < line ∨ place.line = line ∧ place.column < column
  | lineAfter line _ => place.line ≤ line

/-- Texts that are put in behind a column leave the line in front of it as it is. -/
lemma exists_weave {inserts : List (Nat × Text)} {l : Text} {column : Nat}
    (h : ∀ insert ∈ inserts, column < insert.1) (hcolumn : column < l.length) :
    ∃ tail, weave inserts 0 l = l.take (column + 1) ++ tail := by
  have hnone : ∀ c < (l.take (column + 1)).length,
      textsAt inserts (0 + c) = textsAt [] (0 + c) := by
    intro c hc
    rw [List.length_take] at hc
    have hempty : inserts.filter (fun insert => insert.1 = 0 + c) = [] := by
      refine List.filter_eq_nil_iff.mpr fun insert hinsert => ?_
      have := h insert hinsert
      simp only [decide_eq_true_eq]
      omega
    rw [textsAt, hempty]
    rfl
  have hfront : weaveFront inserts 0 (l.take (column + 1)) = l.take (column + 1) := by
    have hsame := @weave_eq_weaveFront [] 0 (l.take (column + 1)) (by simp)
    rw [weaveFront_congr hnone]
    simpa [textsAt] using hsame.symm
  refine ⟨weave inserts (0 + (l.take (column + 1)).length) (l.drop (column + 1)), ?_⟩
  conv_lhs => rw [← List.take_append_drop (column + 1) l, weave_append_eq, hfront]

/-- **Edits behind a place leave what stands in front of it as it is.** -/
lemma agrees_apply {edits : List Edit} {place : Position} {lines : List Text} {l : Text}
    (hl : lines[place.line]? = some l) (hcolumn : place.column < l.length)
    (h : ∀ e ∈ edits, e.IsBehind place) : place.Agrees lines (apply edits lines) := by
  have hlt := (List.getElem?_eq_some_iff.mp hl).1
  have hline : ∀ e ∈ edits, 0 + place.line ≤ e.line := by
    intro e he
    have hbehind := h e he
    cases e <;> simp only [IsBehind, Edit.line] at hbehind ⊢ <;> omega
  obtain ⟨htake, hdrop⟩ := applyFrom_split hline lines
  -- nothing is put in front of the line of the place
  have hbefore : edits.filterMap (before? (0 + place.line)) = [] := by
    refine List.filterMap_eq_nil_iff.mpr fun e he => ?_
    have hbehind := h e he
    cases e with
    | lineBefore line text =>
      simp only [IsBehind] at hbehind
      exact if_neg (by omega)
    | inline line column text => rfl
    | lineAfter line text => rfl
  have hinside : ∀ insert ∈ edits.filterMap (inside? (0 + place.line)),
      place.column < insert.1 := by
    intro insert hinsert
    obtain ⟨e, he, hsome⟩ := List.mem_filterMap.mp hinsert
    have hbehind := h e he
    cases e with
    | lineBefore line text => exact absurd hsome (by simp [inside?])
    | lineAfter line text => exact absurd hsome (by simp [inside?])
    | inline line column text =>
      simp only [IsBehind, inside?] at hbehind hsome
      split at hsome
      · obtain rfl := Option.some.inj hsome
        dsimp only
        omega
      · exact absurd hsome (by simp)
  obtain ⟨tail, htail⟩ := exists_weave hinside hcolumn
  rw [List.drop_eq_getElem_cons hlt, (List.getElem?_eq_some_iff.mp hl).2, applyFrom, applyLine,
    hbefore, htail] at hdrop
  rw [apply_eq_applyFrom, ← List.take_append_drop place.line (applyFrom edits 0 lines), htake, hdrop]
  conv_lhs => rw [← List.take_append_drop place.line lines, List.drop_eq_getElem_cons hlt,
    (List.getElem?_eq_some_iff.mp hl).2, ← List.take_append_drop (place.column + 1) l]
  exact Position.agrees_append (by simp [hlt.le]) (by simp; omega)

end Edit

namespace Signature

variable {lines : List Text} {start : Nat} {front group : Text} {place : Position}

/-- The closing parenthesis is a character of a line. -/
lemma EndsAt.exists_line (h : EndsAt lines start front group place) :
    ∃ l, lines[place.line]? = some l ∧ place.column < l.length := by
  obtain ⟨l, hl, hchar⟩ := h.char
  rw [Loop.codeFrom, List.getElem?_drop, Nat.add_sub_cancel' h.start_le, Comment.strip,
    Comment.stripFrom_eq, List.getElem?_map, Option.map_eq_some_iff] at hl
  obtain ⟨blanked, hblanked, rfl⟩ := hl
  obtain ⟨source, hsource, hlength, -⟩ := Comment.exists_source hblanked
  have hcolumn := (List.getElem?_eq_some_iff.mp (Comment.getElem?_of_trimRight hchar)).1
  exact ⟨source, hsource, hcolumn.trans_le hlength⟩

/-- A keyword behind the header that stands first on its line stands on a later line. -/
lemma EndsAt.line_lt (h : EndsAt lines start front group place) {line column : Nat} {code : Text}
    (hbefore : place.isBefore line column = true)
    (hcode : (Comment.strip lines)[line]? = some code)
    (hblank : Text.isBlankOnly (code.take column) = true) : place.line < line := by
  obtain ⟨l, hl, hchar⟩ := h.char
  rw [Loop.codeFrom, List.getElem?_drop, Nat.add_sub_cancel' h.start_le] at hl
  rcases (@Position.isBefore_iff place ⟨line, column⟩).mp hbefore with hlt | ⟨rfl, hcolumn⟩
  · exact hlt
  · obtain rfl := Option.some.inj (hl.symm.trans hcode)
    have hmem : ')' ∈ l.take column := by
      refine List.mem_of_getElem? (i := place.column) ?_
      rw [List.getElem?_take_of_lt hcolumn, hchar]
    exact absurd (Text.isBlankOnly_iff.mp hblank _ hmem) (by decide)

end Signature

namespace Cap

variable {lines result : List Text} {start : Nat} {front group : Text} {place : Position}
  {loop : Loop} {edits : List Edit}

/-- A block is closed behind the header of the function. -/
lemma isBehind_of_closeBody (hloop : loop.IsBehind place) :
    ∀ e ∈ closeBody loop, e.IsBehind place := by
  intro e he
  rw [closeBody, Option.mem_toList, Option.map_eq_some_iff] at he
  obtain ⟨last, hlast, rfl⟩ := he
  have hbefore := Position.isBefore_iff.mp (hloop.bodyEnd last hlast)
  simp only [Edit.IsBehind]
  omega

/-- A counter is declared behind the header of the function. -/
lemma isBehind_of_counterEdits {config : Config}
    (h : Signature.EndsAt lines start front group place) (hloop : loop.IsBehind place)
    (hedits : counterEdits config lines (Comment.strip lines) loop = .ok edits) :
    ∀ e ∈ edits, e.IsBehind place := by
  obtain ⟨column, hkeyword, hbefore⟩ := hloop.keyword
  have hplace := (@Position.isBefore_iff place ⟨loop.headerLine, column⟩).mp hbefore
  obtain ⟨header, -, hedits⟩ := bind_eq_ok_iff.mp hedits
  simp only [hkeyword, Option.getD_some] at hedits
  split at hedits
  · obtain rfl := Except.ok.inj hedits
    intro e he
    rcases List.mem_cons.mp he with rfl | he
    · exact hplace
    · exact isBehind_of_closeBody hloop e he
  · obtain ⟨code, hcode, hedits⟩ := bind_eq_ok_iff.mp hedits
    split at hedits
    · obtain rfl := Except.ok.inj hedits
      exact fun e he => List.mem_singleton.mp he ▸ hplace
    · rename_i hblank
      obtain rfl := Except.ok.inj hedits
      have hlt := h.line_lt hbefore (lineAt_eq_ok_iff.mp hcode) (by simpa using hblank)
      exact fun e he => List.mem_singleton.mp he ▸ hlt

/-- A guard is put behind the header of the function. -/
lemma isBehind_of_guardEdits {config : Config} {code : List Text} {cap : Int}
    (hloop : loop.IsBehind place) (hedits : guardEdits config lines code loop cap = .ok edits) :
    ∀ e ∈ edits, e.IsBehind place := by
  rw [guardEdits] at hedits
  split at hedits
  · rename_i brace hbrace
    have hplace := Position.isBefore_iff.mp (hloop.brace brace hbrace)
    obtain ⟨line, -, hedits⟩ := bind_eq_ok_iff.mp hedits
    split at hedits
    · obtain rfl := Except.ok.inj hedits
      intro e he
      obtain rfl := List.mem_singleton.mp he
      simp only [Edit.IsBehind]
      omega
    · obtain ⟨header, -, hedits⟩ := bind_eq_ok_iff.mp hedits
      obtain rfl := Except.ok.inj hedits
      intro e he
      obtain rfl := List.mem_singleton.mp he
      simp only [Edit.IsBehind]
      omega
  · rename_i close _ hclose
    have hplace := Position.isBefore_iff.mp (hloop.parenClose close hclose)
    obtain rfl := Except.ok.inj hedits
    intro e he
    rcases List.mem_cons.mp he with rfl | he
    · simp only [Edit.IsBehind]
      omega
    · exact isBehind_of_closeBody hloop e he
  · obtain rfl := Except.ok.inj hedits
    simp

/-- The edits that cap loops are made behind the header of the function. -/
lemma isBehind_of_editsFor {config : Config} {caps : Caps} {loops : List Loop}
    (h : Signature.EndsAt lines start front group place)
    (hloops : ∀ loop ∈ loops, loop.IsBehind place)
    (hedits : editsFor config lines (Comment.strip lines) caps loops = .ok edits) :
    ∀ e ∈ edits, e.IsBehind place := by
  induction loops generalizing edits with
  | nil =>
    obtain rfl := Except.ok.inj hedits
    simp
  | cons loop loops ih =>
    have hothers : ∀ other ∈ loops, other.IsBehind place := fun other hother =>
      hloops other (List.mem_cons_of_mem _ hother)
    have hloop := hloops loop List.mem_cons_self
    rw [editsFor] at hedits
    split at hedits
    · exact ih hothers hedits
    · obtain ⟨counter, hcounter, hedits⟩ := bind_eq_ok_iff.mp hedits
      obtain ⟨guard, hguard, hedits⟩ := bind_eq_ok_iff.mp hedits
      obtain ⟨others, hrest, hedits⟩ := bind_eq_ok_iff.mp hedits
      obtain rfl := Except.ok.inj hedits
      intro e he
      rcases List.mem_append.mp he with he | he
      · rcases List.mem_append.mp he with he | he
        · exact isBehind_of_counterEdits h hloop hcounter e he
        · exact isBehind_of_guardEdits hloop hguard e he
      · exact ih hothers hrest e he

/-- **Capping keeps the header of the function.** -/
theorem agrees_of_apply {config : Config} {caps : Caps}
    (h : Signature.EndsAt lines start front group place)
    (hresult : apply config lines start caps = .ok result) : place.Agrees lines result := by
  obtain ⟨edits, hedits, rfl⟩ := exists_edits_of_apply hresult
  obtain ⟨l, hl, hcolumn⟩ := h.exists_line
  exact Edit.agrees_apply hl hcolumn
    (isBehind_of_editsFor h (fun loop hloop => h.isBehind_of_mem_find hloop) hedits)

end Cap

namespace Shadow

variable {lines result marked : List Text} {start : Nat} {front group : Text} {place : Position}

/-- A text that is put in behind a place of a line. -/
lemma take_insertAt {line : Text} {column n : Nat} (text : Text) (hcolumn : n ≤ column)
    (hline : n ≤ line.length) : (insertAt line column text).take n = line.take n := by
  rw [insertAt, List.append_assoc, List.take_append_of_le_length, List.take_take,
    Nat.min_eq_left hcolumn]
  rw [List.length_take]
  omega

/-- The assignment keeps the header of the function. -/
lemma agrees_of_assign_behind {config : Config} {target : Nat} {assignment l : Text}
    (hl : lines[place.line]? = some l) (hcolumn : place.column < l.length)
    (htarget : place.line < target) (h : assign config lines target assignment = .ok result) :
    place.Agrees lines result := by
  obtain ⟨line, -, h⟩ := bind_eq_ok_iff.mp h
  obtain ⟨last, -, h⟩ := bind_eq_ok_iff.mp h
  have hbelow := Position.agrees_insertIdx hl hcolumn (htarget.trans (Nat.lt_succ_self _))
    (Text.indent line ++ assignment)
  cases last with
  | none =>
    obtain rfl := Except.ok.inj h
    exact hbelow
  | some last =>
    simp only at h
    split at h
    · obtain rfl := Except.ok.inj h
      exact Position.agrees_set hl hcolumn (.inl htarget)
    · obtain rfl := Except.ok.inj h
      exact hbelow

/-- The declaration keeps the header of the function. -/
lemma agrees_of_declare {loop : Loop} {declaration : Text}
    (h : Signature.EndsAt lines start front group place) (hloop : loop.IsBehind place)
    (hagree : place.Agrees lines marked)
    (hdeclare : declare lines marked loop declaration = .ok result) :
    place.Agrees lines result := by
  refine hagree.trans ?_
  obtain ⟨-, last, tail, tail', -, hl, hlength⟩ := hagree
  have hcolumn : place.column < (last ++ tail').length := by
    rw [List.length_append]
    omega
  obtain ⟨column, hkeyword, hbefore⟩ := hloop.keyword
  have hplace := (@Position.isBefore_iff place ⟨loop.headerLine, column⟩).mp hbefore
  obtain ⟨header, -, hdeclare⟩ := bind_eq_ok_iff.mp hdeclare
  simp only [hkeyword, Option.getD_some] at hdeclare
  obtain ⟨line, hline, hdeclare⟩ := bind_eq_ok_iff.mp hdeclare
  have hset : ∀ text, place.Agrees marked
      (marked.set loop.headerLine (insertAt line column text)) := by
    intro text
    refine Position.agrees_set hl hcolumn (hplace.imp id fun hsame => ⟨hsame.1, ?_⟩)
    have hsource : marked[place.line]? = some line := by
      rw [hsame.1]
      exact lineAt_eq_ok_iff.mp hline
    obtain rfl := Option.some.inj (hl.symm.trans hsource)
    exact take_insertAt text hsame.2 hcolumn
  split at hdeclare
  · obtain rfl := Except.ok.inj hdeclare
    exact hset _
  · obtain ⟨code, hcode, hdeclare⟩ := bind_eq_ok_iff.mp hdeclare
    split at hdeclare
    · obtain rfl := Except.ok.inj hdeclare
      exact hset _
    · rename_i hblank
      obtain rfl := Except.ok.inj hdeclare
      have hlt := h.line_lt hbefore (lineAt_eq_ok_iff.mp hcode) (by simpa using hblank)
      exact Position.agrees_insertIdx hl hcolumn hlt _

/-- **Carrying a value out of loops keeps the header of the function.** -/
lemma agrees_of_insert {config : Config} {target : Nat} {shown : Variable} {loops : List Loop}
    {shadow : Option Text} (h : Signature.EndsAt lines start front group place)
    (hloops : ∀ loop ∈ loops, loop.IsBehind place) (htarget : place.line < target)
    (hinsert : insert config lines target shown loops = .ok (result, shadow)) :
    place.Agrees lines result := by
  obtain ⟨l, hl, hcolumn⟩ := h.exists_line
  rw [insert] at hinsert
  split at hinsert
  · obtain ⟨rfl, -⟩ := Prod.mk.inj (Except.ok.inj hinsert)
    simpa using Position.agrees_take hl hcolumn (List.getElem?_eq_some_iff.mp hl).1
  · rename_i outermost hmost
    obtain ⟨assigned, hassigned, hinsert⟩ := bind_eq_ok_iff.mp hinsert
    obtain ⟨declared, hdeclared, hinsert⟩ := bind_eq_ok_iff.mp hinsert
    obtain ⟨rfl, -⟩ := Prod.mk.inj (Except.ok.inj hinsert)
    exact agrees_of_declare h (hloops outermost (Loop.mem_of_outermost? hmost))
      (agrees_of_assign_behind hl hcolumn htarget hassigned) hdeclared

end Shadow

namespace Variant

variable {settings : Settings} {lines kept : List Text} {function : Signature} {statementEnd : Nat}
  {shown : Variable} {loops : List Loop} {front group name : Text} {place : Position}

/-- **A truncated function keeps its header.** -/
theorem agrees_of_truncated (h : Signature.EndsAt lines function.startLine front group place)
    (hcut : IsCut lines function statementEnd loops) (hloops : ∀ loop ∈ loops, loop.IsBehind place)
    (hline : place.line < statementEnd)
    (htruncated : truncated {} settings lines function statementEnd shown loops =
      .ok (kept, name)) :
    place.Agrees lines kept := by
  obtain ⟨⟨marked, shadow⟩, hmarked, htruncated⟩ := bind_eq_ok_iff.mp htruncated
  obtain ⟨capped, hcapped, htruncated⟩ := bind_eq_ok_iff.mp htruncated
  obtain ⟨rfl, -⟩ := Prod.mk.inj (Except.ok.inj htruncated)
  obtain ⟨l, hl, hcolumn⟩ := h.exists_line
  have htake := Position.agrees_take hl hcolumn (hline.trans hcut.lt_keptLines)
  have hinsert := Shadow.agrees_of_insert (h.of_agrees htake) hloops hline hmarked
  have hmark := htake.trans hinsert
  exact hmark.trans (Cap.agrees_of_apply (h.of_agrees hmark) hcapped)

end Variant

namespace Header

variable {header : Header} {line rest : Text}

/-- The front of a header holds no slash. -/
lemma IsWellFormed.ne_slash (h : header.IsWellFormed) : ∀ c ∈ header.front, c ≠ '/' := by
  rintro c hc rfl
  exact absurd (h.cases_of_mem_front hc) (by decide)

/-- A line whose code is a header holds its parenthesis. -/
lemma mem_of_code (hcode : Text.trimRight (Comment.blankLine false line).1 =
    header.front ++ '(' :: rest) : '(' ∈ line := by
  obtain ⟨gap, -, hgap⟩ := Text.exists_trimRight_append (Comment.blankLine false line).1
  have hmem : '(' ∈ (Comment.blankLine false line).1 := by
    rw [← hgap, hcode]
    simp
  rcases Comment.mem_blankLine hmem with h | h
  · exact absurd h (by decide)
  · exact h

/-- A line is cut at its first parenthesis. -/
lemma exists_tail (h : '(' ∈ line) : ∃ tail, line = line.takeWhile (· != '(') ++ '(' :: tail := by
  have hnot := List.head?_dropWhile_not (· != '(') line
  cases hdrop : line.dropWhile (· != '(') with
  | nil =>
    have hall := List.dropWhile_eq_nil_iff.mp hdrop _ h
    exact absurd hall (by simp)
  | cons c tail =>
    rw [hdrop] at hnot
    obtain rfl : c = '(' := by simpa using hnot
    exact ⟨tail, by rw [← hdrop, List.takeWhile_append_dropWhile]⟩

/-- A line without a slash in front of its first parenthesis is blanked from there on. -/
lemma trimRight_blankLine {front tail : Text} (hfront : ∀ c ∈ front, c ≠ '/') :
    Text.trimRight (Comment.blankLine false (front ++ '(' :: tail)).1 =
        front ++ '(' :: Text.trimRight (Comment.blankLine false tail).1 ∧
      (Comment.blankLine false (front ++ '(' :: tail)).2 = (Comment.blankLine false tail).2 := by
  have hplain : ∀ c ∈ front ++ ['('], c ≠ '/' := by
    intro c hc
    rcases List.mem_append.mp hc with hc | hc
    · exact hfront c hc
    · rw [List.mem_singleton.mp hc]
      decide
  rw [List.append_cons front '(' tail, Comment.blankLine_append_of_plain hplain]
  dsimp only
  rw [Text.trimRight_append_of_getLast? (c := '(') (by simp) (by decide)]
  exact ⟨by simp, rfl⟩

/-- **In front of the first parenthesis of a line whose code is a header** stands the front of the
header, or there is a comment. -/
lemma IsWellFormed.eq_front_or_mem (h : header.IsWellFormed)
    (hcode : Text.trimRight (Comment.blankLine false line).1 = header.front ++ '(' :: rest) :
    line.takeWhile (· != '(') = header.front ∨ '/' ∈ line.takeWhile (· != '(') := by
  by_contra hnot
  rw [not_or] at hnot
  obtain ⟨hne, hslash⟩ := hnot
  obtain ⟨tail, htail⟩ := exists_tail (mem_of_code hcode)
  set front := line.takeWhile (· != '(') with hfront
  have hplain : ∀ c ∈ front, c ≠ '/' := by
    rintro c hc rfl
    exact hslash hc
  have hparen : '(' ∉ front := fun hmem => absurd (List.mem_takeWhile_imp hmem) (by simp)
  rw [htail, (trimRight_blankLine hplain).1] at hcode
  refine hne ?_
  rw [← (takeWhile_front hparen _).1, hcode, (takeWhile_front h.not_mem_front _).1]

end Header

namespace Variant

variable {header : Header} {line rest type name : Text} {body more : List Text}

/-- A header with a comment in front of its parenthesis is not renamed. -/
lemma renameHeader_of_ne (hheader : header.IsWellFormed)
    (hcode : Text.trimRight (Comment.blankLine false line).1 = header.front ++ '(' :: rest)
    (hne : line.takeWhile (· != '(') ≠ header.front) : renameHeader line type name = line := by
  have hmem := (hheader.eq_front_or_mem hcode).resolve_left hne
  rw [renameHeader, Header.read?_eq_none_of_mem hmem (by decide) (by decide)]

/-- A header without a comment in front of its parenthesis is renamed. -/
lemma exists_renameHeader (hheader : header.IsWellFormed)
    (hcode : Text.trimRight (Comment.blankLine false line).1 = header.front ++ '(' :: rest)
    (heq : line.takeWhile (· != '(') = header.front) :
    ∃ tail, renameHeader line type name =
        { header with returnType := type, name, rest := '(' :: tail }.text ∧
      rest = Text.trimRight (Comment.blankLine false tail).1 ∧
      (Comment.blankLine false line).2 = (Comment.blankLine false tail).2 := by
  obtain ⟨tail, htail⟩ := Header.exists_tail (Header.mem_of_code hcode)
  rw [heq] at htail
  subst htail
  obtain ⟨hblank, hopen⟩ := @Header.trimRight_blankLine header.front tail hheader.ne_slash
  rw [hblank, List.append_cancel_left_eq, List.cons.injEq] at hcode
  refine ⟨tail, ?_, hcode.2.symm, hopen⟩
  have hread : Header.read? (header.front ++ '(' :: tail) =
      some { header with rest := '(' :: tail } :=
    Header.read?_eq_some_iff.mpr ⟨Header.text_eq _,
      hheader.exchange hheader.returnType hheader.name rfl⟩
  rw [renameHeader, hread]

/-- **The code of a renamed header.** -/
lemma stripFrom_renameHeader (hheader : header.IsWellFormed)
    (hcode : Comment.stripFrom false (line :: body) = (header.front ++ '(' :: rest) :: more)
    (heq : line.takeWhile (· != '(') = header.front) (htype : Text.isIdent type = true)
    (hname : Text.isIdent name = true) :
    Comment.stripFrom false (renameHeader line type name :: body) =
      { header with returnType := type, name, rest := '(' :: rest }.text :: more := by
  obtain ⟨hline, hmore⟩ := List.cons.inj hcode
  obtain ⟨tail, hrename, rfl, hopen⟩ :=
    @exists_renameHeader header line rest type name hheader hline heq
  have hrenamed := hheader.exchange htype hname (rfl : ('(' :: tail).head? = some '(')
  obtain ⟨hblank, hopen'⟩ := @Header.trimRight_blankLine _ tail hrenamed.ne_slash
  rw [hrename, Header.text_eq, Comment.stripFrom]
  dsimp only
  rw [hblank, hopen', ← hopen, hmore, Header.text_eq]
  rfl

/-- The code of a header that is renamed to an array type is no header. -/
lemma exists_stripFrom_renameHeader (hheader : header.IsWellFormed)
    (hcode : Comment.stripFrom false (line :: body) = (header.front ++ '(' :: rest) :: more)
    (heq : line.takeWhile (· != '(') = header.front) {ident size : Text}
    (htype : Text.isIdent ident = true) :
    ∃ code more', Comment.stripFrom false (renameHeader line (ident ++ '[' :: size) name :: body) =
      code :: more' ∧ Header.read? code = none := by
  obtain ⟨tail, hrename, -⟩ := @exists_renameHeader header line rest (ident ++ '[' :: size) name
    hheader (List.cons.inj hcode).1 heq
  have hwords : ∀ c ∈ header.lead ++ ident, isWordChar c = true ∨ isBlank c = true := by
    intro c hc
    rcases List.mem_append.mp hc with hc | hc
    · exact hheader.cases_of_mem_front (List.mem_append_left _ hc)
    · exact .inl (Text.isWordChar_of_isIdent htype c hc)
  have hplain : ∀ c ∈ header.lead ++ ident ++ ['['], c ≠ '/' ∧ (c != '(') = true := by
    intro c hc
    rcases List.mem_append.mp hc with hc | hc
    · constructor
      · rintro rfl
        exact absurd (hwords _ hc) (by decide)
      · rw [bne_iff_ne]
        rintro rfl
        exact absurd (hwords _ hc) (by decide)
    · rw [List.mem_singleton.mp hc]
      decide
  obtain ⟨back, hback⟩ : ∃ back, renameHeader line (ident ++ '[' :: size) name =
      (header.lead ++ ident ++ ['[']) ++ back := ⟨_, by rw [hrename]; simp [Header.text]; rfl⟩
  refine ⟨_, _, rfl, ?_⟩
  rw [hback, Comment.blankLine_append_of_plain fun c hc => (hplain c hc).1]
  dsimp only
  rw [Text.trimRight_append_of_getLast? (List.getLast?_concat) (by decide)]
  refine Header.read?_eq_none_of_mem (c := '[') ?_ (by decide) (by decide)
  rw [List.takeWhile_append_of_pos fun c hc => (hplain c hc).2]
  simp

end Variant

namespace Signature

variable {lines lines' : List Text} {start : Nat} {front group : Text} {place : Position}

/-- The code of the header line, if no block comment is open in front of it. -/
lemma EndsAt.exists_header (h : EndsAt lines start front group place)
    (hopen : Comment.isOpenAfter false (lines.take start) = false) :
    ∃ l body rest more, lines.drop start = l :: body ∧
      Comment.stripFrom false (l :: body) = (front ++ '(' :: rest) :: more ∧
      Loop.codeFrom lines start = (front ++ '(' :: rest) :: more := by
  obtain ⟨rest, more, hcode⟩ := h.code
  have hstrip := Comment.strip_drop hopen
  rw [Loop.codeFrom] at hcode
  cases hdrop : lines.drop start with
  | nil =>
    rw [hcode, hdrop] at hstrip
    exact absurd hstrip (by simp [Comment.stripFrom])
  | cons l body => exact ⟨l, body, rest, more, rfl, by rw [← hdrop, ← hstrip, hcode], hcode⟩

/-- If the list of parameters is closed on the header line, the parenthesis that opens it stands in
front of the one that closes it. -/
lemma EndsAt.mem_of_line (h : EndsAt lines place.line front group place)
    (hopen : Comment.isOpenAfter false (lines.take place.line) = false) {last tail : Text}
    (hlast : lines[place.line]? = some (last ++ tail)) (hlength : last.length = place.column + 1) :
    '(' ∈ last := by
  obtain ⟨header, body, rest, more, hdrop, hstrip, hcode⟩ := h.exists_header hopen
  obtain rfl : header = last ++ tail := by
    have hget := congrArg (·[0]?) hdrop
    simpa [hlast] using hget.symm
  have hline := (List.cons.inj hstrip).1
  obtain ⟨code, hchar, hclose⟩ := h.char
  rw [hcode, Nat.sub_self, List.getElem?_cons_zero, Option.some.injEq] at hchar
  subst hchar
  have hoffset := h.offset
  simp only [Nat.sub_self, FlatText.lineStart, List.take_zero, List.map_nil, List.sum_nil,
    zero_add, List.length_append, List.length_cons] at hoffset
  have hblank := Comment.blankLine_front (Comment.getElem?_of_trimRight (hline ▸ hclose))
    (by decide) (by decide) []
  rw [List.take_left' hlength, List.append_nil] at hblank
  have hfirst : (Comment.blankLine false (last ++ tail)).1[front.length]? = some '(' :=
    Comment.getElem?_of_trimRight (by rw [hline, List.getElem?_append_right le_rfl]; simp)
  have hmem : '(' ∈ (Comment.blankLine false last).1 := by
    rw [hblank]
    refine List.mem_append_left _ (List.mem_of_getElem? (i := front.length) ?_)
    rw [List.getElem?_take_of_lt (by omega), hfirst]
  rcases Comment.mem_blankLine hmem with hspace | hmem
  · exact absurd hspace (by decide)
  · exact hmem

/-- The header lines of texts that agree up to the closing parenthesis have the same text in front
of their first parenthesis. -/
lemma EndsAt.takeWhile_eq (h : EndsAt lines start front group place)
    (hagree : place.Agrees lines lines')
    (hopen : Comment.isOpenAfter false (lines.take start) = false) {l l' : Text}
    (hl : lines[start]? = some l) (hl' : lines'[start]? = some l') :
    l'.takeWhile (· != '(') = l.takeWhile (· != '(') := by
  rcases h.start_le.lt_or_eq with hlt | rfl
  · have hsame := congrArg (·[start]?) hagree.take_eq
    simp only [List.getElem?_take_of_lt hlt, hl, hl'] at hsame
    rw [Option.some.inj hsame]
  · obtain ⟨last, tail, tail', hlast, hlast', hlength⟩ := hagree.line
    obtain rfl := Option.some.inj (hl.symm.trans hlast)
    obtain rfl := Option.some.inj (hl'.symm.trans hlast')
    have hparen := h.mem_of_line hopen hlast hlength
    obtain ⟨back, hback⟩ := Header.exists_tail hparen
    have hnot : '(' ∉ last.takeWhile (· != '(') := fun hmem =>
      absurd (List.mem_takeWhile_imp hmem) (by simp)
    rw [hback, List.append_assoc, List.append_assoc, List.cons_append, List.cons_append,
      (Header.takeWhile_front hnot _).1, (Header.takeWhile_front hnot _).1]

end Signature

/-- A line behind lines that leave no block comment open is read in the code of the later lines. -/
lemma Signature.parse?_append {before ls : List Text}
    (hbefore : Comment.isOpenAfter false before = false) :
    ∃ code, parse? {} (before ++ ls) (before.length : Nat) none =
        ofCode? {} code before.length none ∧
      code.drop before.length = Comment.stripFrom false ls := by
  refine ⟨Comment.strip (before ++ ls), ?_, ?_⟩
  · rw [parse?, if_neg (by omega), Int.toNat_natCast]
  · rw [Comment.strip_drop (by rw [List.take_left, hbefore]), List.drop_left]

/-- No comment stands in front of the first parenthesis of the header of a function. -/
def Signature.HasPlainFront (lines : List Text) (function : Signature) : Prop :=
  (lines.getD function.startLine []).takeWhile (· != '(') =
    ((Comment.strip lines).getD function.startLine []).takeWhile (· != '(')

instance (lines : List Text) (function : Signature) :
    Decidable (function.HasPlainFront lines) :=
  inferInstanceAs (Decidable (_ = _))

/-- The header line has no comment in front of its parenthesis if it starts as its code does.  This
can be seen in every text that agrees up to the closing parenthesis. -/
lemma Signature.EndsAt.hasPlainFront_iff {lines lines' : List Text} {function : Signature}
    {front group l : Text} {place : Position}
    (h : EndsAt lines function.startLine front group place) (hagree : place.Agrees lines lines')
    (hopen : Comment.isOpenAfter false (lines.take function.startLine) = false)
    (hl : lines'[function.startLine]? = some l) :
    function.HasPlainFront lines ↔ l.takeWhile (· != '(') = front := by
  obtain ⟨source, body, rest, more, hsource, -, hcode⟩ := h.exists_header hopen
  have hget : lines[function.startLine]? = some source := by
    rw [← List.head?_drop, hsource, List.head?_cons]
  have hgetCode : (Comment.strip lines)[function.startLine]? = some (front ++ '(' :: rest) := by
    rw [← List.head?_drop]
    exact congrArg List.head? hcode
  have hparen : '(' ∉ front := fun hmem => absurd (h.isWords _ hmem) (by decide)
  rw [HasPlainFront, List.getD_eq_getElem?_getD, List.getD_eq_getElem?_getD, hget, hgetCode,
    h.takeWhile_eq hagree hopen hget hl, Option.getD_some, Option.getD_some,
    (Header.takeWhile_front hparen _).1]

namespace Variant

/-- The type of a shown variable is an identifier or one with an array size. -/
lemma cases_of_knowsType {lines : List Text} {function : Signature} {type : Text}
    (hfunction : function ∈ Outline.functions {} lines) (h : function.KnowsType type) :
    Text.isIdent type = true ∨
      ∃ ident size : Text, Text.isIdent ident = true ∧ type = ident ++ '[' :: size := by
  rcases h with hkeyword | rfl | ⟨p, hp, rfl⟩
  · have hall : ∀ type ∈ GlslType.variableKeywords, Text.isIdent type = true := by decide
    exact .inl (hall type hkeyword)
  · exact .inl (Outline.isPlain_of_mem_functions hfunction).returnType
  · obtain ⟨item, hitem⟩ := Outline.exists_of_mem_parameters hfunction hp
    obtain ⟨ident, suffix, hident, -, hhead, htype⟩ := Signature.exists_of_parameter? hitem
    cases suffix with
    | nil => exact .inl (by rw [htype]; simpa using hident)
    | cons c size =>
      obtain rfl := hhead c rfl
      exact .inr ⟨ident, size.filter (· != ' '), hident, by rw [htype]; rfl⟩

/-- The name of a copy is an identifier and no control keyword. -/
lemma isIdent_copyName {name : Text} (h : Text.isIdent name = true) :
    Text.isIdent (({} : Config).copyStem ++ name) = true ∧
      ({} : Config).copyStem ++ name ∉ Header.controlKeywords := by
  constructor
  · rw [show ({} : Config).copyStem = '_' :: "dbg_".toList from rfl, List.cons_append, Text.isIdent,
      Bool.and_eq_true, List.all_append, Bool.and_eq_true, List.all_eq_true, List.all_eq_true]
    exact ⟨by decide, Text.isWordChar_of_isIdent (by decide : Text.isIdent "dbg_".toList = true),
      Text.isWordChar_of_isIdent h⟩
  · intro hmem
    have hheads : ∀ word ∈ Header.controlKeywords, word.head? ≠ some '_' := by decide
    exact hheads _ hmem rfl

/-- **What is read at the header of a copy.**  The lines of the copy agree with those of the
function up to the end of the header, and no block comment is open in front of the two. -/
theorem parse?_copy {lines kept before body ext : List Text} {function : Signature}
    {header : Header} {group line type : Text} {place : Position}
    (hname : function.name = header.name) (hreturn : function.returnType = header.returnType)
    (hparameters : function.parameters = Signature.parseParameters {} (Text.squeeze group))
    (hheader : header.IsWellFormed) (hisFunction : header.isFunction = true)
    (hends : Signature.EndsAt lines function.startLine header.front group place)
    (hagree : place.Agrees lines kept)
    (hopen : Comment.isOpenAfter false (lines.take function.startLine) = false)
    (hbefore : Comment.isOpenAfter false before = false)
    (hdrop : kept.drop function.startLine = line :: body)
    (htype : Text.isIdent type = true ∨
      ∃ ident size : Text, Text.isIdent ident = true ∧ type = ident ++ '[' :: size) :
    Signature.parse? {} (before ++
        (renameHeader line type (({} : Config).copyStem ++ function.name) :: (body ++ ext)))
        (before.length : Nat) none =
      if function.HasPlainFront lines then
        if Text.isIdent type = true ∧ type ∉ Header.controlKeywords then
          some { function with
            name := ({} : Config).copyStem ++ function.name, returnType := type,
            startLine := before.length, endLine := none }
        else none
      else some { function with startLine := before.length, endLine := none } := by
  -- the code of the copy as it is kept
  have hends' := hends.of_agrees hagree
  have htake : kept.take function.startLine = lines.take function.startLine := by
    have hshort := congrArg (List.take function.startLine) hagree.take_eq
    rw [List.take_take, List.take_take, Nat.min_eq_left hends.start_le] at hshort
    exact hshort.symm
  obtain ⟨l, body', rest, more, hkept, hstrip, hcode⟩ :=
    hends'.exists_header (by rw [htake, hopen])
  obtain ⟨rfl, rfl⟩ := List.cons.inj (hkept.symm.trans hdrop)
  set copy := renameHeader l type (({} : Config).copyStem ++ function.name) with hcopy
  obtain ⟨code, hparse, hcodeDrop⟩ :=
    @Signature.parse?_append before (copy :: (body' ++ ext)) hbefore
  rw [← List.cons_append, Comment.stripFrom_append] at hcodeDrop
  rw [hparse]
  have hread : ∀ header' : Header, header'.IsWellFormed → header'.rest = '(' :: rest →
      Comment.stripFrom false (copy :: body') = header'.text :: more →
      Signature.ofCode? {} code before.length none =
        if header'.isFunction then
          some { name := header'.name, returnType := header'.returnType,
                 parameters := function.parameters, startLine := before.length, endLine := none }
        else none := by
    intro header' hheader' hrest hcopied
    rw [hcopied, List.cons_append] at hcodeDrop
    rw [Signature.ofCode?_eq hcodeDrop hheader', hrest, hends'.listText? hcode, hparameters]
    rfl
  have hget : kept[function.startLine]? = some l := by
    rw [← List.head?_drop, hkept, List.head?_cons]
  have hplain := hends.hasPlainFront_iff hagree hopen hget
  have hcopyName := isIdent_copyName (hname ▸ hheader.name)
  by_cases hfront : l.takeWhile (· != '(') = header.front
  · rw [if_pos (hplain.mpr hfront)]
    by_cases hident : Text.isIdent type = true
    · -- the header is renamed
      refine (hread _ (hheader.exchange hident hcopyName.1 rfl) rfl
        (stripFrom_renameHeader hheader hstrip hfront hident hcopyName.1)).trans ?_
      by_cases hcontrol : type ∈ Header.controlKeywords
      · rw [if_neg fun h => (Header.isFunction_iff.mp h).1 hcontrol, if_neg fun h => h.2 hcontrol]
      · rw [if_pos (Header.isFunction_iff.mpr ⟨hcontrol, hcopyName.2⟩), if_pos ⟨hident, hcontrol⟩]
    · -- an array size is no part of a header
      obtain ⟨ident, size, hpart, rfl⟩ := htype.resolve_left hident
      obtain ⟨line, more', hcopied, hnone⟩ := @exists_stripFrom_renameHeader header l rest
        (({} : Config).copyStem ++ function.name) body' more hheader hstrip hfront ident size hpart
      rw [hcopied, List.cons_append] at hcodeDrop
      rw [if_neg fun h => hident h.1]
      exact Signature.ofCode?_eq_none hcodeDrop hnone
  · -- the header stays as it is
    rw [if_neg (mt hplain.mp hfront)]
    have hsame : copy = l := renameHeader_of_ne hheader (List.cons.inj hstrip).1 hfront
    refine (hread { header with rest := '(' :: rest }
      (hheader.exchange hheader.returnType hheader.name rfl) rfl ?_).trans ?_
    · rw [hsame, hstrip, Header.text_eq]
      rfl
    · rw [hname, hreturn]
      exact if_pos hisFunction

end Variant

namespace Signature

variable {lines : List Text} {start : Nat} {header : Header} {group : Text} {place : Position}

/-- The signature of a header that ends at a place. -/
lemma EndsAt.ofCode?_eq (h : EndsAt lines start header.front group place)
    (hheader : header.IsWellFormed) (hfunction : header.isFunction = true) (endLine : Option Nat) :
    ofCode? {} (Comment.strip lines) start endLine =
      some { name := header.name, returnType := header.returnType,
             parameters := parseParameters {} (Text.squeeze group),
             startLine := start, endLine } := by
  obtain ⟨rest, more, hcode⟩ := h.code
  have hlist := h.listText? hcode []
  rw [List.append_nil] at hlist
  have hrest : { header with rest := '(' :: rest }.text = header.front ++ '(' :: rest :=
    Header.text_eq _
  rw [← hrest] at hcode
  rw [Signature.ofCode?_eq hcode (hheader.exchange hheader.returnType hheader.name rfl), hlist]
  exact if_pos hfunction

/-- The header of a function that is complete on the first lines of a source. -/
lemma exists_endsAt_of_take {function : Signature} {n : Nat}
    (hmem : function ∈ Outline.functions {} lines)
    (h : (parse? {} (lines.take n) function.startLine none).isSome = true) :
    ∃ (header : Header) (group : Text) (place : Position), header.IsWellFormed ∧
      header.isFunction = true ∧ EndsAt lines function.startLine header.front group place ∧
      place.line < n ∧ function.name = header.name ∧ function.returnType = header.returnType ∧
      function.parameters = parseParameters {} (Text.squeeze group) := by
  obtain ⟨g, hg⟩ := Option.isSome_iff_exists.mp h
  rw [parse?, if_neg (by omega), Int.toNat_natCast] at hg
  obtain ⟨header, group, place, hheader, hfunction, hends, hline, -⟩ := exists_endsAt hg
  have hlt : place.line < n := hline.trans_le (List.length_take_le _ _)
  obtain ⟨l, hl, hcolumn⟩ := hends.exists_line
  rw [List.getElem?_take_of_lt hlt] at hl
  have hends' := hends.of_agrees (Position.agrees_take hl hcolumn hlt).symm
  have hcode := Outline.ofCode?_of_mem_functionsFrom hmem
  rw [hends'.ofCode?_eq hheader hfunction, Option.some.injEq] at hcode
  exact ⟨header, group, place, hheader, hfunction, hends', hlt, by rw [← hcode], by rw [← hcode],
    by rw [← hcode]⟩

end Signature

/-- **The lines of a helper with its copy.** -/
lemma Variant.exists_lines_of_helper {settings : Settings} {lines : List Text}
    {function : Signature}
    {line statementEnd : Nat} {shown : Variable} {loops : List Loop} {text : Text}
    (hlines : ∀ l ∈ lines, '\n' ∉ l) (hname : Text.isIdent function.name = true)
    (hshown : shown.IsPlain) (hcapture : IsCapturable lines line shown)
    (h : helper {} settings lines function line shown loops (some statementEnd) = .ok text) :
    ∃ (working own copy : List Text) (closers : Nat),
      captureReturn {} lines line shown = .ok working ∧
      debugCopy {} settings working function statementEnd shown loops
        (({} : Config).copyStem ++ function.name) = .ok copy ∧
      functionLines lines function = .ok own ∧
      Text.lines text = linesBefore {} lines function ++ (own ++ ([] :: (copy ++ ([] ::
        ((callingEntryPoint {} settings (({} : Config).copyStem ++ function.name)
          function.parameters shown.type).flatMap Text.lines ++
            List.replicate closers ['}']))))) := by
  obtain ⟨working, copy, n, n', hworking, hcopy, hown, rfl⟩ := exists_of_helper h
  have hcopyLines : copy.flatMap Text.lines = copy := Text.flatMap_lines
    (not_mem_of_debugCopy Config.isPlain_default
      (not_mem_of_captureReturn hlines hshown hcapture hworking) hshown
      (Text.not_mem_of_isIdent (isIdent_copyName hname).1) hcopy)
  refine ⟨working, _, copy, n', hworking, hcopy, hown, ?_⟩
  rw [Text.lines_ofLines (by simp)]
  simp only [List.flatMap_append, List.flatMap_cons, hcopyLines, flatMap_lines_replicate,
    flatMap_lines_linesBefore hlines, Text.flatMap_lines fun l hl =>
      hlines l (List.mem_of_mem_take (List.mem_of_mem_drop hl))]
  rfl

namespace Probe

/-- The lines that a copy is made from agree with the source up to the end of the header. -/
lemma agrees_of_copy {settings : Variant.Settings} {lines working kept : List Text}
    {function : Signature} {target : Nat} {v : Variable} {s : Statement} {loops : List Loop}
    {front group value : Text} {place : Position}
    (hfunction : Outline.enclosing? {} lines target = some function)
    (hfind : Statement.find ({} : Config).maxStatementLines (Comment.strip lines) target =
      .ok (some s))
    (hcapture : Variant.IsCapturable lines target v)
    (hloops : loopsAround {} lines function target = .ok loops)
    (hends : Signature.EndsAt lines function.startLine front group place)
    (hline : place.line < s.startLine)
    (hworking : Variant.captureReturn {} lines target v = .ok working)
    (htruncated : Variant.truncated {} settings working function s.endLine v loops =
      .ok (kept, value)) : place.Agrees lines kept := by
  obtain ⟨working', hworking', hlength⟩ := Variant.exists_captureReturn hcapture
  obtain rfl := Except.ok.inj (hworking.symm.trans hworking')
  have htake := Variant.take_of_captureReturn hcapture hfind hworking
  obtain ⟨l, hl, hcolumn⟩ := hends.exists_line
  have hl' : working[place.line]? = some l := by
    rw [← List.getElem?_take_of_lt hline, htake, List.getElem?_take_of_lt hline, hl]
  have hagree : place.Agrees lines working := by
    refine (Position.agrees_take hl hcolumn hline).trans ?_
    rw [← htake]
    exact (Position.agrees_take hl' hcolumn hline).symm
  have hcut := isCut_of_find hfunction hfind hloops
  have hcut' : Variant.IsCut working function s.endLine loops :=
    ⟨hcut.start, hlength ▸ hcut.bound, hlength ▸ hcut.liesIn, hcut.headerLine⟩
  obtain ⟨-, -, -, hfirst, hlast, -, -⟩ := Statement.bounds_of_find hfind
  refine hagree.trans (Variant.agrees_of_truncated (hends.of_agrees hagree) hcut' ?_ ?_ htruncated)
  · exact fun loop hloop => hends.isBehind_of_mem_find (mem_find_of_loopsAround hloops loop hloop)
  · exact hline.trans_le (hfirst.trans hlast)

/-- **The copy of a helper is read as a function with the name of the copy, the type of the value
and the parameters of the helper, unless a comment stands in front of the parenthesis of the header
or the type is no single word.** -/
theorem signature_of_copy {settings : Variant.Settings} {source answer : Text} {line : Int}
    {shown : Option Text} {function : Signature} {target last : Nat} {v : Variable} {s : Statement}
    (hplan : plan {} (Text.lines source) line shown = .ok (.value function target v last))
    (hhelper : function.isEntryPoint {} = false)
    (hanswer : instrument {} settings source line shown = .ok (some answer))
    (hfind : Statement.find ({} : Config).maxStatementLines (Comment.strip (Text.lines source))
      target = .ok (some s))
    (hcomplete : (Signature.parse? {} ((Text.lines source).take s.startLine) function.startLine
      none).isSome = true)
    (hopen : Comment.isOpenAfter false ((Text.lines source).take function.startLine) = false) :
    ∃ (own copy : List Text) (closers : Nat),
      Variant.functionLines (Text.lines source) function = .ok own ∧
      Text.lines answer = Variant.linesBefore {} (Text.lines source) function ++ (own ++ ([] ::
        (copy ++ ([] :: ((Variant.callingEntryPoint {} settings
          (({} : Config).copyStem ++ function.name) function.parameters v.type).flatMap
            Text.lines ++ List.replicate closers ['}']))))) ∧
      (Comment.isOpenAfter false
          (Variant.linesBefore {} (Text.lines source) function ++ own) = false →
        Signature.parse? {} (Text.lines answer) ((Variant.linesBefore {} (Text.lines source)
            function).length + own.length + 1 : Nat) none =
          if function.HasPlainFront (Text.lines source) then
            if Text.isIdent v.type = true ∧ v.type ∉ Header.controlKeywords then
              some
                { name := ({} : Config).copyStem ++ function.name
                  returnType := v.type
                  parameters := function.parameters
                  startLine := (Variant.linesBefore {} (Text.lines source) function).length +
                    own.length + 1
                  endLine := none }
            else none
          else
            some
              { function with
                startLine := (Variant.linesBefore {} (Text.lines source) function).length +
                  own.length + 1
                endLine := none }) := by
  have hrun := hanswer
  rw [instrument_eq_run, hplan] at hrun
  rcases exists_plan (Text.lines source) line shown with
    hnothing | ⟨target', function', p, -, hfunction, -, hplan', hfor⟩
  · exact absurd (hplan.symm.trans hnothing) (by simp)
  obtain rfl := Except.ok.inj (hplan.symm.trans hplan')
  cases hfor with
  | @value _ s' hfind' hshown hknown hcapture =>
  obtain rfl := Option.some.inj (Except.ok.inj (hfind.symm.trans hfind'))
  have hmem := Outline.mem_of_enclosingIn? hfunction
  have hlines : ∀ l ∈ Text.lines source, '\n' ∉ l := fun l hl => Text.not_mem_lines hl
  -- the copy is made from lines that agree with the source
  obtain ⟨loops, hloops, hshow⟩ := bind_eq_ok_iff.mp (map_some_eq_ok_iff.mp hrun)
  rw [if_neg (Bool.eq_false_iff.mp hhelper)] at hshow
  obtain ⟨working, own, copy, closers, hworking, hcopy, hown, hanswerLines⟩ :=
    Variant.exists_lines_of_helper hlines (Outline.isPlain_of_mem_functions hmem).name hshown
      hcapture hshow
  refine ⟨own, copy, closers, hown, hanswerLines, fun hclosed => ?_⟩
  obtain ⟨kept, value, header', body, m, hkept, hdrop, -, hcopied⟩ :=
    Variant.exists_of_debugCopy hcopy
  obtain ⟨header, group, place, hheader, hisFunction, hends, hline, hname, hreturn, hparameters⟩ :=
    Signature.exists_endsAt_of_take hmem hcomplete
  have hagree := agrees_of_copy hfunction hfind hcapture hloops hends hline hworking hkept
  -- the copy is read behind the helper and an empty line
  obtain ⟨before, hbefore⟩ : ∃ before,
      before = Variant.linesBefore {} (Text.lines source) function ++ (own ++ [[]]) := ⟨_, rfl⟩
  have hlength : (Variant.linesBefore {} (Text.lines source) function).length + own.length + 1 =
      before.length := by
    rw [hbefore, List.length_append, List.length_append, List.length_singleton, Nat.add_assoc]
  have hopenBefore : Comment.isOpenAfter false before = false := by
    rw [hbefore, ← List.append_assoc, Comment.isOpenAfter_append, hclosed]
    rfl
  obtain ⟨ext, hext⟩ : ∃ ext, Text.lines answer = before ++ (Variant.renameHeader header' v.type
      (({} : Config).copyStem ++ function.name) :: (body ++ ext)) := by
    have hregroup : ∀ a b c : List Text, a ++ (b ++ ([] :: c)) = (a ++ (b ++ [[]])) ++ c := by simp
    rw [hregroup, ← hbefore, hcopied, List.cons_append, List.cons_append,
      List.append_assoc body] at hanswerLines
    exact ⟨_, hanswerLines⟩
  rw [hlength, hext]
  exact Variant.parse?_copy hname hreturn hparameters hheader hisFunction hends hagree hopen
    hopenBefore hdrop (Variant.cases_of_knowsType hmem hknown)

/-- A helper with a header of two lines and a loop. -/
def loopedHelper : Text :=
  Text.ofLines
    ["highp float f(in vec2 p, // a point", "    float r) \x7b", "  float a = 0.0;",
      "  for (int i = 0; i < 4; i++) \x7b", "    a += r;", "  \x7d", "  return a;", "\x7d"]

/-- The helper, as it is read from its header. -/
def loopedHelperSignature : Signature :=
  { name := "f"
    returnType := "float"
    parameters := [.ofType {} "p" "vec2" .input, .ofType {} "r" "float" .input]
    startLine := 0
    endLine := some 7 }

/-- The copy of the helper, with the loop capped, starts on line 9 of the answer. -/
theorem signature_of_copy_capped :
    ∃ answer, instrument {} { caps := [(0, 2)] } loopedHelper 4 none = .ok (some answer) ∧
      Signature.parse? {} (Text.lines answer) 9 none =
        some { loopedHelperSignature with name := "_dbg_f", startLine := 9, endLine := none } := by
  have hplan : plan {} (Text.lines loopedHelper) 4 none =
      .ok (.value loopedHelperSignature 4 ⟨"a", "float"⟩ 4) :=
    eq_ok_of_toOption (by decide +kernel)
  have hfind : Statement.find ({} : Config).maxStatementLines
      (Comment.strip (Text.lines loopedHelper)) 4 = .ok (some ⟨"a += r;", 4, 4, 10⟩) := rfl
  have hsome : (instrument {} { caps := [(0, 2)] } loopedHelper 4 none).toOption.join.isSome =
      true := by decide +kernel
  obtain ⟨answer, hanswer⟩ := Option.isSome_iff_exists.mp hsome
  have hok := eq_ok_of_toOption (Option.join_eq_some_iff.mp hanswer)
  have hlines : Variant.functionLines (Text.lines loopedHelper) loopedHelperSignature =
      .ok (Text.lines loopedHelper) := eq_ok_of_toOption (by decide +kernel)
  obtain ⟨own, copy, closers, hown, -, hparse⟩ := signature_of_copy hplan rfl hok hfind
    (by decide +kernel) (by decide +kernel)
  obtain rfl := Except.ok.inj (hlines.symm.trans hown)
  have hstart : (Variant.linesBefore {} (Text.lines loopedHelper) loopedHelperSignature).length +
      (Text.lines loopedHelper).length + 1 = 9 := by decide +kernel
  have hcopy := hparse (by decide +kernel)
  rw [hstart, if_pos (by decide +kernel), if_pos ⟨by decide, by decide⟩] at hcopy
  exact ⟨answer, hok, hcopy⟩

/-- A helper with a comment in front of its header. -/
def commentedHelper : Text :=
  Text.ofLines
    ["/* noise */ float f(float x) \x7b", "  float a = x;", "  return a;", "\x7d"]

/-- The answer for the helper, in which the copy has the name of the helper. -/
def commentedCopy : Text :=
  Text.ofLines
    ["/* noise */ float f(float x) \x7b", "  float a = x;", "  return a;", "\x7d", "",
      "/* noise */ float f(float x) \x7b", "  float a = x;", "  return a;", "\x7d", "",
      "void mainImage(out vec4 fragColor, in vec2 fragCoord) \x7b", "  float result = _dbg_f(0.5);",
      "  fragColor = vec4(vec3(result), 1.0); // Debug: visualize float as grayscale", "\x7d"]

/-- A comment in front of the header keeps the copy from being renamed: there are two functions of
one name, and the function that is called is missing. -/
theorem signature_of_copy_commented :
    instrument {} {} commentedHelper 1 none = .ok (some commentedCopy) ∧
      (Signature.parse? {} (Text.lines commentedCopy) 5 none).map Signature.name = some "f" ∧
      (Outline.functions {} (Text.lines commentedCopy)).map Signature.name =
        ["f", "f", "mainImage"] :=
  ⟨rfl, by decide +kernel, by decide +kernel⟩

end Probe

end ShaderProbe
