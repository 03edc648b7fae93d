import Mathlib
import ShaderProbe.Edit.Cap
import ShaderProbe.Proofs.EditedCode
import ShaderProbe.Proofs.InertText

/-!
# The edits that cap a loop

A capped loop gets its counter right in front of it and a guard right behind the brace that opens
its body, and a brace behind its body for each block that these two open.  `Cap.Declares`,
`Cap.Guards` and `Cap.Closes` say where in the flat code each of these edits is made and what it
puts there, whichever way the loop is written; `Cap.counterEdits_eq` and `Cap.guardEdits_eq` say
that the edits are of this kind.
-/

namespace ShaderProbe

namespace Loop

/-- The code of the lines from the header of a function on. -/
def codeFrom (lines : List Text) (start : Nat) : List Text := (Comment.strip lines).drop start

/-- The flat code from the header of a function on. -/
def flatCode (lines : List Text) (start : Nat) : Text := Text.ofLines (codeFrom lines start)

/-- The loops of a function are those of its flat code. -/
lemma find_eq_mapIdx (lines : List Text) (start : Nat) :
    find lines start = (spans (flatCode lines start)).mapIdx fun index span =>
      ofSpan ⟨codeFrom lines start, start⟩ span index := rfl

end Loop

namespace Comment

/-- No line ends inside a block comment. -/
def AreClosed (lines : List Text) : Prop := ∀ l ∈ lines, (blankLine false l).2 = false

instance (lines : List Text) : Decidable (AreClosed lines) :=
  inferInstanceAs (Decidable (∀ l ∈ lines, (blankLine false l).2 = false))

/-- Then each line can be stripped on its own. -/
lemma AreClosed.strip_eq {lines : List Text} (h : AreClosed lines) :
    strip lines = lines.map fun l => Text.trimRight (blankLine false l).1 := by
  have hfrom : stripFrom false lines = lines.map fun l => Text.trimRight (blankLine false l).1 := by
    induction lines with
    | nil => rfl
    | cons l ls ih =>
      have hl : (blankLine false l).2 = false := h l List.mem_cons_self
      rw [stripFrom, List.map_cons]
      dsimp only
      rw [hl, ih fun x hx => h x (List.mem_cons_of_mem l hx)]
  exact hfrom

/-- No block comment is open between the lines. -/
lemma AreClosed.isOpenAfter_take {lines : List Text} (h : AreClosed lines) (n : Nat) :
    isOpenAfter false (lines.take n) = false := by
  induction lines generalizing n with
  | nil => rw [List.take_nil]; rfl
  | cons l ls ih =>
    cases n with
    | zero => rfl
    | succ n =>
      have hl : (blankLine false l).2 = false := h l List.mem_cons_self
      rw [List.take_succ_cons, isOpenAfter, hl]
      exact ih (fun x hx => h x (List.mem_cons_of_mem l hx)) n

/-- A line of the code and the line of the source. -/
lemma AreClosed.exists_line {lines : List Text} (h : AreClosed lines) {start n : Nat} {l : Text}
    (hl : (Loop.codeFrom lines start)[n]? = some l) :
    ∃ source, lines[start + n]? = some source ∧ l = Text.trimRight (blankLine false source).1 := by
  rw [Loop.codeFrom, List.getElem?_drop, h.strip_eq, List.getElem?_map,
    Option.map_eq_some_iff] at hl
  obtain ⟨source, hsource, rfl⟩ := hl
  exact ⟨source, hsource, rfl⟩

/-- A character of the trimmed code is one of the code. -/
lemma getElem?_of_trimRight {t : Text} {i : Nat} {c : Char}
    (h : (Text.trimRight t)[i]? = some c) : t[i]? = some c := by
  obtain ⟨g, -, ht⟩ := Text.exists_trimRight_append t
  have hlt : i < (Text.trimRight t).length := (List.getElem?_eq_some_iff.mp h).1
  rw [← ht, List.getElem?_append_left hlt, h]

/-- Behind the last character of a trimmed text there is nothing. -/
lemma length_trimRight_of_isBlankOnly_drop {t : Text} {i : Nat} (hi : i < (Text.trimRight t).length)
    (h : Text.isBlankOnly ((Text.trimRight t).drop (i + 1)) = true) :
    (Text.trimRight t).length = i + 1 := by
  by_contra hne
  obtain ⟨x, hx⟩ : ∃ x, (Text.trimRight t).getLast? = some x :=
    ⟨_, List.getLast?_eq_some_getLast (List.ne_nil_of_length_pos (by omega))⟩
  have hmem : x ∈ (Text.trimRight t).drop (i + 1) := by
    refine List.mem_of_getLast? ?_
    rw [List.getLast?_drop, if_neg (by omega), hx]
  have hblank := Text.isBlankOnly_iff.mp h x hmem
  rw [Text.getLast?_trimRight _ x hx] at hblank
  exact absurd hblank (by simp)

end Comment

namespace Edit

/-- The edit is made in the code of lines that close their comments. -/
def Fits (lines : List Text) : Edit → Prop
  | lineBefore _ text => IsPlainLine text
  | lineAfter _ text => IsPlainLine text
  | inline line column text => ∃ l, lines[line]? = some l ∧ (∀ c ∈ text, c ≠ '/' ∧ c ≠ '*') ∧
      Comment.IsCut false l column ∧
      column ≤ (Text.trimRight (Comment.blankLine false l).1).length ∧
      (column = (Text.trimRight (Comment.blankLine false l).1).length →
        ∃ c ∈ text.getLast?, isBlank c = false)

/-- Edits that are made in the code fit every line. -/
lemma fitsLine {lines : List Text} {edits : List Edit} (hclosed : Comment.AreClosed lines)
    (h : ∀ e ∈ edits, e.Fits lines) {n : Nat} {l : Text} (hl : lines[n]? = some l) :
    FitsLine edits n false l := by
  have hinside : ∀ insert ∈ edits.filterMap (inside? n),
      ∃ e ∈ edits, e = inline n insert.1 insert.2 := by
    intro insert hinsert
    obtain ⟨e, he, heq⟩ := List.mem_filterMap.mp hinsert
    refine ⟨e, he, ?_⟩
    cases e with grind [inside?]
  have hfits : ∀ insert ∈ edits.filterMap (inside? n), (∀ c ∈ insert.2, c ≠ '/' ∧ c ≠ '*') ∧
      Comment.IsCut false l insert.1 ∧
      insert.1 ≤ (Text.trimRight (Comment.blankLine false l).1).length ∧
      (insert.1 = (Text.trimRight (Comment.blankLine false l).1).length →
        ∃ c ∈ insert.2.getLast?, isBlank c = false) := by
    intro insert hinsert
    obtain ⟨e, he, rfl⟩ := hinside insert hinsert
    obtain ⟨l', hl', hfits⟩ := h _ he
    obtain rfl : l' = l := Option.some.inj (hl'.symm.trans hl)
    exact hfits
  refine ⟨fun t ht => ⟨rfl, ?_⟩, fun t ht => ⟨hclosed l (List.mem_of_getElem? hl), ?_⟩, ?_, ?_, ?_, ?_⟩
  · obtain ⟨e, he, heq⟩ := List.mem_filterMap.mp ht
    have := h e he
    cases e with grind [before?, Fits]
  · obtain ⟨e, he, heq⟩ := List.mem_filterMap.mp ht
    have := h e he
    cases e with grind [after?, Fits]
  · exact fun insert hinsert => (hfits insert hinsert).1
  · exact fun insert hinsert => (hfits insert hinsert).2.1
  · exact fun insert hinsert => (hfits insert hinsert).2.2.1
  · exact fun insert hinsert => (hfits insert hinsert).2.2.2

/-- **The code of edited lines is the edited code.** -/
theorem strip_apply {lines : List Text} {edits : List Edit} (hclosed : Comment.AreClosed lines)
    (h : ∀ e ∈ edits, e.Fits lines) :
    Comment.strip (apply edits lines) = apply edits (Comment.strip lines) := by
  rw [apply_eq_applyFrom, apply_eq_applyFrom]
  refine stripFrom_applyFrom lines 0 false fun n l hl => ?_
  rw [hclosed.isOpenAfter_take, Nat.zero_add]
  exact fitsLine hclosed h hl

end Edit

namespace Cap

/-! ### Where the edits are made -/

/-- A statement that can be put into code: it holds no comment marks and ends with `;`. -/
structure IsStatement (t : Text) : Prop where
  plain : ∀ c ∈ t, c ≠ '/' ∧ c ≠ '*'
  last : t.getLast? = some ';'

/-- The edit puts a declaration right in front of a loop, on a line of its own or not.  If the loop
is the unbraced body of another statement, the declaration opens a block. -/
structure Declares (lines : List Text) (start : Nat) (span : LoopSpan) (declaration : Text)
    (e : Edit) : Prop where
  placed : e.IsPlaced (Loop.codeFrom lines start) start
  fits : e.Fits lines
  le : (e.flat (Loop.codeFrom lines start) start).1 ≤ span.keyword
  blanks : ∀ i, (e.flat (Loop.codeFrom lines start) start).1 ≤ i → i < span.keyword →
    ∀ c ∈ (Loop.flatCode lines start)[i]?, isBlank c = true
  rank : e.rank = 0 ∧ (∀ i, i + 1 = (e.flat (Loop.codeFrom lines start) start).1 →
      ∀ c ∈ (Loop.flatCode lines start)[i]?, isBlank c = true) ∨
    e.rank = 1 ∧ (e.flat (Loop.codeFrom lines start) start).1 = span.keyword
  text : ∃ front back, (e.flat (Loop.codeFrom lines start) start).2 =
      front ++ (declaration ++ back) ∧ Text.isBlankOnly back = true ∧
    if span.bareBody then front = "\x7b " else Text.isBlankOnly front = true

/-- The edit puts a guard right behind the brace that opens the body of a loop.  If there is no such
brace, the guard opens a block. -/
structure Guards (lines : List Text) (start : Nat) (span : LoopSpan) (guard : Text) (e : Edit) :
    Prop where
  placed : e.IsPlaced (Loop.codeFrom lines start) start
  fits : e.Fits lines
  offset : (e.flat (Loop.codeFrom lines start) start).1 = span.brace.getD span.parenClose + 1
  rank : e.rank = 1 ∨ e.rank = 2 ∧
    ∀ c ∈ (Loop.flatCode lines start)[(e.flat (Loop.codeFrom lines start) start).1]?,
      isBlank c = true
  text : ∃ front, (e.flat (Loop.codeFrom lines start) start).2 = front ++ guard ∧
    if span.brace = none then front = " \x7b " else Text.isBlankOnly front = true

/-- The edit closes a block right behind the body of a loop. -/
structure Closes (lines : List Text) (start : Nat) (last : Nat) (e : Edit) : Prop where
  placed : e.IsPlaced (Loop.codeFrom lines start) start
  fits : e.Fits lines
  flat : e.flat (Loop.codeFrom lines start) start = (last + 1, " \x7d".toList)
  rank : e.rank = 1

variable {lines : List Text} {start : Nat} {span : LoopSpan}

/-- A place right behind a character of the code. -/
lemma exists_behind (hclosed : Comment.AreClosed lines) {n column : Nat} {l : Text} {c : Char}
    (hl : (Loop.codeFrom lines start)[n]? = some l) (hcolumn : l[column]? = some c)
    (hc : isBlank c = false) {text : Text} (hplain : ∀ c ∈ text, c ≠ '/' ∧ c ≠ '*')
    (hlast : ∃ c ∈ text.getLast?, isBlank c = false) :
    (Edit.inline (start + n) (column + 1) text).IsPlaced (Loop.codeFrom lines start) start ∧
      (Edit.inline (start + n) (column + 1) text).Fits lines ∧
      (Edit.inline (start + n) (column + 1) text).flat (Loop.codeFrom lines start) start =
        (FlatText.lineStart (Loop.codeFrom lines start) n + column + 1, text) := by
  obtain ⟨source, hsource, rfl⟩ := hclosed.exists_line hl
  have hlt : column < (Text.trimRight (Comment.blankLine false source).1).length :=
    (List.getElem?_eq_some_iff.mp hcolumn).1
  have hcut : Comment.IsCut false source (column + 1) := by
    refine ⟨c, ?_, .inr ⟨column, rfl, Comment.getElem?_of_trimRight hcolumn⟩⟩
    rintro rfl
    exact absurd hc (by decide)
  refine ⟨⟨n, _, rfl, hl, ?_⟩, ⟨source, hsource, hplain, hcut, hlt, fun _ => hlast⟩, ?_⟩
  · rintro line column' text' heq
    obtain ⟨-, rfl, -⟩ := Edit.inline.inj heq
    exact hlt
  · simp [Edit.flat, Nat.add_assoc]

/-- The edit that closes a block behind a loop. -/
lemma exists_closes (hclosed : Comment.AreClosed lines)
    (hspan : span ∈ Loop.spans (Loop.flatCode lines start)) {last : Nat}
    (hlast : span.bodyEnd = some last) (index : Nat) :
    ∃ e, closeBody (Loop.ofSpan ⟨Loop.codeFrom lines start, start⟩ span index) = [e] ∧
      Closes lines start last e := by
  obtain ⟨htrue, -⟩ := Loop.isTrue_of_mem_spans hspan
  obtain ⟨c, hc, hblank⟩ := htrue.mark (LoopSpan.mem_marks_iff.mpr (.inr (.inr (.inr hlast))))
  obtain ⟨n, l, column, hl, hcolumn, rfl, hlocate⟩ :=
    FlatText.exists_locate_of_ink hc hblank start
  obtain ⟨hplaced, hfits, hflat⟩ := exists_behind hclosed hl hcolumn hblank
    (by simp : ∀ c ∈ " \x7d".toList, c ≠ '/' ∧ c ≠ '*') ⟨'}', rfl, by decide⟩
  refine ⟨.inline (start + n) (column + 1) " \x7d".toList, ?_, hplaced, hfits, hflat, rfl⟩
  have hend : (Loop.ofSpan ⟨Loop.codeFrom lines start, start⟩ span index).bodyEnd =
      some ⟨start + n, column⟩ := by
    change span.bodyEnd.map _ = _
    rw [hlast, Option.map_some]
    exact congrArg some hlocate
  rw [closeBody, hend]
  rfl

/-- A place right in front of a character of the code. -/
lemma exists_inFront (hclosed : Comment.AreClosed lines) {n column : Nat} {l : Text} {c : Char}
    (hl : (Loop.codeFrom lines start)[n]? = some l) (hcolumn : l[column]? = some c)
    (hc : isBlank c = false) {text : Text} (hplain : ∀ c ∈ text, c ≠ '/' ∧ c ≠ '*') :
    (Edit.inline (start + n) column text).IsPlaced (Loop.codeFrom lines start) start ∧
      (Edit.inline (start + n) column text).Fits lines ∧
      (Edit.inline (start + n) column text).flat (Loop.codeFrom lines start) start =
        (FlatText.lineStart (Loop.codeFrom lines start) n + column, text) := by
  obtain ⟨source, hsource, rfl⟩ := hclosed.exists_line hl
  have hlt : column < (Text.trimRight (Comment.blankLine false source).1).length :=
    (List.getElem?_eq_some_iff.mp hcolumn).1
  have hcut : Comment.IsCut false source column := by
    refine ⟨c, ?_, .inl (Comment.getElem?_of_trimRight hcolumn)⟩
    rintro rfl
    exact absurd hc (by decide)
  refine ⟨⟨n, _, rfl, hl, ?_⟩, ⟨source, hsource, hplain, hcut, hlt.le, fun heq => ?_⟩, ?_⟩
  · rintro line column' text' heq
    obtain ⟨-, rfl, -⟩ := Edit.inline.inj heq
    exact hlt.le
  · omega
  · simp [Edit.flat]

/-- A statement with blanks around it holds no comment marks. -/
lemma IsStatement.plain_around {t front back : Text} (h : IsStatement t)
    (hfront : ∀ c ∈ front, c ≠ '/' ∧ c ≠ '*') (hback : ∀ c ∈ back, c ≠ '/' ∧ c ≠ '*') :
    ∀ c ∈ front ++ (t ++ back), c ≠ '/' ∧ c ≠ '*' := by
  intro c hc
  rcases List.mem_append.mp hc with hc | hc
  · exact hfront c hc
  · rcases List.mem_append.mp hc with hc | hc
    · exact h.plain c hc
    · exact hback c hc

/-- Blanks are no comment marks. -/
lemma plain_of_isBlankOnly {g : Text} (h : Text.isBlankOnly g = true) :
    ∀ c ∈ g, c ≠ '/' ∧ c ≠ '*' := fun c hc =>
  ⟨ne_of_isBlank (Text.isBlankOnly_iff.mp h c hc) (by decide),
    ne_of_isBlank (Text.isBlankOnly_iff.mp h c hc) (by decide)⟩

/-- An indented statement is a line of its own. -/
lemma IsStatement.isPlainLine {t indent : Text} (h : IsStatement t)
    (hindent : Text.isBlankOnly indent = true) : Edit.IsPlainLine (indent ++ t) := by
  constructor
  · have hall : ∀ c ∈ indent ++ (t ++ []), c ≠ '/' ∧ c ≠ '*' :=
      h.plain_around (plain_of_isBlankOnly hindent) fun c hc => absurd hc List.not_mem_nil
    rwa [List.append_nil] at hall
  · intro c hc
    rw [List.getLast?_append, h.last] at hc
    obtain rfl : ';' = c := by simpa using hc
    decide

/-- The keyword of a loop on its line. -/
lemma exists_keyword (hclosed : Comment.AreClosed lines)
    (hspan : span ∈ Loop.spans (Loop.flatCode lines start)) :
    ∃ n l column c source, (Loop.codeFrom lines start)[n]? = some l ∧ l[column]? = some c ∧
      isBlank c = false ∧
      span.keyword = FlatText.lineStart (Loop.codeFrom lines start) n + column ∧
      FlatText.locate ⟨Loop.codeFrom lines start, start⟩ span.keyword = ⟨start + n, column⟩ ∧
      lineAt lines (start + n) = .ok source ∧ lineAt (Comment.strip lines) (start + n) = .ok l := by
  obtain ⟨htrue, -⟩ := Loop.isTrue_of_mem_spans hspan
  obtain ⟨c, hc, hblank⟩ := htrue.mark (LoopSpan.mem_marks_iff.mpr (.inl rfl))
  obtain ⟨n, l, column, hl, hcolumn, hkeyword, hlocate⟩ :=
    FlatText.exists_locate_of_ink hc hblank start
  obtain ⟨source, hsource, -⟩ := hclosed.exists_line hl
  refine ⟨n, l, column, c, source, hl, hcolumn, hblank, hkeyword, hlocate,
    lineAt_eq_ok_iff.mpr hsource, lineAt_eq_ok_iff.mpr ?_⟩
  rwa [Loop.codeFrom, List.getElem?_drop] at hl

section Declaration

variable {n column : Nat} {l : Text} {c : Char} {declaration : Text}

/-- A declaration right in front of a loop, on its line. -/
lemma declares_inline (hclosed : Comment.AreClosed lines) (hstatement : IsStatement declaration)
    (hl : (Loop.codeFrom lines start)[n]? = some l) (hcolumn : l[column]? = some c)
    (hblank : isBlank c = false)
    (hkeyword : span.keyword = FlatText.lineStart (Loop.codeFrom lines start) n + column)
    {front : Text} (hplain : ∀ c ∈ front, c ≠ '/' ∧ c ≠ '*')
    (hfront : if span.bareBody then front = "\x7b " else Text.isBlankOnly front = true) :
    Declares lines start span declaration
      (.inline (start + n) column (front ++ (declaration ++ [' ']))) := by
  obtain ⟨hplaced, hfits, hflat⟩ := exists_inFront hclosed hl hcolumn hblank
    (hstatement.plain_around hplain (by simp : ∀ c ∈ [' '], c ≠ '/' ∧ c ≠ '*'))
  rw [← hkeyword] at hflat
  refine ⟨hplaced, hfits, by rw [hflat], fun i hlow hhigh => ?_, .inr ⟨rfl, by rw [hflat]⟩,
    front, [' '], by rw [hflat], rfl, hfront⟩
  rw [hflat] at hlow
  omega

/-- A declaration on a line of its own in front of a loop that is the first code of its line. -/
lemma declares_lineBefore (hstatement : IsStatement declaration)
    (hl : (Loop.codeFrom lines start)[n]? = some l) (hcolumn : column < l.length)
    (hkeyword : span.keyword = FlatText.lineStart (Loop.codeFrom lines start) n + column)
    (hbare : span.bareBody = false) (hfirst : Text.isBlankOnly (l.take column) = true)
    {indent : Text} (hindent : Text.isBlankOnly indent = true) :
    Declares lines start span declaration (.lineBefore (start + n) (indent ++ declaration)) := by
  have hflat : (Edit.lineBefore (start + n) (indent ++ declaration)).flat
      (Loop.codeFrom lines start) start = (FlatText.lineStart (Loop.codeFrom lines start) n,
        indent ++ declaration ++ ['\n']) := by
    simp [Edit.flat]
  constructor
  · exact ⟨n, l, rfl, hl, fun _ _ _ heq => absurd heq (by simp)⟩
  · exact hstatement.isPlainLine hindent
  · rw [hflat, hkeyword]
    exact Nat.le_add_right _ _
  · rw [hflat, hkeyword]
    intro i hlow hhigh x hx
    obtain ⟨j, rfl⟩ := Nat.exists_eq_add_of_le hlow
    have hj : j < column := by
      dsimp only at hhigh
      omega
    rw [Loop.flatCode, FlatText.getElem?_ofLines hl (by omega), Option.mem_def] at hx
    refine Text.isBlankOnly_iff.mp hfirst x (List.mem_of_getElem? (i := j) ?_)
    rw [List.getElem?_take_of_lt hj, hx]
  · rw [hflat]
    exact .inl ⟨rfl, fun i hi => FlatText.isBlank_lineStart hl hi⟩
  · rw [hflat, hbare]
    exact ⟨indent, ['\n'], by simp, by decide, hindent⟩

end Declaration

/-- **The counter of a loop is declared right in front of it.** -/
theorem counterEdits_eq (hclosed : Comment.AreClosed lines)
    (hspan : span ∈ Loop.spans (Loop.flatCode lines start)) (config : Config) (index : Nat)
    (hstatement : IsStatement
      (declaration config (Loop.ofSpan ⟨Loop.codeFrom lines start, start⟩ span index))) :
    ∃ e, counterEdits config lines (Comment.strip lines)
        (Loop.ofSpan ⟨Loop.codeFrom lines start, start⟩ span index) =
      .ok (e :: if span.bareBody then
        closeBody (Loop.ofSpan ⟨Loop.codeFrom lines start, start⟩ span index) else []) ∧
      Declares lines start span
        (declaration config (Loop.ofSpan ⟨Loop.codeFrom lines start, start⟩ span index)) e := by
  obtain ⟨n, l, column, c, source, hl, hcolumn, hblank, hkeyword, hlocate, hsource, hcode⟩ :=
    exists_keyword hclosed hspan
  set loop := Loop.ofSpan ⟨Loop.codeFrom lines start, start⟩ span index with hloop
  have hheader : loop.headerLine = start + n := congrArg Position.line hlocate
  have hplace : loop.keyword = some ⟨start + n, column⟩ := congrArg some hlocate
  have hbare : loop.bareBody = span.bareBody := rfl
  rw [counterEdits, hheader, hsource, hplace, hbare]
  simp only [Option.getD_some, hcode, bind, Except.bind, pure, Except.pure]
  cases hcase : span.bareBody with
  | true =>
    refine ⟨_, ?_, declares_inline hclosed hstatement hl hcolumn hblank hkeyword
      (by simp : ∀ c ∈ "\x7b ".toList, c ≠ '/' ∧ c ≠ '*') (by rw [hcase]; rfl)⟩
    simp
  | false =>
    by_cases hfirst : Text.isBlankOnly (l.take column) = true
    · refine ⟨.lineBefore (start + n) (Text.indent source ++ declaration config loop),
        by simp [hfirst], ?_⟩
      exact declares_lineBefore hstatement hl (List.getElem?_eq_some_iff.mp hcolumn).1 hkeyword
        hcase hfirst (Text.isBlankOnly_indent source)
    · refine ⟨_, ?_, declares_inline hclosed hstatement hl hcolumn hblank hkeyword
        (by simp : ∀ c ∈ ([] : Text), c ≠ '/' ∧ c ≠ '*') (by rw [hcase]; rfl)⟩
      simp [hfirst]

section Guard

variable {n column : Nat} {l : Text} {c : Char} {guard : Text}

/-- A guard right behind the brace of a loop or its header, on the same line. -/
lemma guards_inline (hclosed : Comment.AreClosed lines) (hstatement : IsStatement guard)
    (hl : (Loop.codeFrom lines start)[n]? = some l) (hcolumn : l[column]? = some c)
    (hblank : isBlank c = false)
    (hplace : span.brace.getD span.parenClose =
      FlatText.lineStart (Loop.codeFrom lines start) n + column)
    {front : Text} (hplain : ∀ c ∈ front, c ≠ '/' ∧ c ≠ '*')
    (hfront : if span.brace = none then front = " \x7b " else Text.isBlankOnly front = true) :
    Guards lines start span guard (.inline (start + n) (column + 1) (front ++ guard)) := by
  have hall : ∀ c ∈ front ++ (guard ++ []), c ≠ '/' ∧ c ≠ '*' :=
    hstatement.plain_around hplain fun c hc => absurd hc List.not_mem_nil
  rw [List.append_nil] at hall
  have hlast : ∃ c ∈ (front ++ guard).getLast?, isBlank c = false := by
    refine ⟨';', ?_, by decide⟩
    rw [List.getLast?_append, hstatement.last]
    rfl
  obtain ⟨hplaced, hfits, hflat⟩ := exists_behind hclosed hl hcolumn hblank hall hlast
  rw [← hplace] at hflat
  exact ⟨hplaced, hfits, by rw [hflat], .inl rfl, front, by rw [hflat], hfront⟩

/-- A guard on a line of its own behind a brace that is the last code of its line. -/
lemma guards_lineAfter (hclosed : Comment.AreClosed lines) (hstatement : IsStatement guard)
    (hl : (Loop.codeFrom lines start)[n]? = some l) (hcolumn : column < l.length)
    (hplace : span.brace = some (FlatText.lineStart (Loop.codeFrom lines start) n + column))
    (hlast : Text.isBlankOnly (l.drop (column + 1)) = true) {indent : Text}
    (hindent : Text.isBlankOnly indent = true) :
    Guards lines start span guard (.lineAfter (start + n) (indent ++ guard)) := by
  have hlength : l.length = column + 1 := by
    obtain ⟨source, -, rfl⟩ := hclosed.exists_line hl
    exact Comment.length_trimRight_of_isBlankOnly_drop hcolumn hlast
  have hflat : (Edit.lineAfter (start + n) (indent ++ guard)).flat (Loop.codeFrom lines start) start =
      (FlatText.lineStart (Loop.codeFrom lines start) n + column + 1,
        '\n' :: (indent ++ guard)) := by
    simp [Edit.flat, hl, hlength, Nat.add_assoc]
  constructor
  · exact ⟨n, l, rfl, hl, fun _ _ _ heq => absurd heq (by simp)⟩
  · exact hstatement.isPlainLine hindent
  · rw [hflat, hplace]
    rfl
  · have hend := FlatText.isBlank_lineEnd hl
    rw [hlength, ← Nat.add_assoc] at hend
    rw [hflat]
    exact .inr ⟨rfl, hend⟩
  · refine ⟨'\n' :: indent, by rw [hflat]; rfl, ?_⟩
    rw [hplace, if_neg (by simp), Text.isBlankOnly, List.all_cons]
    exact Bool.and_eq_true_iff.mpr ⟨by decide, hindent⟩

end Guard

/-- **The guard of a loop is put right behind the brace that opens its body.** -/
theorem guardEdits_eq (hclosed : Comment.AreClosed lines)
    (hspan : span ∈ Loop.spans (Loop.flatCode lines start)) {config : Config}
    (hindent : Text.isBlankOnly config.indent = true) (index : Nat) (cap : Int)
    (hstatement : IsStatement
      (guard config (Loop.ofSpan ⟨Loop.codeFrom lines start, start⟩ span index) cap)) :
    ∃ e, guardEdits config lines (Comment.strip lines)
        (Loop.ofSpan ⟨Loop.codeFrom lines start, start⟩ span index) cap =
      .ok (e :: if span.brace = none then
        closeBody (Loop.ofSpan ⟨Loop.codeFrom lines start, start⟩ span index) else []) ∧
      Guards lines start span
        (guard config (Loop.ofSpan ⟨Loop.codeFrom lines start, start⟩ span index) cap) e := by
  obtain ⟨n, l, column, c, source, hl, hcolumn, hblank, hkeyword, hlocate, hsource, hcode⟩ :=
    exists_keyword hclosed hspan
  obtain ⟨htrue, -⟩ := Loop.isTrue_of_mem_spans hspan
  set loop := Loop.ofSpan ⟨Loop.codeFrom lines start, start⟩ span index with hloop
  have hheader : loop.headerLine = start + n := congrArg Position.line hlocate
  cases hbrace : span.brace with
  | none =>
    -- without a brace the guard opens a block behind the header
    have hloopBrace : loop.brace = none := congrArg (Option.map _) hbrace
    obtain ⟨k, l', col, hl', hcol, hp, hat⟩ :=
      FlatText.exists_locate_of_ink htrue.parenClose (by decide) start
    have hclose : loop.parenClose = some ⟨start + k, col⟩ := congrArg some hat
    refine ⟨.inline (start + k) (col + 1) (" \x7b ".toList ++ guard config loop cap), ?_,
      guards_inline hclosed hstatement hl' hcol (by decide) (by rw [hbrace]; exact hp) (by simp)
        (by rw [hbrace]; rfl)⟩
    rw [guardEdits, hloopBrace, hclose]
    rfl
  | some b =>
    obtain ⟨m, l', col, hl', hcol, rfl, hat⟩ := FlatText.exists_locate_of_ink
      (htrue.brace b hbrace).getElem? (by decide) start
    have hloopBrace : loop.brace = some ⟨start + m, col⟩ := by
      change span.brace.map _ = _
      rw [hbrace, Option.map_some]
      exact congrArg some hat
    have hcode' : lineAt (Comment.strip lines) (start + m) = .ok l' := by
      rw [lineAt_eq_ok_iff, ← List.getElem?_drop]
      exact hl'
    by_cases hrest : Text.isBlankOnly (l'.drop (col + 1)) = true
    · have hline : Text.isBlankOnly (Text.indent source ++ config.indent) = true := by
        simpa [Text.isBlankOnly] using
          ⟨by simpa [Text.isBlankOnly] using Text.isBlankOnly_indent source,
          by simpa [Text.isBlankOnly] using hindent⟩
      refine ⟨.lineAfter (start + m) (Text.indent source ++ config.indent ++ guard config loop cap), ?_,
        guards_lineAfter hclosed hstatement hl' (List.getElem?_eq_some_iff.mp hcol).1 hbrace hrest
          hline⟩
      rw [guardEdits, hloopBrace]
      simp [hcode', hrest, hheader, hsource, bind, Except.bind, pure, Except.pure]
    · refine ⟨.inline (start + m) (col + 1) ([' '] ++ guard config loop cap), ?_,
        guards_inline hclosed hstatement hl' hcol (by decide) (by rw [hbrace]; rfl) (by simp)
          (by rw [hbrace]; rfl)⟩
      rw [guardEdits, hloopBrace]
      simp [hcode', hrest, bind, Except.bind, pure, Except.pure]

end Cap

end ShaderProbe
