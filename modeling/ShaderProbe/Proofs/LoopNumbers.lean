import Mathlib
import ShaderProbe.Proofs.Outcome
import ShaderProbe.Proofs.ShadowLoops

/-!
# Loops keep their numbers

A value is carried out of loops in a text that has been cut behind the loops around the target.
`Shadow.exists_declared` says that these loops have the same numbers and headers there as in the
source, and that each stands where it stood, moved by the declaration of the shadow.

The declaration is an edit of the lines and an edit of their code at the same place
(`Shadow.PutsInFront`).  The code of the two texts is the same up to the `;` of the target, so the
pass over one finds the loops in front of the `;` that the pass over the other finds.
-/

namespace ShaderProbe

namespace Shadow

/-! ### The declared text -/

/-- The text is a declaration between blanks, possibly behind a brace that opens a block. -/
def IsDeclaration (declaration text : Text) : Prop :=
  ∃ gap gap' : Text, text = gap ++ (declaration ++ gap') ∧
    (Text.isBlankOnly gap = true ∨ gap = "\x7b ".toList) ∧ Text.isBlankOnly gap' = true

/-- A statement without loops that leaves the blocks and the comments as they are. -/
structure IsPlain (statement : Text) : Prop where
  isInert : LoopScan.IsInert statement
  braceDelta : Text.braceDelta statement = 0
  unmarked : ∀ c ∈ statement, c ≠ '/' ∧ c ≠ '*'

/-- The declaration of a shadow is such a statement. -/
lemma isPlain_declaration {type name : Text} (htype : Text.isIdent type = true)
    (hname : Text.isIdent name = true) : IsPlain (type ++ " " ++ name ++ ";") := by
  have hchars : ∀ c ∈ type ++ " ".toList ++ name, isWordChar c = true ∨ c = ' ' := by
    intro c hc
    rw [List.mem_append, List.mem_append] at hc
    rcases hc with (hc | hc) | hc
    · exact .inl (Text.isWordChar_of_isIdent htype c hc)
    · exact .inr (List.mem_singleton.mp hc)
    · exact .inl (Text.isWordChar_of_isIdent hname c hc)
  have hne : ∀ d, isWordChar d = false → d ≠ ' ' → ∀ c ∈ type ++ " ".toList ++ name, c ≠ d := by
    rintro d hword hspace c hc rfl
    rcases hchars c hc with h | h
    · rw [h] at hword
      exact absurd hword (by simp)
    · exact hspace h
  have hcount : ∀ d, isWordChar d = false → d ≠ ' ' →
      (type ++ " ".toList ++ name).count d = 0 := fun d hword hspace =>
    List.count_eq_zero.mpr fun hmem => hne d hword hspace d hmem rfl
  have hstart : ∃ c, isIdentStart c = true ∧
      (Text.trimLeft (type ++ " ".toList ++ name ++ [';'])).head? = some c := by
    cases type with
    | nil => exact absurd htype (by decide)
    | cons c t =>
      rw [Text.isIdent, Bool.and_eq_true] at htype
      have hblank := isBlank_eq_false_of_isWordChar (isWordChar_of_isIdentStart htype.1)
      exact ⟨c, htype.1, by simp [Text.trimLeft, hblank]⟩
  refine ⟨LoopScan.isInert_statement (fun c hc => ⟨?_, ?_, ?_⟩) ?_ (fun a c b heq _ => .inr ?_) ?_,
    ?_, fun c hc => ?_⟩
  · exact hne '{' (by decide) (by decide) c hc
  · exact hne '}' (by decide) (by decide) c hc
  · exact hne ';' (by decide) (by decide) c hc
  · rw [Text.parenDelta, hcount '(' (by decide) (by decide), hcount ')' (by decide) (by decide)]
    rfl
  · intro hb
    refine hne '(' (by decide) (by decide) '(' ?_ rfl
    rw [heq]
    exact List.mem_append_right a (List.mem_cons_of_mem c hb)
  · obtain ⟨c, hc, hhead⟩ := hstart
    rw [hhead]
    constructor
    · rintro ⟨⟩
      exact absurd hc (by decide)
    · rintro ⟨⟩
      exact absurd hc (by decide)
  · rw [Text.braceDelta_append, Text.braceDelta, hcount '{' (by decide) (by decide),
      hcount '}' (by decide) (by decide)]
    decide
  · rcases List.mem_append.mp hc with hc | hc
    · exact ⟨hne '/' (by decide) (by decide) c hc, hne '*' (by decide) (by decide) c hc⟩
    · rw [List.mem_singleton.mp hc]
      decide

/-- A declared text holds no loop, closes no block, and makes no comment. -/
lemma IsDeclaration.isInert {declaration text : Text} (h : IsDeclaration declaration text)
    (hplain : IsPlain declaration) :
    LoopScan.IsInert text ∧ 0 ≤ Text.braceDelta text ∧ ∀ c ∈ text, c ≠ '/' ∧ c ≠ '*' := by
  obtain ⟨gap, gap', rfl, hgap, hgap'⟩ := h
  have hback : LoopScan.IsInert (declaration ++ gap') :=
    hplain.isInert.append (LoopScan.isInert_blank hgap') hplain.braceDelta.ge
      (.inr hplain.braceDelta)
  have hdelta : Text.braceDelta (declaration ++ gap') = 0 := by
    rw [Text.braceDelta_append, hplain.braceDelta, LoopScan.braceDelta_of_isBlankOnly hgap']
    rfl
  have hblank : ∀ {g : Text}, Text.isBlankOnly g = true → ∀ c ∈ g, c ≠ '/' ∧ c ≠ '*' :=
    fun hg c hc =>
    ⟨ne_of_isBlank (Text.isBlankOnly_iff.mp hg c hc) (by decide),
      ne_of_isBlank (Text.isBlankOnly_iff.mp hg c hc) (by decide)⟩
  have hfront : LoopScan.IsInert gap ∧ 0 ≤ Text.braceDelta gap ∧ ∀ c ∈ gap, c ≠ '/' ∧ c ≠ '*' := by
    rcases hgap with hgap | rfl
    · exact ⟨LoopScan.isInert_blank hgap, (LoopScan.braceDelta_of_isBlankOnly hgap).ge, hblank hgap⟩
    · exact ⟨LoopScan.isInert_openBrace.append (LoopScan.isInert_blank (by decide)) (by decide)
        (.inl (by decide)), by decide, by simp⟩
  refine ⟨hfront.1.append hback hfront.2.1 (.inl hdelta.ge), ?_, fun c hc => ?_⟩
  · rw [Text.braceDelta_append, hdelta, add_zero]
    exact hfront.2.1
  · rw [List.mem_append, List.mem_append] at hc
    rcases hc with hc | hc | hc
    · exact hfront.2.2 c hc
    · exact hplain.unmarked c hc
    · exact hblank hgap' c hc

/-! ### The place of the declaration -/

/-- An edit of lines puts a declaration in front of a place, and an edit of their code does what it
does: it puts a text without loops right in front of the place, or in front of its line if there are
only blanks between them. -/
structure PutsInFront (lines result : List Text) (place : Position) (edit code : Edit) : Prop where
  isPlaced : edit.IsPlaced result 0
  rank : edit.rank ≠ 2
  offset_le : (edit.flat result 0).1 ≤ FlatText.lineStart result place.line + place.column
  code_isPlaced : code.IsPlaced (Comment.blankFrom false result) 0
  code_rank : code.rank ≠ 2
  moved_eq : code.moved = edit.moved
  blankFrom_eq : Comment.blankFrom false (Edit.applyFrom [edit] 0 result) =
    Edit.applyFrom [code] 0 (Comment.blankFrom false result)
  code_eq : (∃ text, code = .inline place.line place.column text ∧ LoopScan.IsInert text ∧
      0 ≤ Text.braceDelta text) ∨
    ∃ text l, code = .lineBefore place.line text ∧ LoopScan.IsInert (text ++ ['\n']) ∧
      0 ≤ Text.braceDelta (text ++ ['\n']) ∧
      (Comment.blankFrom false lines)[place.line]? = some l ∧
      Text.isBlankOnly (l.take place.column) = true

/-- **The declaration of a shadow is put in front of the loop.** -/
lemma exists_putsInFront {lines result marked : List Text} {n : Nat} {loop : Loop} {column : Nat}
    {declaration l : Text} {c : Char} (hplain : IsPlain declaration)
    (hkeyword : loop.keyword = some ⟨loop.headerLine, column⟩)
    (hl : (Comment.blankFrom false result)[loop.headerLine]? = some l)
    (hcolumn : l[column]? = some c)
    (hc : isBlank c = false) (h : declare (lines.take n) result loop declaration = .ok marked) :
    ∃ edit code, marked = Edit.applyFrom [edit] 0 result ∧
      PutsInFront lines result ⟨loop.headerLine, column⟩ edit code ∧
      IsDeclaration declaration (edit.flat result 0).2 := by
  obtain ⟨source, hsource, hlength, hcode⟩ := Comment.exists_source hl
  have hlt : column < l.length := (List.getElem?_eq_some_iff.mp hcolumn).1
  obtain ⟨edit, hmarked, hedit⟩ := exists_edit_of_declare hkeyword hsource (by omega) h
  rcases hedit with rfl | ⟨gap, trimmed, hgap, -, rfl, htrimmed, hfront⟩
  · -- a text in front of the keyword is part of the code
    set gap : Text := if loop.bareBody then "\x7b ".toList else [] with hgap
    have hdeclared : IsDeclaration declaration (gap ++ (declaration ++ [' '])) := by
      refine ⟨gap, [' '], rfl, ?_, by decide⟩
      rw [hgap]
      split
      · exact .inr rfl
      · exact .inl rfl
    obtain ⟨hinert, hdelta, hmarks⟩ := hdeclared.isInert hplain
    have hcut : Comment.IsCut (Comment.isOpenAfter false (result.take loop.headerLine)) source
        column := by
      refine ⟨c, ?_, .inl (by rw [← hcode, hcolumn])⟩
      rintro rfl
      exact absurd hc (by decide)
    refine ⟨_, .inline loop.headerLine column (gap ++ (declaration ++ [' '])), hmarked,
      ⟨⟨_, source, (Nat.zero_add _).symm, hsource, ?_⟩, by simp [Edit.rank], by simp [Edit.flat],
        ⟨_, l, (Nat.zero_add _).symm, hl, ?_⟩, by simp [Edit.rank], rfl,
        Comment.blankFrom_inline hsource hcut hmarks, .inl ⟨_, rfl, hinert, hdelta⟩⟩, hdeclared⟩
    · rintro line column' text ⟨⟩
      omega
    · rintro line column' text ⟨⟩
      exact hlt.le
  · -- a line of its own may lie in a comment
    have hdeclared : IsDeclaration declaration (gap ++ declaration ++ ['\n']) :=
      ⟨gap, ['\n'], List.append_assoc _ _ _, .inl hgap, by decide⟩
    obtain ⟨hinert, hdelta, hmarks⟩ := hdeclared.isInert hplain
    obtain ⟨code, htext, hblanked⟩ := Comment.blankFrom_lineBefore hsource
      (Comment.isMarkFree_of_forall_ne fun c hc => (hmarks c (List.mem_append_left _ hc)).1)
    have hcode : LoopScan.IsInert (code ++ ['\n']) ∧ 0 ≤ Text.braceDelta (code ++ ['\n']) := by
      rcases htext with rfl | hblank
      · exact ⟨hinert, hdelta⟩
      · have hblank : Text.isBlankOnly (code ++ ['\n']) = true := by
          rw [Text.isBlankOnly, List.all_append]
          exact Bool.and_eq_true_iff.mpr ⟨hblank, by decide⟩
        exact ⟨LoopScan.isInert_blank hblank, (LoopScan.braceDelta_of_isBlankOnly hblank).ge⟩
    obtain ⟨l₀, hl₀, hfront₀⟩ : ∃ l₀, (Comment.blankFrom false lines)[loop.headerLine]? = some l₀ ∧
        Text.isBlankOnly (l₀.take column) = true := by
      rw [Comment.strip_take, List.getElem?_take] at htrimmed
      split at htrimmed
      · rw [Comment.strip, Comment.stripFrom_eq, List.getElem?_map, Option.map_eq_some_iff]
          at htrimmed
        obtain ⟨l₀, hl₀, rfl⟩ := htrimmed
        obtain ⟨g, hg, ht⟩ := Text.exists_trimRight_append l₀
        refine ⟨l₀, hl₀, Text.isBlankOnly_iff.mpr fun c hc => ?_⟩
        rw [← ht, List.take_append, List.mem_append] at hc
        rcases hc with hc | hc
        · exact Text.isBlankOnly_iff.mp hfront c hc
        · exact Text.isBlankOnly_iff.mp hg c (List.mem_of_mem_take hc)
      · exact absurd htrimmed (by simp)
    refine ⟨_, .lineBefore loop.headerLine code, hmarked,
      ⟨⟨_, source, (Nat.zero_add _).symm, hsource, by simp⟩, by simp [Edit.rank],
        by simp [Edit.flat],
        ⟨_, l, (Nat.zero_add _).symm, hl, by simp⟩, by simp [Edit.rank], rfl, hblanked,
        .inr ⟨_, l₀, rfl, hcode.1, hcode.2, hl₀, hfront₀⟩⟩, hdeclared⟩

/-- The text that is put into the code of a function stands in front of the loop, and only blanks
are between the two. -/
lemma PutsInFront.exists_flat {lines result : List Text} {start n column : Nat} {edit code : Edit}
    (h : PutsInFront lines result ⟨start + n, column⟩ edit code) {span : LoopSpan} {l : Text}
    (htrue : span.IsTrue (Text.ofLines (Loop.blankCode lines start)))
    (hl : (Loop.blankCode lines start)[n]? = some l) (hcolumn : column < l.length)
    (hkeyword : span.keyword = FlatText.lineStart (Loop.blankCode lines start) n + column)
    (hstart : FlatText.lineStart (Loop.blankCode result start) n =
      FlatText.lineStart (Loop.blankCode lines start) n) :
    ∃ o d, code.flat (Loop.blankCode result start) start = (o, d) ∧ o ≤ span.keyword ∧
      (∀ k, o ≤ k → k < span.keyword →
        ∀ c ∈ (Text.ofLines (Loop.blankCode lines start))[k]?, isBlank c = true) ∧
      Text.startsWord ((Text.ofLines (Loop.blankCode lines start)).take o).reverse = false ∧
      LoopScan.IsInert d ∧ 0 ≤ Text.braceDelta d := by
  rcases h.code_eq with ⟨text, rfl, hinert, hdelta⟩ | ⟨text, l', rfl, hinert, hdelta, hl', hblank⟩
  · refine ⟨span.keyword, text, ?_, le_rfl, fun k hlow hhigh => by omega, htrue.isWordStart, hinert,
      hdelta⟩
    rw [Edit.flat, Nat.add_sub_cancel_left, hstart, hkeyword]
  · have hend := FlatText.lineStart_add_le hl
    obtain rfl : l = l' := by
      rw [Loop.blankCode, List.getElem?_drop] at hl
      exact Option.some.inj (hl.symm.trans hl')
    refine ⟨FlatText.lineStart (Loop.blankCode lines start) n, _, ?_, by omega,
      fun k hlow hhigh c hc => ?_, ?_, hinert, hdelta⟩
    · rw [Edit.flat, Nat.add_sub_cancel_left, hstart]
    · obtain ⟨i, rfl⟩ := Nat.exists_eq_add_of_le hlow
      rw [FlatText.getElem?_ofLines hl (by omega)] at hc
      refine Text.isBlankOnly_iff.mp hblank c (List.mem_of_getElem? (i := i) ?_)
      rw [List.getElem?_take_of_lt (by dsimp only; omega)]
      exact hc
    · exact Text.startsWord_take_of_blank (by omega) fun i hi => FlatText.isBlank_lineStart hl hi

/-! ### Loops behind the declaration -/

section Behind

variable {lines result : List Text} {start target column : Nat} {l : Text}

/-- The code of two texts that are the same up to a `;` of the code. -/
lemma exists_front (hl : (Comment.blankFrom false lines)[target]? = some l)
    (hsemi : l[column]? = some ';') (hagree : Position.Agrees ⟨target, column⟩ lines result)
    (hstart : start ≤ target) :
    Position.Agrees ⟨target - start, column⟩ (Loop.blankCode lines start)
        (Loop.blankCode result start) ∧
      ∃ front rest rest', Text.ofLines (Loop.blankCode lines start) = front ++ ';' :: rest ∧
        Text.ofLines (Loop.blankCode result start) = front ++ ';' :: rest' ∧
        front.length = FlatText.lineStart (Loop.blankCode lines start) (target - start) + column := by
  have hcode : Position.Agrees ⟨target - start, column⟩ (Loop.blankCode lines start)
      (Loop.blankCode result start) := (hagree.code hl hsemi (by decide) (by decide)).drop hstart
  refine ⟨hcode, ?_⟩
  obtain ⟨front, rest, rest', hfront, hfront', hlength⟩ := hcode.exists_ofLines
  dsimp only at hlength
  -- the last character of the shared front is the `;`
  rcases List.eq_nil_or_concat' front with rfl | ⟨front, c, rfl⟩
  · exact absurd hlength (by simp)
  · rw [List.length_append, List.length_singleton, Nat.add_right_cancel_iff] at hlength
    have hline : (Loop.blankCode lines start)[target - start]? = some l := by
      rw [Loop.blankCode, List.getElem?_drop, Nat.add_sub_cancel' hstart, hl]
    have hget := FlatText.getElem?_ofLines hline (List.getElem?_eq_some_iff.mp hsemi).1
    rw [hsemi, hfront, ← hlength, List.append_assoc, List.getElem?_append_right le_rfl,
      Nat.sub_self, List.singleton_append, List.getElem?_cons_zero, Option.some.injEq] at hget
    subst hget
    exact ⟨front, rest, rest', by rw [hfront, List.append_assoc]; rfl,
      by rw [hfront', List.append_assoc]; rfl, hlength⟩

/-- The code of the edited lines. -/
lemma PutsInFront.blankCode_eq {place : Position} {edit code : Edit}
    (h : PutsInFront lines result place edit code) (hstart : start ≤ place.line) :
    Loop.blankCode (Edit.applyFrom [edit] 0 result) start =
        Edit.applyFrom [code] start (Loop.blankCode result start) ∧
      code.IsPlaced (Loop.blankCode result start) start := by
  have hline : code.line = place.line := by
    rcases h.code_eq with ⟨text, rfl, -⟩ | ⟨text, l, rfl, -⟩ <;> rfl
  constructor
  · rw [Loop.blankCode, h.blankFrom_eq, (Edit.applyFrom_split (n := start) (by simp; omega) _).2,
      Nat.zero_add, Loop.blankCode]
  · obtain ⟨n, l, hn, hl, hcolumn⟩ := h.code_isPlaced
    refine ⟨n - start, l, by omega, ?_, hcolumn⟩
    rw [Loop.blankCode, List.getElem?_drop, Nat.add_sub_cancel' (by omega), hl]

/-- **A loop behind the declaration is found with its number.** -/
theorem find_of_putsInFront (hl : (Comment.blankFrom false lines)[target]? = some l)
    (hsemi : l[column]? = some ';') (hagree : Position.Agrees ⟨target, column⟩ lines result)
    {loop outermost : Loop}
    (houter : outermost ∈ Loop.enclosing lines start target (some (column : Int)))
    (hloop : loop ∈ Loop.enclosing lines start target (some (column : Int)))
    (hle : outermost.index ≤ loop.index) {place : Position}
    (hplace : outermost.keyword = some place)
    {edit code : Edit} (hputs : PutsInFront lines result place edit code) :
    ∃ found p, (Loop.find (Edit.applyFrom [edit] 0 result) start)[loop.index]? = some found ∧
      found.index = loop.index ∧ found.headerText = loop.headerText ∧
      loop.keyword = some p ∧ found.keyword = some (edit.moved p) := by
  have hcolumn : column < l.length := (List.getElem?_eq_some_iff.mp hsemi).1
  obtain ⟨span₀, n₀, k₀, l₀, c₀, hspan₀, -, hstart, hclose₀, hl₀, hk₀, -, hkeyword₀, hplace₀, -⟩ :=
    Loop.exists_keyword_of_mem_enclosing hl hcolumn houter
  obtain ⟨span, n, k, l₁, c, hspan, hofSpan, -, hclose, hl₁, hk, -, hkeyword, hp, -⟩ :=
    Loop.exists_keyword_of_mem_enclosing hl hcolumn hloop
  obtain rfl : place = ⟨start + n₀, k₀⟩ := Option.some.inj (hplace.symm.trans hplace₀)
  obtain ⟨hcode, front, rest, rest', hfront, hfront', hlength⟩ :=
    exists_front hl hsemi hagree hstart
  have hlt₀ : k₀ < l₀.length := (List.getElem?_eq_some_iff.mp hk₀).1
  have hlt : k < l₁.length := (List.getElem?_eq_some_iff.mp hk).1
  have htrue₀ := (Loop.isTrue_of_mem_spans (List.mem_of_getElem? hspan₀)).1
  have hopen₀ := htrue₀.keyword_lt
  have hopen := (Loop.isTrue_of_mem_spans (List.mem_of_getElem? hspan)).1.keyword_lt
  -- the text that is put into the code, and the loops of the code with it
  obtain ⟨-, -, -, hsame₀⟩ := hcode.exists_line hl₀ hlt₀ (by dsimp only; omega)
  obtain ⟨o, d, hflat, ho, hblank, hword, hinert, hdelta⟩ :=
    hputs.exists_flat htrue₀ hl₀ hlt₀ hkeyword₀ hsame₀
  obtain ⟨hmarked, hplaced⟩ := hputs.blankCode_eq (Nat.le_add_right start n₀)
  rw [hfront] at hspan₀ hspan hblank hword
  obtain ⟨span', hspan', hkeyword', hheader⟩ := Loop.exists_core_weave rest' hspan₀
    (by omega) hspan (by omega) ho hle (fun i hlow hhigh c hc => by
      refine hblank i hlow hhigh c ?_
      rw [List.getElem?_append_left (by omega)]
      exact hc)
    (by rwa [List.take_append_of_le_length (by omega)] at hword) hinert hdelta
  rw [← hfront', ← hflat, ← Edit.ofLines_singleton hplaced, ← hmarked] at hspan'
  -- the place of the keyword in the new code
  obtain ⟨l₁', hl₁', hk', hsame⟩ := hcode.exists_line hl₁ hlt (by dsimp only; omega)
  have hlt' : k < l₁'.length := by
    rw [hk] at hk'
    exact (List.getElem?_eq_some_iff.mp hk').1
  have hbefore : o ≤ span.keyword := by
    rcases Nat.lt_or_eq_of_le hle with hindex | hindex
    · have := Loop.parenClose_lt_of_lt hindex hspan₀ hspan
      omega
    · rw [hindex, hspan, Option.some.injEq] at hspan₀
      rw [hspan₀]
      exact ho
  obtain ⟨m, l₂, k₂, hmoved, hl₂, hk₂, hoffset⟩ :=
    Edit.exists_moved hplaced hputs.code_rank hl₁' hlt'
    (by rw [hflat, hsame, ← hkeyword]; exact hbefore)
  have hlt₂ : k₂ < l₂.length := by
    rw [hk', hk] at hk₂
    exact (List.getElem?_eq_some_iff.mp hk₂).1
  refine ⟨Loop.ofSpan
      ⟨Loop.blankCode (Edit.applyFrom [edit] 0 result) start, start⟩ span' loop.index,
    ⟨start + n, k⟩, by rw [Loop.getElem?_find_blankCode, hspan', Option.map_some], rfl, ?_, hp, ?_⟩
  · rw [hofSpan]
    exact hheader
  · rw [← hputs.moved_eq, hmoved]
    rw [hsame, hflat, ← hkeyword, ← hkeyword', ← hmarked] at hoffset
    rw [← hmarked] at hl₂
    have hlocate := FlatText.locate_lineStart hl₂ hlt₂.le start
    rw [hoffset] at hlocate
    exact congrArg some hlocate

/-- The places of the keywords of the loops around the `;` are ordered in the lines as they are in
the code. -/
lemma exists_place (hl : (Comment.blankFrom false lines)[target]? = some l)
    (hsemi : l[column]? = some ';') {loop outermost : Loop}
    (houter : outermost ∈ Loop.enclosing lines start target (some (column : Int)))
    (hloop : loop ∈ Loop.enclosing lines start target (some (column : Int)))
    (hle : outermost.index ≤ loop.index) {place p : Position}
    (hplace : outermost.keyword = some place) (hp : loop.keyword = some p) :
    ∃ source, lines[p.line]? = some source ∧ p.column < source.length ∧
      FlatText.lineStart lines place.line + place.column ≤
      FlatText.lineStart lines p.line + p.column ∧
      FlatText.lineStart lines p.line + p.column ≤ FlatText.lineStart lines target + column := by
  have hcolumn : column < l.length := (List.getElem?_eq_some_iff.mp hsemi).1
  obtain ⟨span₀, n₀, k₀, l₀, c₀, hspan₀, -, hstart, -, hl₀, hk₀, -, hkeyword₀, hplace₀, -⟩ :=
    Loop.exists_keyword_of_mem_enclosing hl hcolumn houter
  obtain ⟨span, n, k, l₁, c, hspan, -, -, hclose, hl₁, hk, -, hkeyword, hp', -⟩ :=
    Loop.exists_keyword_of_mem_enclosing hl hcolumn hloop
  obtain rfl : place = ⟨start + n₀, k₀⟩ := Option.some.inj (hplace.symm.trans hplace₀)
  obtain rfl : p = ⟨start + n, k⟩ := Option.some.inj (hp.symm.trans hp')
  have hopen₀ := (Loop.isTrue_of_mem_spans (List.mem_of_getElem? hspan₀)).1.keyword_lt
  have hopen := (Loop.isTrue_of_mem_spans (List.mem_of_getElem? hspan)).1.keyword_lt
  have hbefore : span₀.keyword ≤ span.keyword := by
    rcases Nat.lt_or_eq_of_le hle with hindex | hindex
    · have := Loop.parenClose_lt_of_lt hindex hspan₀ hspan
      omega
    · rw [hindex, hspan, Option.some.injEq] at hspan₀
      rw [hspan₀]
  -- both keywords stand on lines that are at least as long as their code
  have hline : ∀ {n k : Nat} {l : Text} {c : Char}, (Loop.blankCode lines start)[n]? = some l →
      l[k]? = some c → k < l.length ∧ ∃ source, lines[start + n]? = some source ∧
        k < source.length := by
    intro n k l c hl hk
    rw [Loop.blankCode, List.getElem?_drop] at hl
    obtain ⟨source, hsource, hlength, -⟩ := Comment.exists_source hl
    have hlt : k < l.length := (List.getElem?_eq_some_iff.mp hk).1
    exact ⟨hlt, source, hsource, hlt.trans_le hlength⟩
  obtain ⟨hlt₀, source₀, hsource₀, hlong₀⟩ := hline hl₀ hk₀
  obtain ⟨hlt, source, hsource, hlong⟩ := hline hl₁ hk
  have htarget : (Loop.blankCode lines start)[target - start]? = some l := by
    rw [Loop.blankCode, List.getElem?_drop, Nat.add_sub_cancel' hstart, hl]
  have hfirst := FlatText.lineStart_mono hl₁ hlt.le hsource₀ hlong₀.le
    (by rw [← hkeyword₀, ← hkeyword]; exact hbefore)
  have hbehind : FlatText.lineStart (Loop.blankCode lines start) n + k ≤
      FlatText.lineStart (Loop.blankCode lines start) (target - start) + column := by omega
  have hlast := FlatText.lineStart_mono htarget hcolumn.le hsource hlong.le hbehind
  rw [Nat.add_sub_cancel' hstart] at hlast
  exact ⟨source, hsource, hlong, hfirst, hlast⟩

end Behind

/-! ### The numbers -/

/-- The loops around a statement and the text that declares the shadow. -/
lemma exists_declared {config : Config} (hshadow : Text.isIdent config.shadow = true)
    {lines marked : List Text} {start target column n : Nat} {loops : List Loop}
    {shadow : Option Text}
    (hend : Statement.endAt config.maxStatementLines lines target = .ok (some ⟨target, column⟩))
    {shown : Variable} (htype : Text.isIdent shown.type = true) (hn : target < n)
    (hloops : loops = Loop.enclosing lines start target (some (column : Int)))
    (h : insert config (lines.take n) target shown loops = .ok (marked, shadow)) :
    ∃ before declared, IsDeclaration (shown.type ++ " " ++ config.shadow ++ ";") declared ∧
      ∀ loop ∈ loops, ∃ found p q between,
        (Loop.find marked start)[loop.index]? = some found ∧
        found.index = loop.index ∧ found.headerText = loop.headerText ∧
        loop.keyword = some p ∧ found.keyword = some q ∧
        p.textInFront lines = before ++ between ∧
        q.textInFront marked = before ++ (declared ++ between) := by
  rw [insert] at h
  split at h
  · rename_i hnone
    rw [Loop.eq_nil_of_outermost? hnone]
    exact ⟨[], shown.type ++ " " ++ config.shadow ++ ";", ⟨[], [], by simp, .inl rfl, rfl⟩, by simp⟩
  · rename_i outermost hmost
    obtain ⟨result, hresult, h⟩ := bind_eq_ok_iff.mp h
    obtain ⟨marked', hmarked, h⟩ := bind_eq_ok_iff.mp h
    obtain ⟨rfl, -⟩ := Prod.mk.inj (Except.ok.inj h)
    subst hloops
    obtain ⟨l, hl, hsemi⟩ := Statement.exists_semicolon_of_endAt hend
    dsimp only at hl hsemi
    have hcolumn : column < l.length := (List.getElem?_eq_some_iff.mp hsemi).1
    obtain ⟨source, hsource, hlength, -⟩ := Comment.exists_source hl
    -- the cut and the assignment leave what is in front of the `;` as it is
    have hagree : Position.Agrees ⟨target, column⟩ lines result :=
      (Position.agrees_take hsource (hcolumn.trans_le hlength) hn).trans
        (agrees_of_assign (by rw [List.getElem?_take_of_lt hn]; exact hsource)
          (hcolumn.trans_le hlength) (Statement.endAt_take hend hn) hresult)
    have houter := Loop.mem_of_outermost? hmost
    obtain ⟨span, k, c₀, l₀, c, hspan, -, hstart, hclose, hl₀, hc₀, hblank, hkeyword, hplace,
        hheader⟩ :=
      Loop.exists_keyword_of_mem_enclosing hl hcolumn houter
    obtain ⟨hcode, -⟩ := exists_front hl hsemi hagree hstart
    have hlt₀ : c₀ < l₀.length := (List.getElem?_eq_some_iff.mp hc₀).1
    have hopen := (Loop.isTrue_of_mem_spans (List.mem_of_getElem? hspan)).1.keyword_lt
    obtain ⟨l', hl', hc', -⟩ := hcode.exists_line hl₀ hlt₀ (by dsimp only; omega)
    rw [Loop.blankCode, List.getElem?_drop, ← hheader] at hl'
    rw [← hheader] at hplace
    obtain ⟨edit, code, rfl, hputs, hdeclared⟩ := exists_putsInFront
      (isPlain_declaration htype hshadow) hplace hl' (hc'.trans hc₀) hblank hmarked
    refine ⟨(Text.ofLines result).take (edit.flat result 0).1, _, hdeclared, fun loop hloop => ?_⟩
    have hle := Loop.index_le_of_outermost? hmost hloop
    obtain ⟨found, p, hfound, hindex, htext, hp, hq⟩ :=
      find_of_putsInFront hl hsemi hagree houter hloop hle hplace hputs
    -- the text in front of the keyword
    obtain ⟨source₀, hsource₀, hlong₀, -, hlast₀⟩ :=
      exists_place hl hsemi houter houter le_rfl hplace hplace
    obtain ⟨source₁, hsource₁, hlong₁, hfirst, hlast⟩ :=
      exists_place hl hsemi houter hloop hle hplace hp
    obtain ⟨-, -, -, hsame₀⟩ := hagree.exists_line hsource₀ hlong₀ hlast₀
    obtain ⟨source₂, hsource₂, hchar, hsame⟩ := hagree.exists_line hsource₁ hlong₁ hlast
    have hlong₂ : p.column < source₂.length := by
      rw [List.getElem?_eq_getElem hlong₁] at hchar
      exact (List.getElem?_eq_some_iff.mp hchar).1
    obtain ⟨between, hbefore, hbehind⟩ := Edit.exists_textInFront hputs.isPlaced hputs.rank hsource₂
      hlong₂ (by rw [hsame]; exact hputs.offset_le.trans (by rw [hsame₀]; exact hfirst))
    exact ⟨found, p, edit.moved p, between, hfound, hindex, htext, hp, hq,
      (hagree.textInFront hsource₁ hlong₁ hlast).trans hbefore, hbehind⟩

end Shadow

end ShaderProbe
