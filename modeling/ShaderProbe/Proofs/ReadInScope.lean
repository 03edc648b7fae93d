import Mathlib
import ShaderProbe.Proofs.BlockDepth
import ShaderProbe.Proofs.CapturedReturn

/-!
# Values that are read in scope

A function is cut behind the line on which a statement ends, or behind the line on which the
outermost loop around it ends, and the lines that show the value follow.  What shares that line is
kept.

* The statement, or the declaration of the shadow in front of the loop, stands in the code that is
  kept at least as deep as it did (`Variant.exists_code_of_truncated`).
* What is kept behind it closes a block around it only if the source does there
  (`Shadow.exists_code_of_insert` for the shadow, `Cap.exists_keepsOpenBehind_of_apply` for caps).
* So the value is shown in the blocks around its statement, unless the line that is shared closes
  one (`Probe.exists_scope_of_instrument`).
-/

namespace ShaderProbe

/-! ### Where a statement starts -/

/-- A front of the code behind which a statement starts: it ends with a `;` or a brace, outside of
parentheses, and every loop in it has ended. -/
structure Text.IsSettled (t : Text) : Prop where
  last : t.getLast? ∈ [some ';', some '{', some '}']
  parenDelta : parenDelta t = 0
  ended : ∀ span ∈ Loop.spans t, span.bodyEnd.isSome = true

instance (t : Text) : Decidable t.IsSettled :=
  decidable_of_iff (t.getLast? ∈ [some ';', some '{', some '}'] ∧ Text.parenDelta t = 0 ∧
      ∀ span ∈ Loop.spans t, span.bodyEnd.isSome = true)
    ⟨fun h => ⟨h.1, h.2.1, h.2.2⟩, fun h => ⟨h.1, h.2, h.3⟩⟩

namespace Text

variable {s t : Text}

/-- The last character of a settled front. -/
lemma IsSettled.exists_last (h : IsSettled t) : ∃ c ∈ [';', '{', '}'], t.getLast? = some c := by
  have hlast := h.last
  simp only [List.mem_cons, List.not_mem_nil, or_false] at hlast
  rcases hlast with hlast | hlast | hlast <;> exact ⟨_, by simp, hlast⟩

/-- A stretch opens and closes no block. -/
lemma IsStretch.braceDelta (h : IsStretch t) : Text.braceDelta t = 0 := by
  have hfree := isFreeOf_iff.mp h.isFreeOfEnds
  rw [Text.braceDelta, List.count_eq_zero.mpr fun hc => hfree _ hc (by decide),
    List.count_eq_zero.mpr fun hc => hfree _ hc (by decide)]
  rfl

/-- In front of its last blanks a stretch is one. -/
lemma IsStretch.of_append_blank (h : IsStretch (s ++ t)) (ht : isBlankOnly t = true) :
    IsStretch s := by
  have hblank := isStretch_of_isBlankOnly ht
  obtain ⟨hcount, hfront⟩ := isBalanced_iff.mp h.isBalanced
  obtain ⟨hcount', -⟩ := isBalanced_iff.mp hblank.isBalanced
  refine ⟨isBalanced_iff.mpr ⟨?_, fun front hpre => ?_⟩, isFreeOf_iff.mpr fun c hc => ?_,
    fun keyword hkeyword => ?_⟩
  · rw [List.count_append, List.count_append] at hcount
    omega
  · exact hfront front (hpre.trans (List.prefix_append s t))
  · exact isFreeOf_iff.mp h.isFreeOfEnds c (List.mem_append_left t hc)
  · have hword : startsWord t = false := by
      cases t with
      | nil => rfl
      | cons c t => exact isWordChar_of_isBlankOnly ht c List.mem_cons_self
    have := h.countWord keyword hkeyword
    rw [countWord_append_right (isIdent_keyword hkeyword).2 s hword] at this
    omega

/-- Blanks end no word. -/
lemma startsWord_reverse_of_isBlankOnly (h : isBlankOnly t = true) :
    startsWord t.reverse = false := by
  cases hrev : t.reverse with
  | nil => rfl
  | cons c r =>
    exact isWordChar_of_isBlankOnly h c (List.mem_reverse.mp (hrev ▸ List.mem_cons_self))

/-- The blanks at the end of a text do not reach into a settled front. -/
lemma IsSettled.exists_of_append_eq {prior lead x gap : Text} (h : prior.IsSettled)
    (heq : prior ++ lead = x ++ gap) (hgap : isBlankOnly gap = true) :
    ∃ lead', lead = lead' ++ gap ∧ x = prior ++ lead' := by
  obtain ⟨c, hc, hlast⟩ := h.exists_last
  obtain ⟨front, rfl⟩ := List.getLast?_eq_some_iff.mp hlast
  rcases List.append_eq_append_iff.mp heq with ⟨y, hx, hlead⟩ | ⟨y, hprior, hgap'⟩
  · exact ⟨y, hlead, hx⟩
  · rcases List.eq_nil_or_concat y with rfl | ⟨z, d, rfl⟩
    · exact ⟨[], by simpa using hgap'.symm, by simpa using hprior.symm⟩
    · rw [List.concat_eq_append, ← List.append_assoc] at hprior
      obtain ⟨-, hd⟩ := List.append_inj' hprior rfl
      obtain rfl : c = d := by simpa using hd
      have hblank := isBlankOnly_iff.mp hgap c (by rw [hgap']; simp)
      simp only [List.mem_cons, List.not_mem_nil, or_false] at hc
      rcases hc with rfl | rfl | rfl <;> exact absurd hblank (by decide)

end Text

namespace LoopSpan

variable {span : LoopSpan} {front stretch rest prior : Text} {x : Char}

/-- A loop does not start at a `;` or a brace. -/
lemma IsTrue.getElem?_keyword {text : Text} (h : span.IsTrue text) (hx : x ∈ [';', '{', '}']) :
    text[span.keyword]? ≠ some x := by
  obtain ⟨a, t, hdrop, ⟨keyword, hmem, gap, group, -, rfl, -⟩, -⟩ := h.header
  obtain ⟨hident, hne⟩ := Text.isIdent_keyword hmem
  obtain ⟨c, w, rfl⟩ := List.exists_cons_of_ne_nil hne
  have hword := Text.isWordChar_of_isIdent hident c List.mem_cons_self
  rw [← List.head?_drop, hdrop]
  rintro ⟨⟩
  simp only [List.mem_cons, List.not_mem_nil, or_false] at hx
  rcases hx with rfl | rfl | rfl <;> exact absurd hword (by decide)

/-- A loop in front of the end of a stretch starts in front of the stretch. -/
lemma IsTrue.keyword_lt_of_stretch (h : span.IsTrue (front ++ (stretch ++ x :: rest)))
    (hx : x ∈ [';', '{', '}']) (hstretch : stretch.IsStretch)
    (hlt : span.keyword < (front ++ (stretch ++ [x])).length) : span.keyword < front.length := by
  rcases h.keyword_not_mem hx hstretch with hfront | hback
  · exact hfront
  · have heq : span.keyword = (front ++ stretch).length := by
      simp only [List.length_append, List.length_singleton] at hlt ⊢
      omega
    refine absurd ?_ (h.getElem?_keyword hx)
    rw [heq, ← List.append_assoc, List.getElem?_append_right le_rfl, Nat.sub_self]
    rfl

/-- **The loops of a settled front have ended** whatever follows. -/
lemma exists_bodyEnd_of_isSettled (hprior : prior.IsSettled)
    (h : span ∈ Loop.spans (prior ++ rest)) (hlt : span.keyword < prior.length) :
    ∃ e ∈ span.bodyEnd, e < prior.length := by
  obtain ⟨c, hc, hlast⟩ := hprior.exists_last
  obtain ⟨front, rfl⟩ := List.getLast?_eq_some_iff.mp hlast
  obtain ⟨htrue, -⟩ := Loop.isTrue_of_mem_spans h
  rw [List.append_assoc, List.singleton_append] at h htrue
  have hnone : span.IsTrue (front ++ ([] ++ c :: rest)) := htrue
  have hfront : span.keyword < front.length :=
    hnone.keyword_lt_of_stretch hc (by decide) (by simpa using hlt)
  obtain ⟨e, he, hle⟩ := Loop.ended_of_front hc (r := []) hprior.parenDelta (fun span hspan _ => by
    obtain ⟨e, he⟩ := Option.isSome_iff_exists.mp (hprior.ended span hspan)
    obtain ⟨-, -, hends⟩ := (Loop.isTrue_of_mem_spans hspan).1.bodyEnd e he
    refine ⟨e, he, ?_⟩
    have hlength : e < (front ++ [c]).length := by
      rcases hends with hends | hends <;> exact (List.getElem?_eq_some_iff.mp hends).1
    rw [List.length_append, List.length_singleton] at hlength
    omega) h hfront
  exact ⟨e, he, by rw [List.length_append, List.length_singleton]; omega⟩

end LoopSpan

/-! ### The code with a shadow -/

/-- Where no comment is open in front of a line, an edit beside the code is one of the code. -/
lemma Edit.inCode_of_isBeside {lines : List Text} {start : Nat} {e : Edit}
    (hclosed : Comment.AreClosed lines) (h : e.IsBeside lines start) :
    (e.inCode fun n => Comment.isOpenAfter false (lines.take n)) = e := by
  obtain ⟨-, l, -, hbeside⟩ := h
  cases e with
  | inline line column text => rfl
  | lineBefore line text =>
    rw [Edit.inCode, hclosed.isOpenAfter_take, Comment.blankLine_of_isMarkFree hbeside.isMarkFree]
    simp
  | lineAfter line text =>
    rw [Edit.inCode, hclosed.isOpenAfter_take, Comment.blankLine_of_isMarkFree hbeside.isMarkFree]
    simp

/-- A text is put in front of some blanks, and another one somewhere behind them. -/
lemma Edit.weave_front {x gap : Text} {o : Nat} (d a : Text) (h : (x ++ gap).length ≤ o) (t : Text) :
    weave [(x.length, d), (o, a)] 0 (x ++ (gap ++ t)) =
      x ++ (d ++ (gap ++ weave [(o, a)] (x ++ gap).length t)) := by
  rw [List.length_append] at h ⊢
  have hfirst : ∀ insert ∈ [(x.length, d), (o, a)], ¬(0 ≤ insert.1 ∧ insert.1 < 0 + x.length) := by
    simp only [List.mem_cons, List.not_mem_nil, or_false]
    rintro insert (rfl | rfl) <;> dsimp only <;> omega
  have hsecond : ∀ insert ∈ [(o, a)],
      ¬(x.length ≤ insert.1 ∧ insert.1 < x.length + gap.length) := by
    simp only [List.mem_singleton]
    rintro insert rfl
    dsimp only
    omega
  rw [weave_append hfirst, Nat.zero_add, weave_cons_self, weave_append hsecond]

/-- A place between words of a line is one between words of the text. -/
lemma Position.IsWordEdge.startsWord_take {lines : List Text} {start n column : Nat} {code : Text}
    (h : IsWordEdge lines ⟨start + n, column⟩)
    (hcode : (Loop.blankCode lines start)[n]? = some code) (hcolumn : column ≤ code.length) :
    Text.startsWord ((Text.ofLines (Loop.blankCode lines start)).take
      (FlatText.lineStart (Loop.blankCode lines start) n + column)).reverse = false := by
  have hle := FlatText.lineStart_add_le hcode
  set text := Text.ofLines (Loop.blankCode lines start)
  cases column with
  | zero =>
    rw [Nat.add_zero]
    cases hstart : FlatText.lineStart (Loop.blankCode lines start) n with
    | zero => rfl
    | succ i =>
      have hi : i < text.length := by omega
      rw [Text.startsWord_take_succ (List.getElem?_eq_getElem hi)]
      exact isWordChar_eq_false_of_isBlank
        (FlatText.isBlank_lineStart hcode hstart.symm _ (List.getElem?_eq_getElem hi))
  | succ column =>
    have hc : code[column]? = some code[column] := List.getElem?_eq_getElem hcolumn
    have hedge := h code (by rwa [Loop.blankCode, List.getElem?_drop] at hcode)
    rw [Text.startsWord_take_succ hc] at hedge
    rwa [← Nat.add_assoc, Text.startsWord_take_succ
      ((FlatText.getElem?_ofLines hcode hcolumn).trans hc)]

namespace Shadow

variable {lines : List Text} {start target : Nat} {shown : Variable} {a d : Edit}

/-- The code after the two edits. -/
lemma blankCode_apply_pair (hclosed : Comment.AreClosed lines) (hd : d.rank ≠ 2) (ha : a.rank ≠ 0)
    (hbeside : ∀ e ∈ [d, a], e.IsBeside lines start)
    (hplaced : ∀ e ∈ [d, a], e.IsPlaced (Loop.blankCode lines start) start) :
    Text.ofLines (Loop.blankCode (Edit.apply [d, a] lines) start) =
      Edit.weave [d.flat (Loop.blankCode lines start) start,
        a.flat (Loop.blankCode lines start) start]
        0 (Text.ofLines (Loop.blankCode lines start)) := by
  have hrank : Edit.byRank [d, a] = [d, a] := by
    cases d <;> cases a <;> simp_all [Edit.byRank, Edit.rank]
  have hcode : [d, a].map (Edit.inCode fun n => Comment.isOpenAfter false (lines.take n)) = [d, a] :=
    List.map_congr_left (fun e he => Edit.inCode_of_isBeside hclosed (hbeside e he)) |>.trans
      (List.map_id _)
  rw [Edit.blankCode_apply hbeside, hcode, Edit.ofLines_applyFrom hplaced, hrank]
  rfl

/-- The assignment of the shadow is made behind a place in front of the end of the statement, and
holds no brace. -/
lemma Assigns.exists_flat
    (h : Assigns {} lines target (({} : Config).shadow ++ " = " ++ shown.name ++ ";") a)
    (hname : Text.isIdent shown.name = true) {n k : Nat} {l : Text}
    (hl : (Loop.blankCode lines start)[n]? = some l) (hk : k < l.length)
    (hplace : start + n < target ∨ start + n = target ∧ ∀ column,
      Statement.endAt ({} : Config).maxStatementLines lines target = .ok (some ⟨target, column⟩) →
        k ≤ column) :
    a.rank ≠ 0 ∧ a.IsPlaced (Loop.blankCode lines start) start ∧
      FlatText.lineStart (Loop.blankCode lines start) n + k ≤
        (a.flat (Loop.blankCode lines start) start).1 ∧
      '{' ∉ (a.flat (Loop.blankCode lines start) start).2 ∧
      '}' ∉ (a.flat (Loop.blankCode lines start) start).2 := by
  have hbraces : ∀ c ∈ ['{', '}'], ∀ gap : Text, Text.isBlankOnly gap = true →
      c ∉ gap ++ (({} : Config).shadow ++ " = " ++ shown.name ++ ";") := by
    intro c hc gap hgap hmem
    simp only [List.mem_cons, List.not_mem_nil, or_false] at hc
    rcases List.mem_append.mp hmem with hmem | hmem
    · have := Text.isBlankOnly_iff.mp hgap c hmem
      rcases hc with rfl | rfl <;> exact absurd this (by decide)
    · rw [List.mem_append, List.mem_append] at hmem
      rcases hmem with (hmem | hmem) | hmem
      · rcases hc with rfl | rfl <;> exact absurd hmem (by decide)
      · have := Text.isWordChar_of_isIdent hname c hmem
        rcases hc with rfl | rfl <;> exact absurd this (by decide)
      · rcases hc with rfl | rfl <;> exact absurd hmem (by decide)
  obtain ⟨m, rfl⟩ : ∃ m, target = start + m := ⟨target - start, by omega⟩
  have hlines : ∀ {code : Text}, (Comment.blankFrom false lines)[start + m]? = some code →
      (Loop.blankCode lines start)[m]? = some code := by
    intro code hcode
    rwa [Loop.blankCode, List.getElem?_drop]
  obtain ⟨source, hsource, ⟨column, hend, -, rfl⟩ | ⟨rfl, -⟩⟩ := h
  · obtain ⟨code, hcode, hsemi⟩ := Statement.exists_semicolon_of_endAt hend
    have hcolumn := (List.getElem?_eq_some_iff.mp hsemi).1
    refine ⟨by simp [Edit.rank], ⟨m, code, rfl, hlines hcode, ?_⟩, ?_, ?_, ?_⟩
    · rintro _ _ _ ⟨⟩
      exact hcolumn
    · rw [Edit.flat, Nat.add_sub_cancel_left]
      rcases hplace with hlt | ⟨heq, hle⟩
      · have := FlatText.lineStart_lt hl (show n < m by omega)
        omega
      · obtain rfl : n = m := by omega
        have := hle column hend
        omega
    · exact hbraces '{' (by simp) [' '] (by decide)
    · exact hbraces '}' (by simp) [' '] (by decide)
  · have hm : start + m < (Comment.blankFrom false lines).length := by
      rw [Comment.length_blankFrom]
      exact (List.getElem?_eq_some_iff.mp hsource).1
    have hcode := hlines (List.getElem?_eq_getElem hm)
    have hindent : Text.isBlankOnly ('\n' :: Text.indent source) = true := by
      rw [← List.singleton_append, Text.isBlankOnly_append, Text.isBlankOnly_indent]
      decide
    refine ⟨by simp [Edit.rank], ⟨m, _, rfl, hcode, by simp⟩, ?_, ?_, ?_⟩
    · rw [Edit.flat, Nat.add_sub_cancel_left]
      rcases hplace with hlt | ⟨heq, -⟩
      · have := FlatText.lineStart_lt hl (show n < m by omega)
        omega
      · obtain rfl : n = m := by omega
        rw [List.getD_eq_getElem?_getD, hl, Option.getD_some]
        omega
    · exact hbraces '{' (by simp) ('\n' :: Text.indent source) hindent
    · exact hbraces '}' (by simp) ('\n' :: Text.indent source) hindent

/-- **The declaration of the shadow is put in front of the loop**, with nothing but blanks between
them; a brace in front of it opens a block. -/
lemma Declares.exists_flat {loop : Loop} {n k : Nat} {declaration : Text}
    (h : Declares lines loop k declaration d) (hline : loop.headerLine = start + n) {l : Text}
    (hl : (Loop.blankCode lines start)[n]? = some l) (hk : k < l.length)
    (hedge : Position.IsWordEdge lines ⟨loop.headerLine, k⟩) {front rest : Text}
    (htext : Text.ofLines (Loop.blankCode lines start) = front ++ rest)
    (hfront : front.length = FlatText.lineStart (Loop.blankCode lines start) n + k) :
    d.rank ≠ 2 ∧ d.IsPlaced (Loop.blankCode lines start) start ∧
      ∃ x gap opening blank : Text, front = x ++ gap ∧ Text.isBlankOnly gap = true ∧
        Text.startsWord x.reverse = false ∧
        (opening = "\x7b ".toList ∨ Text.isBlankOnly opening = true) ∧
        Text.isBlankOnly blank = true ∧
        d.flat (Loop.blankCode lines start) start =
          (x.length, opening ++ (declaration ++ blank)) := by
  have htake : front = (Text.ofLines (Loop.blankCode lines start)).take
      (FlatText.lineStart (Loop.blankCode lines start) n + k) := by
    rw [htext, ← hfront, List.take_left]
  rw [hline] at hedge
  have hword := hedge.startsWord_take hl hk.le
  rw [← htake] at hword
  rcases h with rfl | ⟨gap, code, hgap, -, rfl, hcode, hblank⟩
  · refine ⟨by simp [Edit.rank], ⟨n, l, hline, hl, ?_⟩, front, [],
      if loop.bareBody then "\x7b ".toList else [], [' '], (List.append_nil front).symm, rfl, hword, ?_,
      by decide, ?_⟩
    · rintro _ _ _ ⟨⟩
      exact hk.le
    · split
      · exact .inl rfl
      · exact .inr rfl
    · rw [Edit.flat, hline, Nat.add_sub_cancel_left, hfront]
  · set o := FlatText.lineStart (Loop.blankCode lines start) n with ho
    have hstart : Position.IsWordEdge lines ⟨start + n, 0⟩ := fun _ _ => rfl
    have hx : front.take o = (Text.ofLines (Loop.blankCode lines start)).take (o + 0) := by
      rw [htake, List.take_take, Nat.min_eq_left (by omega), Nat.add_zero]
    refine ⟨by simp [Edit.rank], ⟨n, l, hline, hl, by simp⟩, front.take o, front.drop o, gap,
      ['\n'], (List.take_append_drop o front).symm, Text.isBlankOnly_iff.mpr fun c hc => ?_,
      hx ▸ hstart.startsWord_take hl (Nat.zero_le _), .inr hgap, by decide, ?_⟩
    · obtain ⟨j, hj⟩ := List.mem_iff_getElem?.mp hc
      rw [List.getElem?_drop] at hj
      have hlt := (List.getElem?_eq_some_iff.mp hj).1
      rw [hline] at hcode
      refine Cap.isBlank_of_lineAt_strip hl hk.le (lineAt_eq_ok_iff.mpr hcode) hblank
        (Nat.le_add_right _ j) (by omega) c ?_
      rw [htext, List.getElem?_append_left hlt]
      exact hj
    · rw [Edit.flat, hline, Nat.add_sub_cancel_left, List.length_take, Nat.min_eq_left (by omega),
        List.append_assoc]

/-- **The code with a shadow.**  The declaration of the shadow stands in front of the outermost
loop.  A part of the text behind that place keeps the blocks around it open exactly if it did. -/
theorem exists_code_of_insert (hclosed : Comment.AreClosed lines) (htarget : target < lines.length)
    (hstart : start ≤ target) {loops : List Loop} {outermost : Loop}
    (hmost : Loop.outermost? loops = some outermost) {count : Nat}
    (hlies : outermost.LiesIn start count) (hstarts : StartsInFront lines start target outermost)
    (hname : Text.isIdent shown.name = true) (hsolid : Comment.isSolid shown.type = true)
    {front inner rest : Text}
    (hcode : Text.ofLines (Loop.blankCode lines start) = front ++ (inner ++ rest))
    (hplace : outermost.keyword =
      some (FlatText.locate ⟨Loop.blankCode lines start, start⟩ front.length))
    {marked : List Text} {shadow : Option Text}
    (h : insert {} lines target shown loops = .ok (marked, shadow)) :
    ∃ x gap opening blank inner' rest' : Text, front = x ++ gap ∧ Text.isBlankOnly gap = true ∧
      Text.startsWord x.reverse = false ∧
      (opening = "\x7b ".toList ∨ Text.isBlankOnly opening = true) ∧ Text.isBlankOnly blank = true ∧
      Text.ofLines (Loop.blankCode marked start) =
        x ++ (opening ++ ((shown.type ++ " _dbgShadow;") ++
          (blank ++ (gap ++ (inner' ++ rest'))))) ∧
      inner.Sublist inner' ∧ rest.Sublist rest' ∧
      (Text.KeepsOpenBehind inner' rest' ↔ Text.KeepsOpenBehind inner rest) := by
  obtain ⟨k, hkeyword, hink, hedge, hbefore⟩ := hstarts.keyword
  obtain ⟨d, a, rfl, -, hd, ha, hbeside⟩ := exists_isBeside_of_insert htarget hstart hmost hlies
    hkeyword hink hbefore hname hsolid h
  -- the offset of the keyword
  obtain ⟨n, hline⟩ := Nat.exists_eq_add_of_le hink.start_le
  dsimp only at hline
  obtain ⟨-, source', c, hsource', hc, hget⟩ := hink
  obtain ⟨hblank, -, -⟩ := Comment.blankFrom_split hsource'
  set l := (Comment.blankLine
    (Comment.isOpenAfter false (lines.take outermost.headerLine)) source').1
  have hl : (Loop.blankCode lines start)[n]? = some l := by
    rw [Loop.blankCode, List.getElem?_drop, ← hline]
    exact hblank
  have hcolumn := (List.getElem?_eq_some_iff.mp hget).1
  have hlength : front.length = FlatText.lineStart (Loop.blankCode lines start) n + k := by
    refine FlatText.locate_injective ⟨Loop.blankCode lines start, start⟩ ?_
    rw [← Option.some.inj (hkeyword.symm.trans hplace), hline]
    exact (FlatText.locate_lineStart hl hcolumn.le start).symm
  obtain ⟨hdrank, hdplaced, x, gap, opening, blank, rfl, hgap, hword, hopening, hblank, hdflat⟩ :=
    hd.exists_flat hline hl hcolumn hedge hcode hlength
  rw [hline] at hbefore
  obtain ⟨harank, haplaced, hle, hopens, hcloses⟩ := ha.exists_flat hname hl hcolumn hbefore
  have hbound := haplaced.flat_le
  have hmarked := blankCode_apply_pair hclosed hdrank harank hbeside (by simp [hdplaced, haplaced])
  set o := (a.flat (Loop.blankCode lines start) start).1
  set t := (a.flat (Loop.blankCode lines start) start).2
  rw [hcode] at hbound hmarked
  rw [← hlength] at hle
  refine ⟨x, gap, opening, blank, Edit.weaveFront [(o, t)] (x ++ gap).length inner,
    Edit.weave [(o, t)] ((x ++ gap).length + inner.length) rest, rfl, hgap, hword, hopening, hblank,
    ?_, Edit.sublist_weaveFront _ _ _, Edit.sublist_weave _ _ _,
    Edit.keepsOpenBehind_weave_iff hopens hcloses hle (by rwa [List.length_append] at hbound)⟩
  have hdeclaration : shown.type ++ " ".toList ++ ({} : Config).shadow ++ ";".toList =
      shown.type ++ " _dbgShadow;".toList := by
    rw [List.append_assoc, List.append_assoc]
    rfl
  rw [hdeclaration] at hdflat
  have hweave := Edit.weave_front (opening ++ (shown.type ++ " _dbgShadow;".toList ++ blank)) t hle
    (inner ++ rest)
  rw [hmarked, hdflat, List.append_assoc x]
  refine hweave.trans ?_
  rw [Edit.weave_append_eq]
  simp only [List.append_assoc]

/-- **No loop starts around the declaration of the shadow** behind a settled front. -/
lemma exists_bodyEnd_of_declaration {prior lead opening type rest : Text} (hprior : prior.IsSettled)
    (hlead : lead.IsStretch) (hword : Text.startsWord (prior ++ lead).reverse = false)
    (hopening : opening = "\x7b ".toList ∨ Text.isBlankOnly opening = true) (htype : type.IsStretch)
    {span : LoopSpan}
    (h : span ∈ Loop.spans (prior ++ lead ++ opening ++ (type ++ " _dbgShadow;" ++ rest)))
    (hlt : span.keyword < (prior ++ lead ++ opening ++ (type ++ " _dbgShadow;")).length) :
    ∃ e ∈ span.bodyEnd, e < prior.length := by
  obtain ⟨htrue, -⟩ := Loop.isTrue_of_mem_spans h
  have hname : Text.IsStretch (type ++ " _dbgShadow".toList) :=
    htype.append (by decide) (.inr (by decide))
  have hkeyword : span.keyword < prior.length := by
    rcases hopening with rfl | hblank
    · -- the declaration is a stretch, and so is what stands in front of the brace
      have hsecond : span.IsTrue ((prior ++ lead ++ ['{']) ++
          ((" ".toList ++ (type ++ " _dbgShadow".toList)) ++ ';' :: rest)) := by
        simpa using htrue
      have hbefore := hsecond.keyword_lt_of_stretch (by decide)
        (.append (by decide : Text.IsStretch " ".toList) hname (.inl (by decide)))
        (by simpa using hlt)
      have hfirst : span.IsTrue (prior ++ (lead ++ '{' ::
          ((" ".toList ++ (type ++ " _dbgShadow".toList)) ++ ';' :: rest))) := by
        simpa using htrue
      exact hfirst.keyword_lt_of_stretch (by decide) hlead (by simpa using hbefore)
    · have hseam : Text.startsWord lead.reverse = false := by
        rw [List.reverse_append] at hword
        cases hrev : lead.reverse with
        | nil => rfl
        | cons c r =>
          rw [hrev] at hword
          exact hword
      have hstretch : Text.IsStretch (lead ++ (opening ++ (type ++ " _dbgShadow".toList))) :=
        hlead.append (.append (Text.isStretch_of_isBlankOnly hblank) hname
          (.inl (Text.startsWord_reverse_of_isBlankOnly hblank))) (.inl hseam)
      have hall : span.IsTrue (prior ++ ((lead ++ (opening ++ (type ++ " _dbgShadow".toList))) ++
          ';' :: rest)) := by
        simpa using htrue
      exact hall.keyword_lt_of_stretch (by decide) hstretch (by simpa using hlt)
  rw [List.append_assoc, List.append_assoc] at h
  exact LoopSpan.exists_bodyEnd_of_isSettled hprior h hkeyword

end Shadow

/-! ### The code that is kept -/

/-- Lines that count as others are closed as those are. -/
lemma Comment.AreClosed.of_forall₂ {ls ls' : List Text} (h : AreClosed ls)
    (hcounts : List.Forall₂ CountsAs ls ls') : AreClosed ls' := by
  induction hcounts with
  | nil => exact h
  | @cons l l' ls ls' hcount _ ih =>
    have htail := ih fun x hx => h x (List.mem_cons_of_mem l hx)
    intro x hx
    rcases List.mem_cons.mp hx with rfl | hx
    · exact (hcount false).2.trans (h l List.mem_cons_self)
    · exact htail x hx

/-- A stretch without its first blanks, up to the `;`, starts with ink. -/
lemma Text.exists_head_trimLeft (t : Text) :
    ∃ c ∈ (trimLeft t ++ [';']).head?, isBlank c = false := by
  cases htrim : trimLeft t with
  | nil => exact ⟨';', rfl, by decide⟩
  | cons c u =>
    have hc := List.head?_dropWhile_not isBlank t
    rw [show t.dropWhile isBlank = c :: u from htrim] at hc
    exact ⟨c, rfl, by simpa using hc⟩

namespace Variant

variable {settings : Settings} {lines kept : List Text} {function : Signature} {statementEnd : Nat}
  {shown : Variable} {loops : List Loop} {prior lead inner rest value : Text}

/-- **The statement outside of loops** stands in the code that is kept as it did in the source. -/
lemma exists_code_of_truncated_nil (hprior : prior.IsSettled) (hlead : lead.IsStretch)
    (hcode : Text.ofLines (Loop.blankCode (lines.take (statementEnd + 1)) function.startLine) =
      prior ++ (lead ++ ';' :: rest))
    (h : truncated {} settings lines function statementEnd shown [] = .ok (kept, value)) :
    ∃ front' rest', Text.ofLines (Loop.blankCode kept function.startLine) =
        front' ++ ((Text.trimLeft lead ++ [';']) ++ rest') ∧
      prior.Sublist front' ∧ rest.Sublist rest' ∧ (settings.caps = [] → rest' = rest) ∧
      Text.braceDelta prior ≤ Text.braceDelta front' ∧
      (Text.KeepsOpenBehind [] rest → Text.KeepsOpenBehind [] rest') := by
  have hsplit := Text.indent_append_trimLeft lead
  have hindent := Text.isStretch_of_isBlankOnly (Text.isBlankOnly_indent lead)
  have hmark : Text.ofLines (Loop.blankCode (lines.take (statementEnd + 1)) function.startLine) =
      (prior ++ Text.indent lead) ++ ((Text.trimLeft lead ++ [';']) ++ ([] ++ rest)) := by
    rw [hcode]
    conv_lhs => rw [← hsplit]
    simp
  obtain ⟨front', inner', rest', hresult, hfront, -, hrest, hnil, hcaps, hdepth, hkeeps⟩ :=
    Cap.exists_keepsOpenBehind_of_apply (apply_of_truncated h) hmark
      (Text.exists_head_trimLeft lead) ⟨';', by simp, by decide⟩ fun span hspan hlt => by
        rw [hcode] at hspan
        obtain ⟨htrue, -⟩ := Loop.isTrue_of_mem_spans hspan
        have hkeyword := htrue.keyword_lt_of_stretch (by decide) hlead (by
          rw [← hsplit]
          simpa using hlt)
        obtain ⟨e, he, hle⟩ := LoopSpan.exists_bodyEnd_of_isSettled hprior hspan hkeyword
        exact ⟨e, he, by rw [List.length_append]; omega⟩
  obtain rfl := hnil rfl
  refine ⟨front', rest', hresult, (List.sublist_append_left _ _).trans hfront, hrest,
    fun h => (hcaps h).2, ?_, hkeeps⟩
  rwa [Text.braceDelta_append, hindent.braceDelta, add_zero] at hdepth

/-- **The shadow of a value** is declared in the code that is kept in front of the outermost loop.
-/
lemma exists_code_of_truncated_cons (hclosed : Comment.AreClosed lines)
    (hcut : IsCut lines function statementEnd loops) {outermost : Loop}
    (hmost : Loop.outermost? loops = some outermost)
    (hstarts : Shadow.StartsInFront (lines.take (keptLines lines.length statementEnd loops))
      function.startLine statementEnd outermost)
    (hname : Text.isIdent shown.name = true) (hsolid : Comment.isSolid shown.type = true)
    (htype : shown.type.IsStretch) (hhead : ∃ c ∈ shown.type.head?, isBlank c = false)
    (hprior : prior.IsSettled) (hlead : lead.IsStretch)
    (hcode : Text.ofLines (Loop.blankCode (lines.take (keptLines lines.length statementEnd loops))
      function.startLine) = prior ++ lead ++ (inner ++ rest))
    (hplace : outermost.keyword = some (FlatText.locate ⟨Loop.blankCode
      (lines.take (keptLines lines.length statementEnd loops)) function.startLine,
        function.startLine⟩ (prior ++ lead).length))
    (h : truncated {} settings lines function statementEnd shown loops = .ok (kept, value)) :
    ∃ front' inner' rest', Text.ofLines (Loop.blankCode kept function.startLine) =
        front' ++ ((shown.type ++ " _dbgShadow;") ++ (inner' ++ rest')) ∧
      prior.Sublist front' ∧ inner.Sublist inner' ∧ rest.Sublist rest' ∧
      Text.braceDelta prior ≤ Text.braceDelta front' ∧
      (Text.KeepsOpenBehind inner rest → Text.KeepsOpenBehind inner' rest') ∧
      (settings.caps = [] → Text.KeepsOpenBehind inner' rest' →
        Text.KeepsOpenBehind inner rest) := by
  obtain ⟨⟨marked, shadow⟩, hinsert, h⟩ := bind_eq_ok_iff.mp h
  obtain ⟨capped, hcapped, h⟩ := bind_eq_ok_iff.mp h
  obtain ⟨rfl, -⟩ := Prod.mk.inj (Except.ok.inj h)
  obtain ⟨x, gap, opening, blank, inner', rest', heq, hgap, hword, hopening, hblank, hmarked,
      hinner, hrest, hiff⟩ := Shadow.exists_code_of_insert
    (fun l hl => hclosed l (List.mem_of_mem_take hl)) hcut.lt_length hcut.start hmost
    (hcut.liesIn outermost (Loop.mem_of_outermost? hmost)) hstarts hname hsolid hcode hplace hinsert
  obtain ⟨lead', rfl, rfl⟩ := hprior.exists_of_append_eq heq hgap
  have hlead' := hlead.of_append_blank hgap
  have hdelta : ∀ {g : Text}, Text.isBlankOnly g = true → Text.braceDelta g = 0 := fun hg =>
    (Text.isStretch_of_isBlankOnly hg).braceDelta
  have hmark : Text.ofLines (Loop.blankCode marked function.startLine) =
      (prior ++ lead' ++ opening) ++ ((shown.type ++ " _dbgShadow;".toList) ++
        ((blank ++ (gap ++ inner')) ++ rest')) := by
    rw [hmarked]
    simp only [List.append_assoc]
  obtain ⟨front'', inner'', rest'', hresult, hfront, hinner', hrest', -, hcaps, hdepth, hkeeps⟩ :=
    Cap.exists_keepsOpenBehind_of_apply hcapped hmark (by
      obtain ⟨c, hc, hink⟩ := hhead
      obtain ⟨u, hu⟩ := List.head?_eq_some_iff.mp hc
      exact ⟨c, by rw [hu]; rfl, hink⟩) ⟨';', by simp, by decide⟩ fun span hspan hlt => by
        rw [hmark] at hspan
        obtain ⟨e, he, hle⟩ :=
          Shadow.exists_bodyEnd_of_declaration hprior hlead' hword hopening htype hspan hlt
        exact ⟨e, he, by simp only [List.length_append]; omega⟩
  have hkeepsInner : Text.KeepsOpenBehind (blank ++ (gap ++ inner')) rest' ↔
      Text.KeepsOpenBehind inner rest := by
    rw [Text.keepsOpenBehind_append_iff (hdelta hblank),
      Text.keepsOpenBehind_append_iff (hdelta hgap), hiff]
  refine ⟨front'', inner'', rest'', hresult, ?_, ?_, hrest.trans hrest', ?_,
    fun hopen => hkeeps (hkeepsInner.mpr hopen), fun hnone hopen => ?_⟩
  · exact ((List.sublist_append_left _ _).trans (List.sublist_append_left _ _)).trans hfront
  · exact (hinner.trans ((List.sublist_append_right _ _).trans
      (List.sublist_append_right _ _))).trans hinner'
  · have hopens : 0 ≤ Text.braceDelta opening := by
      rcases hopening with rfl | hopening
      · decide
      · exact (hdelta hopening).ge
    rw [Text.braceDelta_append, Text.braceDelta_append, hlead'.braceDelta] at hdepth
    omega
  · obtain ⟨rfl, rfl⟩ := hcaps hnone
    exact hkeepsInner.mp hopen

/-- **The code that is kept**, with the statement or the declaration of its shadow. -/
theorem exists_code_of_truncated (hclosed : Comment.AreClosed lines)
    (hcut : IsCut lines function statementEnd loops)
    (hstarts : ∀ loop ∈ loops, Shadow.StartsInFront
      (lines.take (keptLines lines.length statementEnd loops)) function.startLine statementEnd loop)
    (hname : Text.isIdent shown.name = true) (hsolid : Comment.isSolid shown.type = true)
    (htype : shown.type.IsStretch) (hhead : ∃ c ∈ shown.type.head?, isBlank c = false)
    (hprior : prior.IsSettled) (hlead : lead.IsStretch) {code : List Text}
    (hcode : Loop.blankCode (lines.take (keptLines lines.length statementEnd loops))
      function.startLine = code)
    (hkept : Text.ofLines code =
      prior ++ lead ++ ((if loops = [] then [';'] else []) ++ (inner ++ rest)))
    (hinner : loops = [] → inner = [])
    (hplace : ∀ outermost ∈ Loop.outermost? loops, outermost.keyword =
      some (FlatText.locate ⟨code, function.startLine⟩ (prior ++ lead).length))
    (h : truncated {} settings lines function statementEnd shown loops = .ok (kept, value)) :
    ∃ front' inner' rest', Text.ofLines (Loop.blankCode kept function.startLine) =
        front' ++
          ((if loops = [] then Text.trimLeft lead ++ [';'] else shown.type ++ " _dbgShadow;") ++
            (inner' ++ rest')) ∧
      prior.Sublist front' ∧ inner.Sublist inner' ∧ rest.Sublist rest' ∧
      (loops = [] → inner' = []) ∧ Text.braceDelta prior ≤ Text.braceDelta front' ∧
      (Text.KeepsOpenBehind inner rest → Text.KeepsOpenBehind inner' rest') ∧
      (settings.caps = [] → Text.KeepsOpenBehind inner' rest' →
        Text.KeepsOpenBehind inner rest) := by
  subst hcode
  cases hmost : Loop.outermost? loops with
  | none =>
    obtain rfl := Loop.eq_nil_of_outermost? hmost
    obtain rfl := hinner rfl
    obtain ⟨front', rest', hresult, hfront, hrest, hcaps, hdepth, hkeeps⟩ :=
      exists_code_of_truncated_nil hprior hlead (by simpa [keptLines, hmost] using hkept) h
    exact ⟨front', [], rest', hresult, hfront, List.nil_sublist _, hrest, fun _ => rfl, hdepth,
      hkeeps, fun hnone hopen => hcaps hnone ▸ hopen⟩
  | some outermost =>
    have hne : loops ≠ [] := List.ne_nil_of_mem (Loop.mem_of_outermost? hmost)
    rw [if_neg hne, List.nil_append] at hkept
    obtain ⟨front', inner', rest', hresult, hfront, hsublist, hrest, hdepth, hkeeps, hconverse⟩ :=
      exists_code_of_truncated_cons hclosed hcut hmost (hstarts _ (Loop.mem_of_outermost? hmost))
        hname hsolid htype hhead hprior hlead hkept (hplace outermost hmost) h
    rw [if_neg hne]
    exact ⟨front', inner', rest', hresult, hfront, hsublist, hrest, fun h => absurd h hne, hdepth,
      hkeeps, hconverse⟩

/-- **The header of a copy** leaves the code behind the first `;` or brace as it is, and the blocks
around it. -/
lemma exists_code_of_renamed {line type name : Text} {body : List Text}
    (htype : Comment.isSolid type = true) (hname : Comment.isSolid name = true) {front rest : Text}
    (hends : ∃ c ∈ front, c ∈ [';', '{', '}'])
    (hcode : Text.ofLines (Comment.blankFrom false (line :: body)) = front ++ rest) :
    ∃ front', Text.ofLines (Comment.blankFrom false (renameHeader line type name :: body)) =
        front' ++ rest ∧ Text.braceDelta front' = Text.braceDelta front := by
  obtain ⟨c, hmem, hc⟩ := hends
  obtain ⟨u, z, rfl⟩ := List.append_of_mem hmem
  have hfirst : Text.ofLines (Comment.blankFrom false (line :: body)) =
      (u ++ [c]) ++ (z ++ rest) := by
    simpa using hcode
  obtain ⟨front', -, hrenamed⟩ :=
    exists_code_of_renameHeader htype hname ⟨u, c, [], rfl, hc, rfl⟩ hfirst
  refine ⟨front' ++ z, by rw [hrenamed, List.append_assoc], ?_⟩
  -- the renamed lines open as many blocks as the lines
  obtain ⟨hdelta, hflag⟩ := countsAs_renameHeader line htype hname false
  have htotal := congrArg Text.braceDelta hcode
  have htotal' := congrArg Text.braceDelta hrenamed
  rw [Text.braceDelta_ofLines, Comment.blankFrom] at htotal htotal'
  simp only [Text.bracesOf_cons, hflag, hdelta, Text.braceDelta_append]
    at htotal htotal' ⊢
  omega

/-- **The lines of an entry point in place.** -/
lemma exists_lines_of_entryPoint {text : Text} (hlines : ∀ l ∈ lines, '\n' ∉ l)
    (hshown : shown.IsPlain)
    (h : entryPoint {} settings lines function statementEnd shown loops = .ok text) :
    ∃ (kept : List Text) (value : Text) (after : List Text),
      truncated {} settings lines function statementEnd shown loops = .ok (kept, value) ∧
      Text.lines text =
        kept ++ ((visibleLines {} settings function shown value).flatMap Text.lines ++ after) := by
  obtain ⟨kept, value, closers, closers', htruncated, -, rfl⟩ := exists_of_entryPoint h
  obtain ⟨hkept, -⟩ := not_mem_of_truncated Config.isPlain_default hlines hshown htruncated
  refine ⟨kept, value, (List.replicate closers ['}'] ++
    (lines.drop (function.stopLine lines.length) ++
    List.replicate closers' ['}'])).flatMap Text.lines, htruncated, ?_⟩
  rw [Text.lines_ofLines (by simp [visibleLines_ne_nil]), List.flatMap_append,
    Text.flatMap_lines hkept, List.flatMap_append]

/-- **The lines of a truncated copy**, between the helper and an entry point. -/
lemma exists_lines_of_copy {text : Text} {line : Nat} (hlines : ∀ l ∈ lines, '\n' ∉ l)
    (hname : Text.isIdent function.name = true) (hshown : shown.IsPlain)
    (hcapture : IsCapturable lines line shown)
    (h : helper {} settings lines function line shown loops (some statementEnd) = .ok text) :
    ∃ (working own kept : List Text) (value header : Text) (body after : List Text),
      captureReturn {} lines line shown = .ok working ∧ functionLines lines function = .ok own ∧
      truncated {} settings working function statementEnd shown loops = .ok (kept, value) ∧
      kept.drop function.startLine = header :: body ∧
      Text.lines text = (linesBefore {} lines function ++ (own ++ [[]])) ++
        ((renameHeader header shown.type (({} : Config).copyStem ++ function.name) :: body) ++
          ([({} : Config).indent ++ "return " ++ value ++ ";"] ++ after)) := by
  obtain ⟨working, own, copy, closers', hworking, hcopy, hown, htext⟩ :=
    exists_lines_of_helper hlines hname hshown hcapture h
  obtain ⟨kept, value, header, body, closers, htruncated, hdrop, -, rfl⟩ :=
    exists_of_debugCopy hcopy
  generalize (callingEntryPoint {} settings (({} : Config).copyStem ++ function.name)
    function.parameters shown.type).flatMap Text.lines ++ List.replicate closers' ['}'] =
    entry at htext
  refine ⟨working, own, kept, value, header, body, List.replicate closers ['}'] ++ ([] :: entry),
    hworking, hown, htruncated, hdrop, ?_⟩
  rw [htext, List.append_assoc (_ :: body), List.append_assoc (linesBefore {} lines function),
    List.append_assoc own]
  rfl

end Variant

/-- The type of a variable starts with a word. -/
lemma Signature.KnowsType.exists_head {lines : List Text} {function : Signature} {type : Text}
    (h : function.KnowsType type) (hmem : function ∈ Outline.functions {} lines) :
    ∃ c ∈ type.head?, isBlank c = false := by
  have hident : ∀ {w : Text}, Text.isIdent w = true → ∀ t : Text,
      ∃ c ∈ (w ++ t).head?, isBlank c = false := by
    intro w hw t
    obtain ⟨c, u, rfl⟩ := List.exists_cons_of_ne_nil (Text.ne_nil_of_isIdent hw)
    exact ⟨c, rfl, isBlank_eq_false_of_isWordChar
      (Text.isWordChar_of_isIdent hw c List.mem_cons_self)⟩
  rcases h with hkeyword | rfl | ⟨p, hp, rfl⟩
  · have hall : ∀ t ∈ GlslType.variableKeywords, Text.isIdent t = true := by decide
    simpa using hident (hall type hkeyword) []
  · simpa using hident (Outline.isPlain_of_mem_functions hmem).returnType []
  · obtain ⟨item, hitem⟩ := Outline.exists_of_mem_parameters hmem hp
    obtain ⟨type, suffix, htype, -, -, heq⟩ := Signature.exists_of_parameter? hitem
    rw [heq]
    exact hident htype _

namespace Probe

/-- The loops around a statement start in front of it in the lines that are kept. -/
lemma startsInFront_of_front {lines working : List Text} {function : Signature} {line n : Nat}
    {s : Statement} {loops : List Loop}
    (hfind : Statement.find ({} : Config).maxStatementLines (Comment.strip lines) line =
      .ok (some s)) (htake : working.take s.startLine = lines.take s.startLine)
    (hstart : function.startLine ≤ s.endLine) (hn : s.endLine < n)
    (hloops : loopsAround {} lines function line = .ok loops)
    (hfront : (∀ loop ∈ loops, loop.headerLine < s.startLine) ∨ working = lines ∧
      Statement.endAt ({} : Config).maxStatementLines lines s.endLine =
        .ok (some ⟨s.endLine, s.endColumn⟩)) :
    ∀ loop ∈ loops, Shadow.StartsInFront (working.take n) function.startLine s.endLine loop := by
  rcases hfront with hfront | ⟨rfl, hend⟩
  · intro loop hloop
    obtain ⟨-, -, -, hfirst, hline, -, -⟩ := Statement.bounds_of_find hfind
    have hfound := mem_find_of_loopsAround hloops loop hloop
    have hlt := hfront loop hloop
    have hkept : (working.take n).take s.startLine = lines.take s.startLine := by
      rw [List.take_take, Nat.min_eq_left (by omega), htake]
    obtain ⟨hbefore, k, hkeyword, hcode⟩ :=
      Loop.startsBefore_of_mem_find hfound hlt (hfirst.trans hline) hkept
    refine ⟨k, hkeyword, hcode, fun code hcode' => ?_, .inl hbefore⟩
    refine (Loop.hasEdges_of_mem_find hfound).keyword _ hkeyword code ?_
    have hsame := congrArg (fun ls => (Comment.blankFrom false ls)[loop.headerLine]?) hkept
    rw [Comment.blankFrom_take (working.take n), Comment.blankFrom_take lines,
      List.getElem?_take_of_lt hlt, List.getElem?_take_of_lt hlt] at hsame
    exact hsame ▸ hcode'
  · exact startsInFront_of_loopsAround hfind hend hstart hn hloops

/-- **A value is read in the blocks that are around its statement, unless its last line closes
them.**  Let no line of the source end inside a block comment.  The lines that are kept are a
settled front, what stands between it and the `;` of the statement or the outermost loop around it,
and the rest; `inner` is a part of the rest such as that loop.  In the answer the lines that show
the value follow the lines of the function with the statement, or with the declaration of the shadow
in front of the loop; these are at least as deep as the settled front.  If the rest behind `inner`
closes no block around that place then neither does the code up to the lines that show the value,
and without caps that is the only case. -/
theorem exists_scope_of_instrument {settings : Variant.Settings} {source answer : Text} {line : Int}
    {shown : Option Text} {function : Signature} {target last : Nat} {v : Variable} {s : Statement}
    {loops : List Loop} {working code : List Text} {prior lead inner rest : Text}
    (hplan : plan {} (Text.lines source) line shown = .ok (.value function target v last))
    (hanswer : instrument {} settings source line shown = .ok (some answer))
    (hfind : Statement.find ({} : Config).maxStatementLines (Comment.strip (Text.lines source))
      target = .ok (some s))
    (hloops : loopsAround {} (Text.lines source) function target = .ok loops)
    (hworking : (if function.isEntryPoint {} then .ok (Text.lines source)
      else Variant.captureReturn {} (Text.lines source) target v) = .ok working)
    (hfront : (∀ loop ∈ loops, loop.headerLine < s.startLine) ∨ working = Text.lines source ∧
      Statement.endAt ({} : Config).maxStatementLines (Text.lines source) s.endLine =
        .ok (some ⟨s.endLine, s.endColumn⟩))
    (hclosed : Comment.AreClosed (Text.lines source)) (hsolid : Comment.isSolid v.type = true)
    (htype : v.type.IsStretch)
    (hcode : Loop.blankCode (working.take (Variant.keptLines working.length s.endLine loops))
      function.startLine = code)
    (hkept : Text.ofLines code =
      prior ++ lead ++ ((if loops = [] then [';'] else []) ++ (inner ++ rest)))
    (hprior : prior.IsSettled) (hlead : lead.IsStretch)
    (hinner : loops = [] → inner = [])
    (hplace : ∀ outermost ∈ Loop.outermost? loops, outermost.keyword =
      some (FlatText.locate ⟨code, function.startLine⟩ (prior ++ lead).length)) :
    ∃ (own body after : List Text) (front' inner' rest' : Text),
      (function.isEntryPoint {} = false →
        Variant.functionLines (Text.lines source) function = .ok own) ∧
      Text.lines answer =
        (if function.isEntryPoint {} then (Text.lines source).take function.startLine
          else Variant.linesBefore {} (Text.lines source) function ++ (own ++ [[]])) ++ (body ++
        ((if function.isEntryPoint {} then (Variant.visibleLines {} settings function v
            (if loops = [] then v.name else ({} : Config).shadow)).flatMap Text.lines
          else [({} : Config).indent ++ "return " ++
            (if loops = [] then v.name else ({} : Config).shadow) ++ ";"]) ++ after)) ∧
      Text.ofLines (Comment.blankFrom false body) =
        front' ++ ((if loops = [] then Text.trimLeft lead ++ [';'] else v.type ++ " _dbgShadow;") ++
          (inner' ++ rest')) ∧
      inner.Sublist inner' ∧ rest.Sublist rest' ∧ (loops = [] → inner' = []) ∧
      Text.braceDelta prior ≤ Text.braceDelta front' ∧
      (Text.KeepsOpenBehind inner rest → Text.KeepsOpenBehind inner' rest') ∧
      (settings.caps = [] → Text.KeepsOpenBehind inner' rest' →
        Text.KeepsOpenBehind inner rest) := by
  have hrun := hanswer
  rw [instrument_eq_run, hplan] at hrun
  rcases exists_plan (Text.lines source) line shown with
    hnothing | ⟨target', function', p, -, hfunction, hplanLine, hplan', hfor⟩
  · exact absurd (hplan.symm.trans hnothing) (by simp)
  obtain rfl := Except.ok.inj (hplan.symm.trans hplan')
  cases hfor with
  | @value _ s' hfind' hshown hknown hcapture =>
  obtain rfl := Option.some.inj (Except.ok.inj (hfind.symm.trans hfind'))
  have hmem := Outline.mem_of_enclosingIn? hfunction
  have hlines : ∀ l ∈ Text.lines source, '\n' ∉ l := fun l hl => Text.not_mem_lines hl
  obtain ⟨loops', hloops', hshow⟩ := bind_eq_ok_iff.mp (map_some_eq_ok_iff.mp hrun)
  obtain rfl := Except.ok.inj (hloops.symm.trans hloops')
  have hcut := isCut_of_find hfunction hfind hloops
  have hcounts : List.Forall₂ Comment.CountsAs (Text.lines source) working ∧
      working.take s.startLine = (Text.lines source).take s.startLine := by
    split at hworking
    · obtain rfl := Except.ok.inj hworking
      exact ⟨List.forall₂_same.mpr fun l _ => .refl l, rfl⟩
    · exact Variant.forall₂_of_captureReturn hshown hsolid hcapture hfind hworking
  have hlength : (Text.lines source).length = working.length := hcounts.1.length_eq
  have hcut' : Variant.IsCut working function s.endLine loops :=
    ⟨hcut.start, hlength ▸ hcut.bound, hlength ▸ hcut.liesIn, hcut.headerLine⟩
  have hclosed' := hclosed.of_forall₂ hcounts.1
  have hstarts := startsInFront_of_front hfind hcounts.2 hcut.start hcut'.lt_keptLines hloops hfront
  -- the code of the function as far as it is kept
  have hbody : ∀ {kept : List Text} {value : Text},
      Variant.truncated {} settings working function s.endLine v loops = .ok (kept, value) →
      kept.take function.startLine = working.take function.startLine ∧
      Loop.blankCode kept function.startLine =
        Comment.blankFrom false (kept.drop function.startLine) := by
    intro kept value htruncated
    have htake := Variant.take_of_truncated hcut'.liesIn hcut'.start htruncated
    exact ⟨htake, Loop.blankCode_of_take (htake ▸ hclosed'.isOpenAfter_take _)⟩
  cases hentry : function.isEntryPoint {} with
  | true =>
    rw [if_pos hentry] at hworking hshow
    obtain rfl := Except.ok.inj hworking
    obtain ⟨kept, value, after, htruncated, hanswerLines⟩ :=
      Variant.exists_lines_of_entryPoint hlines hshown hshow
    obtain ⟨front', inner', rest', hresult, -, hinner', hrest, hnil, hdepth, hkeeps, hconverse⟩ :=
      Variant.exists_code_of_truncated hclosed hcut hstarts hshown.name hsolid htype
        (hknown.exists_head hmem) hprior hlead hcode hkept hinner hplace htruncated
    obtain ⟨htake, hblank⟩ := hbody htruncated
    obtain rfl := Variant.value_of_truncated htruncated
    refine ⟨[], kept.drop function.startLine, after, front', inner', rest', by simp, ?_,
      hblank ▸ hresult, hinner', hrest, hnil, hdepth, hkeeps, hconverse⟩
    rw [hanswerLines, if_pos rfl, if_pos rfl, ← htake, ← List.append_assoc (kept.take _),
      List.take_append_drop]
  | false =>
    have hhelper := Bool.eq_false_iff.mp hentry
    rw [if_neg hhelper] at hworking hshow
    have hident := (Outline.isPlain_of_mem_functions hmem).name
    obtain ⟨working', own, kept, value, header, body, after, hworking', hown, htruncated, hdrop,
      hanswerLines⟩ := Variant.exists_lines_of_copy hlines hident hshown hcapture hshow
    obtain rfl := Except.ok.inj (hworking.symm.trans hworking')
    obtain ⟨front', inner', rest', hresult, hends, hinner', hrest, hnil, hdepth, hkeeps, hconverse⟩ :=
      Variant.exists_code_of_truncated hclosed' hcut' hstarts hshown.name hsolid htype
        (hknown.exists_head hmem) hprior hlead hcode hkept hinner hplace htruncated
    rw [(hbody htruncated).2, hdrop] at hresult
    obtain ⟨c, hc, hlast⟩ := hprior.exists_last
    obtain ⟨front'', hrenamed, hdelta⟩ := Variant.exists_code_of_renamed hsolid
      (Comment.isSolid_of_isIdent (Variant.isIdent_copyName hident).1)
      ⟨c, hends.subset (List.mem_of_getLast? hlast), hc⟩ hresult
    obtain rfl := Variant.value_of_truncated htruncated
    exact ⟨own, _, after, front'', inner', rest', fun _ => hown, hanswerLines, hrenamed, hinner',
      hrest, hnil, hdelta ▸ hdepth, hkeeps, hconverse⟩

/-- An entry point with a loop that is the body of a condition, and a statement on the line on which
the loop ends. -/
def conditionalLoop : Text :=
  Text.ofLines
    ["void mainImage(out vec4 O, in vec2 U) \x7b", "  float s = 0.0;", "  if (U.x > 0.5)",
      "    for (int i = 0; i < 4; i++) \x7b", "      float a = s + 1.0; // step", "      s += a;",
      "    \x7d s *= 2.0;", "  O = vec4(s);", "\x7d"]

/-- The entry point, as it is read from its header. -/
def conditionalLoopSignature : Signature :=
  { name := "mainImage"
    returnType := "void"
    parameters := [.ofType {} "O" "vec4" .output, .ofType {} "U" "vec2" .input]
    startLine := 0
    endLine := some 8 }

/-- The loop, as it is found. -/
def conditionalLoopFound : Loop :=
  { headerLine := 3
    headerText := "for (int i = 0; i < 4; i++)"
    endLine := some 6
    parenClose := some ⟨3, 30⟩
    brace := some ⟨3, 32⟩
    bodyEnd := some ⟨6, 4⟩
    keyword := some ⟨3, 4⟩
    bareBody := true }

/-- The blocks around the declaration of the shadow are open where the shadow is shown. -/
theorem exists_scope_of_instrument_conditional :
    ∃ (answer : Text) (body after : List Text) (front inner rest : Text),
      instrument {} { caps := [(0, 2)] } conditionalLoop 4 none = .ok (some answer) ∧
      Text.lines answer = body ++
        ("  O = vec4(vec3(_dbgShadow), 1.0); // Debug: visualize float as grayscale".toList :: after) ∧
      Text.ofLines (Comment.blankFrom false body) =
        front ++ ("float _dbgShadow;" ++ (inner ++ rest)) ∧
      " s *= 2.0;".toList.Sublist rest ∧ 1 ≤ Text.braceDelta front ∧
      Text.KeepsOpenBehind inner rest := by
  have hplan : plan {} (Text.lines conditionalLoop) 4 none =
      .ok (.value conditionalLoopSignature 4 ⟨"a", "float"⟩ 4) :=
        eq_ok_of_toOption (by decide +kernel)
  have hfind : Statement.find ({} : Config).maxStatementLines
      (Comment.strip (Text.lines conditionalLoop)) 4 =
        .ok (some ⟨"float a = s + 1.0;", 4, 4, 23⟩) := rfl
  have hsome : (instrument {} { caps := [(0, 2)] } conditionalLoop 4 none).toOption.join.isSome =
      true := by decide +kernel
  obtain ⟨answer, hanswer⟩ := Option.isSome_iff_exists.mp hsome
  have hok := eq_ok_of_toOption (Option.join_eq_some_iff.mp hanswer)
  have hloops : loopsAround {} (Text.lines conditionalLoop) conditionalLoopSignature 4 =
      .ok [conditionalLoopFound] := eq_ok_of_toOption (by decide +kernel)
  have hkept : Text.ofLines (Loop.blankCode ((Text.lines conditionalLoop).take 7) 0) =
      "void mainImage(out vec4 O, in vec2 U) \x7b\n  float s = 0.0;".toList ++
        "\n  if (U.x > 0.5)\n    ".toList ++ ([] ++
          ("for (int i = 0; i < 4; i++) \x7b\n      float a = s + 1.0; \n      s += a;\n    \x7d".toList ++
            " s *= 2.0;".toList)) := by decide +kernel
  obtain ⟨own, body, after, front, inner, rest, -, hlines, hcode, -, hrest, -, hdepth, hkeeps, -⟩ :=
    exists_scope_of_instrument hplan hok hfind hloops rfl (.inl (by decide)) (by decide +kernel)
      (by decide) (by decide) rfl hkept (by decide +kernel) (by decide +kernel) (by simp)
      (by decide +kernel)
  have hentry : conditionalLoopSignature.isEntryPoint {} = true := by decide +kernel
  have hshown : (Variant.visibleLines {} { caps := [(0, 2)] } conditionalLoopSignature
      ⟨"a", "float"⟩ ({} : Config).shadow).flatMap Text.lines =
      ["  O = vec4(vec3(_dbgShadow), 1.0); // Debug: visualize float as grayscale".toList] := by
    decide +kernel
  rw [if_neg (List.cons_ne_nil _ _)] at hlines hcode
  rw [if_pos hentry, if_pos hentry, hshown] at hlines
  have hone : Text.braceDelta
      "void mainImage(out vec4 O, in vec2 U) \x7b\n  float s = 0.0;".toList = 1 := by
    decide +kernel
  exact ⟨answer, body, after, front, inner, rest, hok, hlines, hcode, hrest, hone ▸ hdepth,
    hkeeps (by decide +kernel)⟩

/-- An entry point with a statement on the line on which its block ends. -/
def closedBlock : Text :=
  Text.ofLines
    ["void mainImage(out vec4 O, in vec2 U) \x7b", "  if (U.x > 0.5) \x7b",
      "    float a = 1.0; \x7d", "  O = vec4(1.0);", "\x7d"]

/-- The answer for the statement. -/
def closedBlockAnswer : Text :=
  Text.ofLines
    ["void mainImage(out vec4 O, in vec2 U) \x7b", "  if (U.x > 0.5) \x7b",
      "    float a = 1.0; \x7d",
      "  O = vec4(vec3(a), 1.0); // Debug: visualize float as grayscale", "\x7d"]

/-- The value is shown behind the block that declares it. -/
theorem exists_scope_of_instrument_closed :
    instrument {} {} closedBlock 2 none = .ok (some closedBlockAnswer) ∧
      Text.ofLines (Comment.blankFrom false ((Text.lines closedBlockAnswer).take 3)) =
        "void mainImage(out vec4 O, in vec2 U) \x7b\n  if (U.x > 0.5) \x7b\n    " ++
          ("float a = 1.0;" ++ " \x7d") ∧
      ¬Text.KeepsOpenBehind [] " \x7d" :=
  ⟨eq_ok_of_toOption (by decide +kernel), by decide +kernel, by decide +kernel⟩

end Probe

end ShaderProbe
