import Mathlib
import ShaderProbe.Proofs.CapEffect
import ShaderProbe.Proofs.StrayBraces

/-!
# Words of the code

`Comment.wordCount` counts a word in the code of lines of any kind, in which a block comment may be
open between two lines.  Edits that stand between the words of the code and do not hold the word
leave the count as it is (`Edit.wordCount_apply`).  The word `return` is in none of the texts that
cap loops or carry a value out of them, so neither adds a return (`Cap.wordCount_of_apply`,
`Shadow.wordCount_of_insert`).
-/

namespace ShaderProbe

namespace Text

variable {w : Text}

/-- The words of a text are those of its lines. -/
lemma countWord_ofLines (hw : w ≠ []) (ls : List Text) :
    countWord w (ofLines ls) = (ls.map (countWord w)).sum := by
  induction ls with
  | nil => exact countWord_nil hw
  | cons l ls ih =>
    cases ls with
    | nil => simp [ofLines]
    | cons l' ls =>
      rw [List.map_cons, List.sum_cons, ← ih]
      exact countWord_append_cons (by decide) l _

/-- Blanks hold no word. -/
lemma countWord_of_isBlankOnly {c : Char} (hc : c ∈ w) (hword : isWordChar c = true) {g : Text}
    (hg : isBlankOnly g = true) : countWord w g = 0 :=
  countWord_eq_zero hc fun hmem =>
    absurd (hword.symm.trans (isWordChar_of_isBlankOnly hg c hmem)) (by simp)

/-- Trailing blanks hold no word. -/
lemma countWord_trimRight {c : Char} (hc : c ∈ w) (hword : isWordChar c = true) (t : Text) :
    countWord w (trimRight t) = countWord w t := by
  obtain ⟨g, hg, ht⟩ := exists_trimRight_append t
  have haround := countWord_around hc hword (t := trimRight t)
    (fun x hx => absurd hx List.not_mem_nil) (isWordChar_of_isBlankOnly hg)
  rw [List.nil_append, ht] at haround
  exact haround.symm

end Text

namespace Comment

variable {w : Text} {c : Char} {inBlock : Bool}

/-- The number of times that a word occurs in the code of lines, where `inBlock` says that a block
comment is open in front of them. -/
def wordCount (w : Text) (inBlock : Bool) (ls : List Text) : Nat :=
  ((blankFrom inBlock ls).map (Text.countWord w)).sum

/-- The words of a line and of the lines behind it. -/
lemma wordCount_cons (w : Text) (inBlock : Bool) (l : Text) (ls : List Text) :
    wordCount w inBlock (l :: ls) =
      Text.countWord w (blankLine inBlock l).1 + wordCount w (blankLine inBlock l).2 ls := by
  rw [wordCount, blankFrom, List.map_cons, List.sum_cons, wordCount]

/-- Words add up over lines. -/
lemma wordCount_append (w : Text) (inBlock : Bool) (ls ls' : List Text) :
    wordCount w inBlock (ls ++ ls') =
      wordCount w inBlock ls + wordCount w (isOpenAfter inBlock ls) ls' := by
  rw [wordCount, blankFrom_append, List.map_append, List.sum_append, wordCount, wordCount]

/-- The words of the lines in front of a line and behind it. -/
lemma wordCount_split {ls : List Text} {n : Nat} (h : isOpenAfter false (ls.take n) = false) :
    wordCount w false ls = wordCount w false (ls.take n) + wordCount w false (ls.drop n) := by
  conv_lhs => rw [← List.take_append_drop n ls, wordCount_append, h]

/-- The words of the flat code. -/
lemma countWord_stripFrom (hc : c ∈ w) (hword : isWordChar c = true) (inBlock : Bool)
    (ls : List Text) :
    Text.countWord w (Text.ofLines (stripFrom inBlock ls)) = wordCount w inBlock ls := by
  rw [Text.countWord_ofLines (List.ne_nil_of_mem hc), stripFrom_eq, List.map_map, wordCount]
  congr 1
  exact List.map_congr_left fun l _ => Text.countWord_trimRight hc hword l

/-- Lines without comment marks hold no words but those of their texts, and leave an open comment
open. -/
lemma wordCount_of_isMarkFree {ts : List Text} (hc : c ∈ w) (hword : isWordChar c = true)
    (h : ∀ t ∈ ts, isMarkFree t = true ∧ Text.countWord w t = 0) (inBlock : Bool) :
    wordCount w inBlock ts = 0 ∧ isOpenAfter inBlock ts = inBlock := by
  induction ts with
  | nil => exact ⟨rfl, rfl⟩
  | cons t ts ih =>
    obtain ⟨hfree, hnone⟩ := h t List.mem_cons_self
    have hline : Text.countWord w (t.map fun c => if inBlock then ' ' else c) = 0 := by
      cases inBlock with
      | false => simpa using hnone
      | true =>
        refine Text.countWord_of_isBlankOnly hc hword (Text.isBlankOnly_iff.mpr fun c hc => ?_)
        obtain ⟨d, -, rfl⟩ := List.mem_map.mp hc
        exact (by decide : isBlank ' ' = true)
    rw [wordCount_cons, isOpenAfter, blankLine_of_isMarkFree hfree, hline, Nat.zero_add]
    exact ih fun x hx => h x (List.mem_cons_of_mem t hx)

end Comment

namespace Edit

variable {w : Text} {c : Char}

/-- The edit does not hold the word, and inside a line it stands between the words of the code. -/
structure IsApart (w : Text) (lines : List Text) (e : Edit) : Prop where
  countWord : Text.countWord w e.text = 0
  inside : ∀ line column text, e = .inline line column text →
    Text.startsWord text.reverse = false ∧
      ∀ code ∈ (Comment.blankFrom false lines)[line]?,
        Text.startsWord (code.take column).reverse = false

/-- A place next to the code is one of the code. -/
lemma le_length_of_isCut {inBlock : Bool} {l : Text} {n : Nat} (h : Comment.IsCut inBlock l n) :
    n ≤ (Comment.blankLine inBlock l).1.length := by
  obtain ⟨c, -, hc | ⟨m, rfl, hc⟩⟩ := h
  · exact (List.getElem?_eq_some_iff.mp hc).1.le
  · exact (List.getElem?_eq_some_iff.mp hc).1

/-- The edit that puts a line in front of a line. -/
lemma eq_of_before? {line : Nat} {e : Edit} {t : Text} (h : e.before? line = some t) :
    e = .lineBefore line t := by
  cases e <;> simp_all [before?]

/-- The edit that puts a line behind a line. -/
lemma eq_of_after? {line : Nat} {e : Edit} {t : Text} (h : e.after? line = some t) :
    e = .lineAfter line t := by
  cases e <;> simp_all [after?]

/-- The edit that puts a text into a line. -/
lemma eq_of_inside? {line : Nat} {e : Edit} {insert : Nat × Text}
    (h : e.inside? line = some insert) : e = .inline line insert.1 insert.2 := by
  cases e <;> grind [inside?]

/-- **The words of an edited line.** -/
lemma wordCount_applyLine (hc : c ∈ w) (hword : isWordChar c = true) {edits : List Edit}
    {line : Nat} {inBlock : Bool} {l : Text}
    (h : ∀ e ∈ edits, e.line = line → e.IsBesideCode inBlock l)
    (hnone : ∀ e ∈ edits, Text.countWord w e.text = 0)
    (hapart : ∀ column text, .inline line column text ∈ edits →
      Text.startsWord text.reverse = false ∧
        Text.startsWord ((Comment.blankLine inBlock l).1.take column).reverse = false) :
    Comment.wordCount w inBlock (applyLine edits line l) =
      Text.countWord w (Comment.blankLine inBlock l).1 := by
  have hbefore : ∀ t ∈ edits.filterMap (before? line),
      Comment.isMarkFree t = true ∧ Text.countWord w t = 0 := by
    intro t ht
    obtain ⟨e, he, heq⟩ := List.mem_filterMap.mp ht
    obtain rfl := eq_of_before? heq
    exact ⟨(h _ he rfl).isMarkFree, hnone _ he⟩
  have hafter : ∀ t ∈ edits.filterMap (after? line),
      Comment.isMarkFree t = true ∧ Text.countWord w t = 0 := by
    intro t ht
    obtain ⟨e, he, heq⟩ := List.mem_filterMap.mp ht
    obtain rfl := eq_of_after? heq
    exact ⟨(h _ he rfl).isMarkFree, hnone _ he⟩
  have hinside : ∀ insert ∈ edits.filterMap (inside? line),
      .inline line insert.1 insert.2 ∈ edits := by
    intro insert hinsert
    obtain ⟨e, he, heq⟩ := List.mem_filterMap.mp hinsert
    obtain rfl := eq_of_inside? heq
    exact he
  have hcut : ∀ insert ∈ edits.filterMap (inside? line),
      Comment.IsInset insert.2 ∧ Comment.IsCut inBlock l insert.1 := fun insert hinsert =>
    h _ (hinside insert hinsert) rfl
  have hweave := Comment.blankLine_weave (fun insert hinsert => (hcut insert hinsert).1) inBlock l 0
    (.of_isCut fun insert hinsert => (hcut insert hinsert).2)
  have hsum : ((edits.filterMap (inside? line)).map fun insert => Text.countWord w insert.2).sum =
      0 := List.sum_eq_zero fun n hn => by
    obtain ⟨insert, hinsert, rfl⟩ := List.mem_map.mp hn
    exact hnone _ (hinside insert hinsert)
  obtain ⟨hfront, hopen⟩ := Comment.wordCount_of_isMarkFree hc hword hbefore inBlock
  obtain ⟨hback, -⟩ :=
    Comment.wordCount_of_isMarkFree hc hword hafter (Comment.blankLine inBlock l).2
  rw [applyLine, Comment.wordCount_append, Comment.wordCount_cons, hopen, hweave, hfront, hback,
    Text.countWord_weave (List.ne_nil_of_mem hc)
      (fun insert hinsert => le_length_of_isCut (hcut insert hinsert).2)
      (fun insert hinsert => (hapart _ _ (hinside insert hinsert)).1)
      (fun insert hinsert => (hapart _ _ (hinside insert hinsert)).2), hsum, Nat.zero_add,
    Nat.add_zero]

/-- The words of edited lines, for lines numbered from `first`. -/
lemma wordCount_applyFrom (hc : c ∈ w) (hword : isWordChar c = true) {edits : List Edit}
    (hnone : ∀ e ∈ edits, Text.countWord w e.text = 0) (ls : List Text) (first : Nat)
    (inBlock : Bool)
    (h : ∀ n l, ls[n]? = some l → ∀ e ∈ edits, e.line = first + n →
      e.IsBesideCode (Comment.isOpenAfter inBlock (ls.take n)) l)
    (hapart : ∀ n code, (Comment.blankFrom inBlock ls)[n]? = some code → ∀ column text,
      .inline (first + n) column text ∈ edits → Text.startsWord text.reverse = false ∧
        Text.startsWord (code.take column).reverse = false) :
    Comment.wordCount w inBlock (applyFrom edits first ls) = Comment.wordCount w inBlock ls := by
  induction ls generalizing first inBlock with
  | nil => rfl
  | cons l ls ih =>
    have hfirst : ∀ e ∈ edits, e.line = first → e.IsBesideCode inBlock l := h 0 l rfl
    have hline := wordCount_applyLine hc hword hfirst hnone (hapart 0 _ rfl)
    obtain ⟨-, hopen⟩ := braces_applyLine hfirst
    rw [applyFrom, Comment.wordCount_append, hline, hopen, Comment.wordCount_cons]
    congr 1
    refine ih (first + 1) _ (fun n x hx e he heq => ?_) fun n code hcode column text hmem => ?_
    · exact h (n + 1) x hx e he (by omega)
    · exact hapart (n + 1) code hcode column text (by rwa [← Nat.add_assoc, Nat.add_right_comm])

/-- **Edits that stand between the words of the code** and do not hold a word leave the number of
times that it occurs in the code as it is. -/
theorem wordCount_apply (hc : c ∈ w) (hword : isWordChar c = true) {edits : List Edit}
    {lines : List Text} {start : Nat} (h : ∀ e ∈ edits, e.IsBeside lines start)
    (hapart : ∀ e ∈ edits, e.IsApart w lines) :
    Comment.wordCount w false (apply edits lines) = Comment.wordCount w false lines := by
  rw [apply_eq_applyFrom]
  refine wordCount_applyFrom hc hword (fun e he => (hapart e he).countWord) lines 0 false
    (fun n l hl e he hline => ?_) fun n code hcode column text hmem => ?_
  · obtain ⟨-, l', hl', hbeside⟩ := h e he
    rw [Nat.zero_add] at hline
    rw [hline] at hl' hbeside
    obtain rfl := Option.some.inj (hl'.symm.trans hl)
    exact hbeside
  · rw [Nat.zero_add] at hmem
    obtain ⟨hends, hcut⟩ := (hapart _ hmem).inside n column text rfl
    exact ⟨hends, hcut code hcode⟩

end Edit

/-! ### Places between words -/

/-- No word of the code reaches from in front of the place to behind it. -/
def Position.IsWordEdge (lines : List Text) (place : Position) : Prop :=
  ∀ code ∈ (Comment.blankFrom false lines)[place.line]?,
    Text.startsWord (code.take place.column).reverse = false

/-- A place of the flat code is between words if the offset is. -/
lemma Position.isWordEdge_of_take {lines : List Text} {start n column : Nat} {code : Text}
    (hcode : (Loop.blankCode lines start)[n]? = some code) (hcolumn : column ≤ code.length)
    (h : Text.startsWord ((Text.ofLines (Loop.blankCode lines start)).take
      (FlatText.lineStart (Loop.blankCode lines start) n + column)).reverse = false) :
    IsWordEdge lines ⟨start + n, column⟩ := by
  intro code' hcode'
  rw [Loop.blankCode, List.getElem?_drop] at hcode
  obtain rfl := Option.some.inj (hcode.symm.trans hcode')
  cases column with
  | zero => rfl
  | succ column =>
    have hline : (Loop.blankCode lines start)[n]? = some code := by
      rwa [Loop.blankCode, List.getElem?_drop]
    have hc := List.getElem?_eq_getElem (Nat.lt_of_succ_le hcolumn)
    have hflat := (FlatText.getElem?_ofLines hline (Nat.lt_of_succ_le hcolumn)).trans hc
    rw [← Nat.add_assoc, Text.startsWord_take_succ hflat] at h
    rwa [Text.startsWord_take_succ hc]

/-- The keyword of the loop starts a word of the code, and its other marks end none. -/
structure Loop.HasEdges (lines : List Text) (loop : Loop) : Prop where
  keyword : ∀ place ∈ loop.keyword, place.IsWordEdge lines
  tail : ∀ place, loop.parenClose = some place ∨ loop.brace = some place ∨
    loop.bodyEnd = some place → Position.IsWordEdge lines ⟨place.line, place.column + 1⟩

/-- The marks of the loops of a function stand between the words of its code. -/
lemma Loop.hasEdges_of_mem_find {lines : List Text} {start : Nat} {loop : Loop}
    (h : loop ∈ find lines start) : loop.HasEdges lines := by
  obtain ⟨index, hindex⟩ := List.mem_iff_getElem?.mp h
  rw [getElem?_find_blankCode] at hindex
  obtain ⟨span, hspan, rfl⟩ := Option.map_eq_some_iff.mp hindex
  obtain ⟨htrue, -⟩ := isTrue_of_mem_spans (List.mem_of_getElem? hspan)
  have htail : ∀ m, span.IsTail m → Position.IsWordEdge lines
      ⟨(FlatText.locate ⟨blankCode lines start, start⟩ m).line,
        (FlatText.locate ⟨blankCode lines start, start⟩ m).column + 1⟩ := by
    intro m hm
    obtain ⟨c, hc, hget⟩ := htrue.tail hm
    have hink : isBlank c = false ∧ isWordChar c = false := by
      simp only [List.mem_cons, List.not_mem_nil, or_false] at hc
      rcases hc with rfl | rfl | rfl | rfl <;> exact ⟨by decide, by decide⟩
    obtain ⟨n, l, column, hl, hcolumn, rfl, hlocate⟩ :=
      FlatText.exists_locate_of_ink hget hink.1 start
    rw [hlocate]
    refine Position.isWordEdge_of_take hl (List.getElem?_eq_some_iff.mp hcolumn).1 ?_
    rw [← Nat.add_assoc, Text.startsWord_take_succ hget, hink.2]
  constructor
  · intro place hplace
    obtain rfl := Option.some.inj hplace
    obtain ⟨c, hget, hblank⟩ := htrue.mark (LoopSpan.mem_marks_iff.mpr (.inl rfl))
    obtain ⟨n, l, column, hl, hcolumn, hkeyword, hlocate⟩ :=
      FlatText.exists_locate_of_ink hget hblank start
    rw [hlocate]
    refine Position.isWordEdge_of_take hl (List.getElem?_eq_some_iff.mp hcolumn).1.le ?_
    rw [← hkeyword]
    exact htrue.isWordStart
  · rintro place (hplace | hplace | hplace)
    · obtain rfl := Option.some.inj hplace
      exact htail _ (.inl rfl)
    · obtain ⟨b, hb, rfl⟩ := Option.map_eq_some_iff.mp hplace
      exact htail b (.inr (.inl hb))
    · obtain ⟨e, he, rfl⟩ := Option.map_eq_some_iff.mp hplace
      exact htail e (.inr (.inr he))

namespace Cap

variable {lines : List Text} {start : Nat} {loop : Loop} {cap : Int} {edits : List Edit}

/-- A text that is put between words and ends none of its own. -/
lemma isApart_inline {line column : Nat} {text : Text} (hu : 'u' ∉ text)
    (hends : Text.startsWord text.reverse = false)
    (hedge : Position.IsWordEdge lines ⟨line, column⟩) :
    (Edit.inline line column text).IsApart "return" lines := by
  refine ⟨Text.countWord_eq_zero (by decide : 'u' ∈ "return".toList) hu, fun _ _ _ heq => ?_⟩
  obtain ⟨rfl, rfl, rfl⟩ := Edit.inline.inj heq
  exact ⟨hends, hedge⟩

/-- A line of its own. -/
lemma isApart_of_rank {e : Edit} (hu : 'u' ∉ e.text) (hrank : e.rank ≠ 1) :
    e.IsApart "return" lines :=
  ⟨Text.countWord_eq_zero (by decide : 'u' ∈ "return".toList) hu,
    fun _ _ _ heq => absurd rfl (heq ▸ hrank)⟩

/-- The statements of a cap hold no `u`. -/
lemma u_not_mem_declaration (loop : Loop) : 'u' ∉ declaration {} loop := by
  rw [declaration_eq_append, List.mem_append, not_or]
  exact ⟨(isWritten_declaration loop.index).not_mem (by decide) (by decide), by decide⟩

lemma u_not_mem_guard (loop : Loop) (hcap : 0 ≤ cap) : 'u' ∉ guard {} loop cap := by
  rw [guard_eq_append, List.mem_append, not_or, List.mem_cons, not_or, List.mem_cons, not_or]
  exact ⟨⟨by decide, by decide, (isWritten_guard hcap loop.index).not_mem (by decide) (by decide)⟩,
    by decide⟩

/-- An indentation holds no `u`. -/
lemma u_not_mem_indent (l : Text) : 'u' ∉ Text.indent l := fun hmem =>
  absurd (Text.isWordChar_of_isBlankOnly (Text.isBlankOnly_indent l) 'u' hmem) (by decide)

/-- The brace behind a body stands between words. -/
lemma isApart_of_closeBody (hedges : loop.HasEdges lines) :
    ∀ e ∈ closeBody loop, e.IsApart "return" lines := by
  intro e he
  rw [closeBody, Option.mem_toList, Option.map_eq_some_iff] at he
  obtain ⟨last, hlast, rfl⟩ := he
  exact isApart_inline (by decide) (by decide) (hedges.tail last (.inr (.inr hlast)))

/-- The edits that declare a counter stand between words. -/
lemma isApart_of_counterEdits (hloop : loop.IsMarked lines start) (hedges : loop.HasEdges lines)
    (h : counterEdits {} lines (Comment.strip lines) loop = .ok edits) :
    ∀ e ∈ edits, e.IsApart "return" lines := by
  obtain ⟨place, hkeyword, hline, hcode⟩ := hloop.keyword
  obtain ⟨code, hlookup⟩ := hcode.exists_lineAt_strip
  have hedge := hedges.keyword place hkeyword
  have hu := u_not_mem_declaration loop
  rw [counterEdits, ← hline, hcode.lineAt, hkeyword] at h
  simp only [Option.getD_some, bind, Except.bind, pure, Except.pure] at h
  cases hbare : loop.bareBody with
  | true =>
    rw [hbare, if_pos rfl] at h
    obtain rfl := Except.ok.inj h
    rintro e (_ | ⟨_, he⟩)
    · exact isApart_inline (by simpa using hu) (by simp [Text.startsWord]; decide) hedge
    · exact isApart_of_closeBody hedges e he
  | false =>
    rw [hbare, if_neg (by simp), hlookup] at h
    dsimp only at h
    split at h
    · obtain rfl := Except.ok.inj h
      intro e he
      obtain rfl := List.mem_singleton.mp he
      exact isApart_inline (by simpa using hu) (by simp [Text.startsWord]; decide) hedge
    · obtain rfl := Except.ok.inj h
      intro e he
      obtain rfl := List.mem_singleton.mp he
      refine isApart_of_rank ?_ (by simp [Edit.rank])
      exact fun hmem => (List.mem_append.mp hmem).elim (u_not_mem_indent _) hu

/-- The edits that guard a loop stand between words. -/
lemma isApart_of_guardEdits (hloop : loop.IsMarked lines start) (hedges : loop.HasEdges lines)
    (hcap : 0 ≤ cap) (h : guardEdits {} lines (Comment.strip lines) loop cap = .ok edits) :
    ∀ e ∈ edits, e.IsApart "return" lines := by
  obtain ⟨header, -, hline, hheader⟩ := hloop.keyword
  obtain ⟨close, hparen, hcode⟩ := hloop.parenClose
  have hu := u_not_mem_guard loop hcap
  have hends : ∀ front : Text, Text.startsWord (front ++ guard {} loop cap).reverse = false := by
    intro front
    rw [guard_eq_append, ← List.append_assoc, List.reverse_append]
    rfl
  rw [guardEdits] at h
  cases hbrace : loop.brace with
  | none =>
    rw [hbrace, hparen] at h
    obtain rfl := Except.ok.inj h
    rintro e (_ | ⟨_, he⟩)
    · exact isApart_inline (by simpa using hu) (hends _) (hedges.tail close (.inl hparen))
    · exact isApart_of_closeBody hedges e he
  | some brace =>
    have hopen := hloop.brace brace hbrace
    obtain ⟨code, hlookup⟩ := hopen.exists_lineAt_strip
    rw [hbrace] at h
    simp only [hlookup, bind, Except.bind, pure, Except.pure] at h
    split at h
    · obtain rfl := Except.ok.inj h
      intro e he
      obtain rfl := List.mem_singleton.mp he
      exact isApart_inline (by simpa using hu) (hends _) (hedges.tail brace (.inr (.inl hbrace)))
    · rw [← hline, hheader.lineAt] at h
      obtain rfl := Except.ok.inj h
      intro e he
      obtain rfl := List.mem_singleton.mp he
      refine isApart_of_rank (fun hmem => ?_) (by simp [Edit.rank])
      rcases List.mem_append.mp hmem with hmem | hmem
      · rcases List.mem_append.mp hmem with hmem | hmem
        · exact u_not_mem_indent _ hmem
        · exact absurd hmem (by decide)
      · exact hu hmem

/-- An edit that caps loops declares the counter of one of them or guards it. -/
lemma exists_of_mem_editsFor {config : Config} {code : List Text} {caps : Caps} {loops : List Loop}
    (h : editsFor config lines code caps loops = .ok edits) {e : Edit} (he : e ∈ edits) :
    ∃ loop ∈ loops, ∃ cap counter guard, capOf? caps loop = some cap ∧
      counterEdits config lines code loop = .ok counter ∧
      guardEdits config lines code loop cap = .ok guard ∧ (e ∈ counter ∨ e ∈ guard) := by
  induction loops generalizing edits with
  | nil =>
    obtain rfl := Except.ok.inj h
    exact absurd he List.not_mem_nil
  | cons loop loops ih =>
    rw [editsFor] at h
    split at h
    · obtain ⟨other, hother, hedits⟩ := ih h he
      exact ⟨other, List.mem_cons_of_mem loop hother, hedits⟩
    · rename_i cap hcap
      obtain ⟨counter, hcounter, h⟩ := bind_eq_ok_iff.mp h
      obtain ⟨guard, hguard, h⟩ := bind_eq_ok_iff.mp h
      obtain ⟨others, hothers, h⟩ := bind_eq_ok_iff.mp h
      obtain rfl := Except.ok.inj h
      rcases List.mem_append.mp he with he | he
      · exact ⟨loop, List.mem_cons_self, cap, counter, guard, hcap, hcounter, hguard,
          List.mem_append.mp he⟩
      · obtain ⟨other, hother, hedits⟩ := ih hothers he
        exact ⟨other, List.mem_cons_of_mem loop hother, hedits⟩

/-- The edits that cap loops stand next to the code. -/
lemma isBeside_of_editsFor {caps : Caps} (hcaps : ∀ entry ∈ caps, 0 ≤ entry.2)
    (h : editsFor {} lines (Comment.strip lines) caps (Loop.find lines start) = .ok edits) :
    ∀ e ∈ edits, e.IsBeside lines start := by
  obtain ⟨hmem, -⟩ := edits_of_editsFor hcaps (fun loop hloop => Loop.isMarked_of_mem_find hloop) h
  intro e he
  obtain ⟨loop, -, cap, -, hinserts | hinserts⟩ := hmem e he
  · exact hinserts.isBeside
  · exact hinserts.isBeside

/-- The edits that cap loops stand between words. -/
lemma isApart_of_editsFor {caps : Caps} (hcaps : ∀ entry ∈ caps, 0 ≤ entry.2)
    (h : editsFor {} lines (Comment.strip lines) caps (Loop.find lines start) = .ok edits) :
    ∀ e ∈ edits, e.IsApart "return" lines := by
  intro e he
  obtain ⟨loop, hloop, cap, counter, guard, hcap, hcounter, hguard, hmem⟩ :=
    exists_of_mem_editsFor h he
  have hmarked := Loop.isMarked_of_mem_find hloop
  have hedges := Loop.hasEdges_of_mem_find hloop
  rcases hmem with hmem | hmem
  · exact isApart_of_counterEdits hmarked hedges hcounter e hmem
  · exact isApart_of_guardEdits hmarked hedges (nonneg_of_capOf? hcaps hcap) hguard e hmem

/-- **Capping adds no return.** -/
theorem wordCount_of_apply {caps : Caps} {result : List Text}
    (h : apply {} lines start caps = .ok result) :
    Comment.wordCount "return" false result = Comment.wordCount "return" false lines := by
  have hcaps := fun entry hentry => (valid_of_apply h entry hentry).2
  obtain ⟨edits, hedits, rfl⟩ := exists_edits_of_apply h
  exact Edit.wordCount_apply (by decide : 'u' ∈ "return".toList) (by decide)
    (isBeside_of_editsFor hcaps hedits) (isApart_of_editsFor hcaps hedits)

end Cap

namespace Shadow

variable {lines : List Text} {start target k : Nat} {shown : Variable} {d a : Edit}

/-- A text with a part between words holds a word only in that part. -/
lemma countWord_between {front part back : Text} (hfront : Text.startsWord front.reverse = false)
    (hback : Text.startsWord back = false) (hu : 'u' ∉ front) (hu' : 'u' ∉ back) :
    Text.countWord "return" (front ++ (part ++ back)) = Text.countWord "return" part := by
  have hne : "return".toList ≠ [] := by decide
  have hmem : 'u' ∈ "return".toList := by decide
  rw [Text.countWord_append_left hne hfront, Text.countWord_append_right hne part hback,
    Text.countWord_eq_zero hmem hu, Text.countWord_eq_zero hmem hu', Nat.zero_add, Nat.add_zero]

/-- The declaration stands between words and holds no `return`. -/
lemma Declares.isApart {loop : Loop} (h : Declares lines loop k
      (shown.type ++ " " ++ ({} : Config).shadow ++ ";") d)
    (hedge : Position.IsWordEdge lines ⟨loop.headerLine, k⟩)
    (htype : Text.countWord "return" shown.type = 0) : d.IsApart "return" lines := by
  have hdeclaration : ∀ front back : Text, Text.startsWord front.reverse = false →
      'u' ∉ front → 'u' ∉ back → Text.countWord "return" (front ++ ((shown.type ++ " ".toList ++
        ({} : Config).shadow ++ ";".toList) ++ back)) = 0 := by
    intro front back hfront hu hu'
    simp only [List.append_assoc]
    refine (countWord_between hfront rfl hu fun hmem => ?_).trans htype
    simp only [List.mem_append] at hmem
    rcases hmem with hmem | hmem | hmem | hmem
    · exact absurd hmem (by decide)
    · exact absurd hmem (by decide)
    · exact absurd hmem (by decide)
    · exact hu' hmem
  rcases h with rfl | ⟨gap, code, hgap, -, rfl, -, -⟩
  · refine ⟨hdeclaration _ [' '] ?_ ?_ (by decide), fun _ _ _ heq => ?_⟩
    · split <;> decide
    · split <;> decide
    · obtain ⟨rfl, rfl, rfl⟩ := Edit.inline.inj heq
      refine ⟨?_, hedge⟩
      rw [← List.append_assoc, List.reverse_append]
      rfl
  · have hwords := Text.isWordChar_of_isBlankOnly hgap
    refine ⟨?_, fun _ _ _ heq => absurd heq (by simp)⟩
    have hnone := hdeclaration gap [] ?_ (fun hmem => absurd (hwords _ hmem) (by decide)) (by decide)
    · rwa [List.append_nil] at hnone
    · cases hrev : gap.reverse with
      | nil => rfl
      | cons x xs => exact hwords x (List.mem_reverse.mp (hrev ▸ List.mem_cons_self))

/-- The assignment stands between words and holds no `return`. -/
lemma Assigns.isApart
    (h : Assigns {} lines target (({} : Config).shadow ++ " = " ++ shown.name ++ ";") a)
    (hname : Text.countWord "return" shown.name = 0) : a.IsApart "return" lines := by
  have hassignment : ∀ front : Text, 'u' ∉ front → Text.countWord "return"
      (front ++ (({} : Config).shadow ++ " = ".toList ++ shown.name ++ ";".toList)) = 0 := by
    intro front hu
    rw [List.append_assoc, ← List.append_assoc front]
    refine (countWord_between ?_ rfl (fun hmem => ?_) (by decide)).trans hname
    · rw [← List.append_assoc, List.reverse_append]
      rfl
    · simp only [List.mem_append] at hmem
      rcases hmem with hmem | hmem | hmem
      · exact hu hmem
      · exact absurd hmem (by decide)
      · exact absurd hmem (by decide)
  obtain ⟨l, hl, ⟨column, hend, -, rfl⟩ | ⟨rfl, -⟩⟩ := h
  · refine ⟨hassignment [' '] (by decide), fun _ _ _ heq => ?_⟩
    obtain ⟨rfl, rfl, rfl⟩ := Edit.inline.inj heq
    obtain ⟨code, hcode, hsemi⟩ := Statement.exists_semicolon_of_endAt hend
    refine ⟨?_, fun code' hcode' => ?_⟩
    · rw [← List.cons_append, List.reverse_append]
      rfl
    · obtain rfl := Option.some.inj (hcode.symm.trans hcode')
      rw [Text.startsWord_take_succ hsemi]
      decide
  · exact ⟨hassignment _ (Cap.u_not_mem_indent l), fun _ _ _ heq => absurd heq (by simp)⟩

/-- The loop starts in front of the end of the statement that ends on a line, and its keyword is a
word of the code. -/
structure StartsInFront (lines : List Text) (start target : Nat) (loop : Loop) : Prop where
  keyword : ∃ k, loop.keyword = some ⟨loop.headerLine, k⟩ ∧
    Position.IsCode lines start ⟨loop.headerLine, k⟩ ∧
    Position.IsWordEdge lines ⟨loop.headerLine, k⟩ ∧
    (loop.headerLine < target ∨ loop.headerLine = target ∧ ∀ column,
      Statement.endAt ({} : Config).maxStatementLines lines target = .ok (some ⟨target, column⟩) →
        k ≤ column)

/-- **Carrying a value out of loops adds no return.** -/
theorem wordCount_of_insert {loops : List Loop} {count : Nat} {marked : List Text}
    {shadow : Option Text} (htarget : target < lines.length) (hstart : start ≤ target)
    (hlies : ∀ loop ∈ loops, loop.LiesIn start count)
    (hfront : ∀ loop ∈ loops, StartsInFront lines start target loop)
    (hident : Text.isIdent shown.name = true) (hsolid : Comment.isSolid shown.type = true)
    (htype : Text.countWord "return" shown.type = 0)
    (hname : Text.countWord "return" shown.name = 0)
    (h : insert {} lines target shown loops = .ok (marked, shadow)) :
    Comment.wordCount "return" false marked = Comment.wordCount "return" false lines := by
  cases hmost : Loop.outermost? loops with
  | none =>
    unfold insert at h
    rw [hmost] at h
    obtain ⟨rfl, rfl⟩ := Prod.mk.inj (Except.ok.inj h)
    rfl
  | some outermost =>
    have hmem := Loop.mem_of_outermost? hmost
    obtain ⟨k, hkeyword, hcode, hedge, hplace⟩ := (hfront outermost hmem).keyword
    obtain ⟨d, a, rfl, -, hd, ha, hbeside⟩ := exists_isBeside_of_insert htarget hstart hmost
      (hlies outermost hmem) hkeyword hcode hplace hident hsolid h
    refine Edit.wordCount_apply (by decide : 'u' ∈ "return".toList) (by decide) hbeside ?_
    simp only [List.mem_cons, List.not_mem_nil, or_false]
    rintro e (rfl | rfl)
    · exact hd.isApart hedge htype
    · exact ha.isApart hname

end Shadow

end ShaderProbe
