import Mathlib
import ShaderProbe.Proofs.Comment
import ShaderProbe.Proofs.FlatEdits

/-!
# Comments and edits

Statements that are put next to code stay out of the comments.  `Comment.IsCut` says that a place of
a line is next to a character of the code, and `Comment.blankLine_weave` that texts without comment
marks, put in at such places, leave the comments as they are.  `Edit.stripFrom_applyFrom` draws the
conclusion for lists of lines: removing the comments of the edited lines is editing the lines
without their comments.
-/

namespace ShaderProbe

namespace Comment

/-- The place is right in front of a character of the code or right behind one. -/
def IsCut (inBlock : Bool) (l : Text) (n : Nat) : Prop :=
  ∃ c, c ≠ ' ' ∧ ((blankLine inBlock l).1[n]? = some c ∨
    ∃ m, n = m + 1 ∧ (blankLine inBlock l).1[m]? = some c)

/-- A place next to the code behind some blanked characters. -/
lemma IsCut.of_blank {inBlock inBlock' : Bool} {l l' : Text} {n : Nat} (h : IsCut inBlock l n)
    (gap : Text) (hgap : ∀ c ∈ gap, c = ' ')
    (hl : (blankLine inBlock l).1 = gap ++ (blankLine inBlock' l').1) :
    gap.length ≤ n ∧ IsCut inBlock' l' (n - gap.length) := by
  have hvisible : ∀ i c, c ≠ ' ' → (blankLine inBlock l).1[i]? = some c →
      gap.length ≤ i ∧ (blankLine inBlock' l').1[i - gap.length]? = some c := by
    intro i c hc hi
    rw [hl] at hi
    have hle : gap.length ≤ i := by
      by_contra hlt
      rw [List.getElem?_append_left (by omega)] at hi
      exact hc (hgap c (List.mem_of_getElem? hi))
    rw [List.getElem?_append_right hle] at hi
    exact ⟨hle, hi⟩
  obtain ⟨c, hc, hn | ⟨m, rfl, hm⟩⟩ := h
  · obtain ⟨hle, hget⟩ := hvisible n c hc hn
    exact ⟨hle, c, hc, .inl hget⟩
  · obtain ⟨hle, hget⟩ := hvisible m c hc hm
    exact ⟨by omega, c, hc, .inr ⟨m - gap.length, by omega, hget⟩⟩

/-- A place next to the code behind a character of the code. -/
lemma IsCut.of_code {l l' : Text} {x : Char} {n : Nat} (h : IsCut false l n)
    (hl : (blankLine false l).1 = x :: (blankLine false l').1) :
    n = 0 ∨ n = 1 ∨ 1 ≤ n ∧ IsCut false l' (n - 1) := by
  obtain ⟨c, hc, hn | ⟨m, rfl, hm⟩⟩ := h
  · cases n with
    | zero => exact .inl rfl
    | succ n =>
      rw [hl, List.getElem?_cons_succ] at hn
      exact .inr (.inr ⟨by omega, c, hc, .inl hn⟩)
  · cases m with
    | zero => exact .inr (.inl rfl)
    | succ m =>
      rw [hl, List.getElem?_cons_succ] at hm
      exact .inr (.inr ⟨by omega, c, hc, .inr ⟨m, rfl, hm⟩⟩)

/-- In front of a block comment that goes on there is no place next to the code. -/
lemma IsCut.ne_zero {l : Text} {n : Nat} (h : IsCut true l n) : n ≠ 0 := by
  rintro rfl
  obtain ⟨c, hc, hget | ⟨m, hm, -⟩⟩ := h
  · have hspace : ∀ x ∈ (blankLine true l).1[0]?, x = ' ' := by
      rcases l with _ | ⟨x, _ | ⟨y, l⟩⟩
      · simp [blankLine]
      · simp [blankLine]
      · by_cases hmark : x = '*' ∧ y = '/'
        · simp [blankLine_close hmark]
        · simp [blankLine_inside hmark]
    exact hc (hspace c hget)
  · exact absurd hm (by omega)

/-- A text without slashes stays as it is in front of other code. -/
lemma blankLine_append_of_plain {s : Text} (hs : ∀ c ∈ s, c ≠ '/') (t : Text) :
    blankLine false (s ++ t) = (s ++ (blankLine false t).1, (blankLine false t).2) := by
  induction s with
  | nil => rfl
  | cons c s ih =>
    have hc : c ≠ '/' := hs c List.mem_cons_self
    rw [List.cons_append, blankLine_cons fun d _ => by simp [opens, hc],
      ih fun d hd => hs d (List.mem_cons_of_mem c hd), List.cons_append]

variable {inserts : List (Nat × Text)}

/-- No comment opens or closes in the text, nor at its ends when it is put into another one. -/
structure IsInset (t : Text) : Prop where
  isMarkFree : isMarkFree t = true
  head : ∀ c ∈ t.head?, c ≠ '/' ∧ c ≠ '*'
  last : ∀ c ∈ t.getLast?, c ≠ '/' ∧ c ≠ '*'

/-- A text without the characters of comment marks. -/
lemma IsInset.of_plain {t : Text} (h : ∀ c ∈ t, c ≠ '/' ∧ c ≠ '*') : IsInset t :=
  ⟨isMarkFree_of_forall_ne fun c hc => (h c hc).1, fun c hc => h c (List.mem_of_head? hc),
    fun c hc => h c (List.mem_of_getLast? hc)⟩

/-- No mark starts at the end of the text. -/
lemma IsInset.seam {s : Text} (hs : IsInset s) (t : Text) : Seam s t := by
  intro c hc d _
  simp [isMark, opens, hs.last c hc]

/-- Two such texts in a row. -/
lemma IsInset.append {s t : Text} (hs : IsInset s) (ht : IsInset t) : IsInset (s ++ t) := by
  refine ⟨isMarkFree_append hs.isMarkFree ht.isMarkFree (hs.seam t), fun c hc => ?_, fun c hc => ?_⟩
  · cases s with
    | nil => exact ht.head c hc
    | cons d s => exact hs.head c hc
  · rw [List.getLast?_append] at hc
    cases hlast : t.getLast? with
    | none =>
      rw [hlast] at hc
      exact hs.last c hc
    | some d =>
      rw [hlast] at hc
      exact ht.last c (hlast ▸ hc)

/-- Such a text stays as it is in front of other code. -/
lemma IsInset.blankLine_append {s : Text} (hs : IsInset s) (t : Text) :
    blankLine false (s ++ t) = (s ++ (blankLine false t).1, (blankLine false t).2) := by
  rw [Comment.blankLine_append false s t (hs.seam t), hasLineComment_of_isMarkFree hs.isMarkFree,
    blankLine_of_isMarkFree hs.isMarkFree]
  simp

/-- The texts at a column make such a text. -/
lemma isInset_textsAt (hinset : ∀ insert ∈ inserts, IsInset insert.2) (o : Nat) :
    IsInset (Edit.textsAt inserts o).flatten := by
  have hall : ∀ seg ∈ Edit.textsAt inserts o, IsInset seg := fun seg hseg =>
    hinset _ (Edit.exists_of_mem_textsAt hseg)
  generalize Edit.textsAt inserts o = segs at hall ⊢
  induction segs with
  | nil => exact .of_plain (by simp)
  | cons seg segs ih =>
    exact (hall seg List.mem_cons_self).append (ih fun x hx => hall x (List.mem_cons_of_mem seg hx))

/-- The texts at a column stay as they are. -/
lemma blankLine_textsAt (hinset : ∀ insert ∈ inserts, IsInset insert.2) (o : Nat) :
    blankLine false (Edit.textsAt inserts o).flatten =
      ((Edit.textsAt inserts o).flatten, false) := by
  have h := (isInset_textsAt hinset o).blankLine_append []
  rwa [List.append_nil, blankLine, List.append_nil] at h

/-! ### Texts at places next to the code -/

/-- The texts that are put in from a column on are next to the code of the line that starts there.
At the column itself a text may stand anyway, unless a block comment goes on there. -/
def AreCuts (inserts : List (Nat × Text)) (o : Nat) (inBlock : Bool) (l : Text) : Prop :=
  ∀ insert ∈ inserts, o ≤ insert.1 →
    insert.1 = o ∧ inBlock = false ∨ IsCut inBlock l (insert.1 - o)

section AreCuts

variable {o : Nat} {l l' : Text} {inBlock inBlock' : Bool}

/-- Where a block comment goes on nothing is put in. -/
lemma AreCuts.ne (h : AreCuts inserts o true l) : ∀ insert ∈ inserts, insert.1 ≠ o := by
  intro insert hinsert heq
  rcases h insert hinsert heq.ge with ⟨-, hfalse⟩ | hcut
  · exact absurd hfalse (by simp)
  · exact hcut.ne_zero (by omega)

/-- Behind some blanked characters, between which nothing is put in. -/
lemma AreCuts.of_blank (h : AreCuts inserts o inBlock l) {gap : Text} (hgap : ∀ c ∈ gap, c = ' ')
    (hne : gap ≠ []) (hl : (blankLine inBlock l).1 = gap ++ (blankLine inBlock' l').1) :
    (∀ insert ∈ inserts, ¬(o < insert.1 ∧ insert.1 < o + gap.length)) ∧
      AreCuts inserts (o + gap.length) inBlock' l' := by
  have hpos := List.length_pos_iff.mpr hne
  have hstep : ∀ insert ∈ inserts, o < insert.1 →
      gap.length ≤ insert.1 - o ∧ IsCut inBlock' l' (insert.1 - o - gap.length) := by
    intro insert hinsert hlt
    rcases h insert hinsert hlt.le with ⟨heq, -⟩ | hcut
    · omega
    · exact hcut.of_blank gap hgap hl
  refine ⟨fun insert hinsert hin => ?_, fun insert hinsert hle => .inr ?_⟩
  · have := (hstep insert hinsert hin.1).1
    omega
  · rw [← Nat.sub_sub]
    exact (hstep insert hinsert (by omega)).2

/-- Behind a character of the code. -/
lemma AreCuts.of_code (h : AreCuts inserts o false l) {x : Char}
    (hl : (blankLine false l).1 = x :: (blankLine false l').1) :
    AreCuts inserts (o + 1) false l' := by
  intro insert hinsert hle
  rcases h insert hinsert (by omega) with ⟨heq, -⟩ | hcut
  · omega
  · rcases hcut.of_code hl with hzero | hone | ⟨-, hcut⟩
    · omega
    · exact .inl ⟨by omega, rfl⟩
    · rw [← Nat.sub_sub]
      exact .inr hcut

/-- Where no code follows, nothing is put in behind the column. -/
lemma AreCuts.le (h : AreCuts inserts o inBlock l)
    (hblank : ∀ c ∈ (blankLine inBlock l).1, c = ' ') :
    ∀ insert ∈ inserts, insert.1 ≤ o := by
  intro insert hinsert
  by_contra hlt
  rcases h insert hinsert (by omega) with ⟨heq, -⟩ | ⟨c, hc, hget | ⟨m, -, hget⟩⟩
  · omega
  · exact hc (hblank c (List.mem_of_getElem? hget))
  · exact hc (hblank c (List.mem_of_getElem? hget))

/-- Texts that are put in next to the code of a whole line. -/
lemma AreCuts.of_isCut (h : ∀ insert ∈ inserts, IsCut inBlock l insert.1) :
    AreCuts inserts 0 inBlock l :=
  fun insert hinsert _ => .inr (h insert hinsert)

end AreCuts

/-- Two characters that open neither kind of comment. -/
lemma opens_eq_false {c d : Char} (hline : ¬(c = '/' ∧ d = '/')) (hopen : ¬(c = '/' ∧ d = '*')) :
    opens c d = false := by
  rw [opens, Bool.and_eq_false_iff, Bool.or_eq_false_iff, beq_eq_false_iff_ne, beq_eq_false_iff_ne,
    beq_eq_false_iff_ne]
  tauto

/-- A character of the code makes no mark with what follows it, whether that is put in or not. -/
lemma opens_head?_textsAt {c : Char} {rest : Text} (hinset : ∀ insert ∈ inserts, IsInset insert.2)
    (hrest : ∀ d ∈ rest.head?, opens c d = false) (o : Nat) :
    ∀ d ∈ ((Edit.textsAt inserts o).flatten ++ rest).head?, opens c d = false := by
  intro d hd
  cases htexts : (Edit.textsAt inserts o).flatten with
  | nil =>
    rw [htexts] at hd
    exact hrest d hd
  | cons y t =>
    rw [htexts, List.cons_append, List.head?_cons, Option.mem_some_iff] at hd
    have hy := (isInset_textsAt hinset o).head y (by rw [htexts]; rfl)
    simp [opens, ← hd, hy]

/-- The end of a line at which a block comment is open. -/
lemma blankLine_weave_short {o : Nat} {l : Text} (hshort : l = [] ∨ ∃ c, l = [c])
    (hcuts : AreCuts inserts o true l) :
    blankLine true (Edit.weave inserts o l) =
      (Edit.weave inserts o (blankLine true l).1, (blankLine true l).2) := by
  have hblank : ∀ c ∈ (blankLine true l).1, c = ' ' := by
    rcases hshort with rfl | ⟨c, rfl⟩
    · simp [blankLine]
    · simp [blankLine]
  have hlt : ∀ insert ∈ inserts, insert.1 < o := fun insert hinsert =>
    lt_of_le_of_ne (hcuts.le hblank insert hinsert) (hcuts.ne insert hinsert)
  rw [Edit.weave_of_lt hlt, Edit.weave_of_lt hlt]

/-- The end of a line of code. -/
lemma blankLine_weave_nil {o : Nat} (hinset : ∀ insert ∈ inserts, IsInset insert.2)
    (hcuts : AreCuts inserts o false []) :
    blankLine false (Edit.weave inserts o []) = (Edit.weave inserts o [], false) := by
  rw [Edit.weave_end (hcuts.le (by simp [blankLine])), blankLine_textsAt hinset]

/-- **Texts that are put next to the code leave the comments of a line as they are.** -/
theorem blankLine_weave (hinset : ∀ insert ∈ inserts, IsInset insert.2)
    (inBlock : Bool) (l : Text) (o : Nat) (hcuts : AreCuts inserts o inBlock l) :
    blankLine inBlock (Edit.weave inserts o l) =
      (Edit.weave inserts o (blankLine inBlock l).1, (blankLine inBlock l).2) := by
  have hblanks : ∀ c ∈ [' ', ' '], c = ' ' := by simp
  fun_induction hasLineComment inBlock l generalizing o with
  | case1 c d s hmark ih =>
    have hl : (blankLine true (c :: d :: s)).1 = [' ', ' '] ++ (blankLine false s).1 := by
      rw [blankLine_close hmark]
      rfl
    obtain ⟨hnone, hrest⟩ := hcuts.of_blank hblanks (by simp) hl
    have hweave : ∀ (x y : Char) (t : Text),
        Edit.weave inserts o (x :: y :: t) = x :: y :: Edit.weave inserts (o + 2) t :=
      fun x y t => Edit.weave_append (s := [x, y]) (fun insert hinsert hin =>
        hnone insert hinsert ⟨lt_of_le_of_ne hin.1 (hcuts.ne insert hinsert).symm, hin.2⟩) t
    rw [hweave, blankLine_close hmark, blankLine_close hmark, hweave, ih (o + 2) hrest]
  | case2 c d s hmark ih =>
    have hl : (blankLine true (c :: d :: s)).1 = [' '] ++ (blankLine true (d :: s)).1 := by
      rw [blankLine_inside hmark]
      rfl
    obtain ⟨-, hrest⟩ := hcuts.of_blank (by simp) (by simp) hl
    rw [List.length_singleton] at hrest
    have hnext := ih (o + 1) hrest
    -- nothing stands in front of the two characters that are looked at
    have hfirst : ∀ {column : Nat}, (∀ insert ∈ inserts, insert.1 ≠ column) →
        ∀ (x : Char) (t : Text),
        Edit.weave inserts column (x :: t) = x :: Edit.weave inserts (column + 1) t :=
      fun hne x t => by rw [Edit.weave_cons, Edit.textsAt_eq_nil hne, List.flatten_nil,
        List.nil_append]
    rw [hfirst hrest.ne] at hnext
    rw [hfirst hcuts.ne, hfirst hrest.ne, blankLine_inside hmark, blankLine_inside hmark,
      hfirst hcuts.ne, hnext]
  | case3 inBlock c d s hblock hline =>
    rw [Bool.not_eq_true] at hblock
    subst hblock
    have hle := hcuts.le (by rw [blankLine_line hline]; simp)
    rw [Edit.weave_cons, Edit.weave_of_lt fun insert hinsert =>
      Nat.lt_succ_of_le (hle insert hinsert),
      (isInset_textsAt hinset o).blankLine_append, blankLine_line hline,
      Edit.weave_end hle, List.append_nil]
  | case4 inBlock c d s hblock hline hopen ih =>
    rw [Bool.not_eq_true] at hblock
    subst hblock
    have hl : (blankLine false (c :: d :: s)).1 = [' ', ' '] ++ (blankLine true s).1 := by
      rw [blankLine_open hopen]
      rfl
    obtain ⟨hnone, hrest⟩ := hcuts.of_blank hblanks (by simp) hl
    have hsecond : ∀ (x : Char) (t : Text),
        Edit.weave inserts (o + 1) (x :: t) = x :: Edit.weave inserts (o + 2) t :=
      fun x t => Edit.weave_append (s := [x]) (fun insert hinsert hin =>
        hnone insert hinsert ⟨hin.1, hin.2⟩) t
    rw [Edit.weave_cons, hsecond, (isInset_textsAt hinset o).blankLine_append, blankLine_open hopen,
      blankLine_open hopen, Edit.weave_cons, hsecond, ih (o + 2) hrest]
  | case5 inBlock c d s hblock hline hopen ih =>
    rw [Bool.not_eq_true] at hblock
    subst hblock
    have hrest : AreCuts inserts (o + 1) false (d :: s) :=
      hcuts.of_code (x := c) (by rw [blankLine_code hline hopen])
    have hopens : ∀ x ∈ (Edit.weave inserts (o + 1) (d :: s)).head?, opens c x = false := by
      refine opens_head?_textsAt hinset (fun x hx => ?_) (o + 1)
      obtain rfl : d = x := by simpa using hx
      exact opens_eq_false hline hopen
    rw [Edit.weave_cons, (isInset_textsAt hinset o).blankLine_append, blankLine_cons hopens,
      ih (o + 1) hrest, blankLine_code hline hopen, Edit.weave_cons]
  | case6 s inBlock hshort =>
    cases inBlock with
    | true => exact blankLine_weave_short (eq_nil_or_singleton hshort) hcuts
    | false =>
      rcases eq_nil_or_singleton hshort with rfl | ⟨c, rfl⟩
      · exact blankLine_weave_nil hinset hcuts
      · have hrest : AreCuts inserts (o + 1) false [] := hcuts.of_code (x := c) rfl
        have hopens : ∀ x ∈ (Edit.weave inserts (o + 1) []).head?, opens c x = false := by
          rw [Edit.weave_end (hrest.le (by simp [blankLine])),
            ← List.append_nil (Edit.textsAt inserts (o + 1)).flatten]
          exact opens_head?_textsAt hinset (by simp) (o + 1)
        rw [Edit.weave_cons, (isInset_textsAt hinset o).blankLine_append, blankLine_cons hopens,
          blankLine_weave_nil hinset hrest]
        rfl

end Comment

namespace Text

/-! ### Trimming -/

/-- Blanks at the end of a text are trimmed away. -/
lemma trimRight_append {g : Text} (hg : isBlankOnly g = true) (t : Text) :
    trimRight (t ++ g) = trimRight t := by
  rw [trimRight, List.reverse_append, trimRight]
  exact congrArg List.reverse (trimLeft_append (isBlankOnly_reverse hg) t.reverse)

/-- A text whose last character is not blank stays as it is. -/
lemma trimRight_of_getLast? {t : Text} (h : ∀ c ∈ t.getLast?, isBlank c = false) :
    trimRight t = t := by
  rw [trimRight]
  cases hrev : t.reverse with
  | nil => rw [List.dropWhile_nil, ← hrev, List.reverse_reverse]
  | cons c r =>
    have hc : isBlank c = false := h c (by rw [← List.head?_reverse, hrev]; rfl)
    rw [List.dropWhile_cons_of_neg (by simp [hc]), ← hrev, List.reverse_reverse]

/-- The last character of a trimmed text is not blank. -/
lemma getLast?_trimRight (t : Text) : ∀ c ∈ (trimRight t).getLast?, isBlank c = false := by
  intro c hc
  rw [trimRight, List.getLast?_reverse] at hc
  cases hdrop : t.reverse.dropWhile isBlank with
  | nil =>
    rw [hdrop] at hc
    exact absurd hc (by simp)
  | cons d r =>
    rw [hdrop, List.head?_cons, Option.mem_some_iff] at hc
    have hne := List.head_dropWhile_not isBlank (l := t.reverse) (by rw [hdrop]; simp)
    simp only [hdrop, List.head_cons] at hne
    rw [← hc]
    exact hne

/-- Blanks are only trimmed behind the last character that is not blank. -/
lemma trimRight_append_of_getLast? {s : Text} {c : Char} (hc : s.getLast? = some c)
    (hblank : isBlank c = false) (t : Text) : trimRight (s ++ t) = s ++ trimRight t := by
  obtain ⟨g, hg, ht⟩ := exists_trimRight_append t
  conv_lhs => rw [← ht, ← List.append_assoc, trimRight_append hg]
  refine trimRight_of_getLast? fun d hd => ?_
  rw [List.getLast?_append, Option.mem_def] at hd
  cases hlast : (trimRight t).getLast? with
  | none =>
    rw [hlast, hc] at hd
    obtain rfl : c = d := by simpa using hd
    exact hblank
  | some x =>
    rw [hlast] at hd
    obtain rfl : x = d := by simpa using hd
    exact getLast?_trimRight t _ hlast

end Text

namespace Edit

/-- The last character of a text stays the last one if nothing is put behind it. -/
lemma getLast?_weaveFront (inserts : List (Nat × Text)) (column : Nat) (t : Text) :
    (weaveFront inserts column t).getLast? = t.getLast? := by
  induction t generalizing column with
  | nil => rfl
  | cons c t ih =>
    rw [weaveFront, List.getLast?_append, List.getLast?_cons, ih, List.getLast?_cons]
    rfl

/-- Texts that are put into a line before its trailing blanks. -/
lemma trimRight_weave {inserts : List (Nat × Text)} (l : Text)
    (hbound : ∀ insert ∈ inserts, insert.1 ≤ (Text.trimRight l).length)
    (hends : ∀ insert ∈ inserts, insert.1 = (Text.trimRight l).length →
      ∃ c ∈ insert.2.getLast?, isBlank c = false) :
    Text.trimRight (weave inserts 0 l) = weave inserts 0 (Text.trimRight l) := by
  obtain ⟨g, hg, hl⟩ := Text.exists_trimRight_append l
  set code := Text.trimRight l with hcode
  have hweave : weave inserts 0 l = weave inserts 0 code ++ g := by
    rw [← hl, weave_append_eq, weave_eq_weaveFront (t := code) (by simpa using hbound), Nat.zero_add]
    cases g with
    | nil => rw [weave_end hbound, List.append_nil]
    | cons c g =>
      rw [weave_cons, weave_of_lt fun insert hinsert => Nat.lt_succ_of_le (hbound insert hinsert),
        List.append_assoc]
  rw [hweave, Text.trimRight_append hg]
  refine Text.trimRight_of_getLast? fun c hc => ?_
  rw [weave_eq_weaveFront (by simpa using hbound), Nat.zero_add] at hc
  rcases List.eq_nil_or_concat (textsAt inserts code.length) with hnone | ⟨segs, seg, hsome⟩
  · rw [hnone, List.flatten_nil, List.append_nil, getLast?_weaveFront] at hc
    exact Text.getLast?_trimRight l c hc
  · obtain ⟨d, hd, hblank⟩ := hends _ (exists_of_mem_textsAt
      (by rw [hsome]; simp : seg ∈ textsAt inserts code.length)) rfl
    rw [hsome, List.concat_eq_append, List.flatten_concat, ← List.append_assoc,
      List.getLast?_append, Option.mem_def.mp hd] at hc
    obtain rfl : d = c := by simpa using hc
    exact hblank

/-- A line of its own that is code as a whole. -/
structure IsPlainLine (t : Text) : Prop where
  plain : ∀ c ∈ t, c ≠ '/' ∧ c ≠ '*'
  last : ∀ c ∈ t.getLast?, isBlank c = false

/-- Such a line has no comments. -/
lemma IsPlainLine.stripFrom_append {ts : List Text} (h : ∀ t ∈ ts, IsPlainLine t) (ls : List Text) :
    Comment.stripFrom false (ts ++ ls) = ts ++ Comment.stripFrom false ls := by
  induction ts with
  | nil => rfl
  | cons t ts ih =>
    have ht := h t List.mem_cons_self
    have hblank := Comment.blankLine_append_of_plain (fun c hc => (ht.plain c hc).1) []
    rw [List.append_nil, Comment.blankLine, List.append_nil] at hblank
    rw [List.cons_append, Comment.stripFrom, hblank]
    dsimp only
    rw [Text.trimRight_of_getLast? ht.last, ih fun x hx => h x (List.mem_cons_of_mem t hx),
      List.cons_append]

/-- The edits of a line are made in code.  The flag `inBlock` says that a block comment is open in
front of the line. -/
structure FitsLine (edits : List Edit) (line : Nat) (inBlock : Bool) (l : Text) : Prop where
  before : ∀ t ∈ edits.filterMap (before? line), inBlock = false ∧ IsPlainLine t
  after : ∀ t ∈ edits.filterMap (after? line),
    (Comment.blankLine inBlock l).2 = false ∧ IsPlainLine t
  plain : ∀ insert ∈ edits.filterMap (inside? line), ∀ c ∈ insert.2, c ≠ '/' ∧ c ≠ '*'
  cut : ∀ insert ∈ edits.filterMap (inside? line), Comment.IsCut inBlock l insert.1
  bound : ∀ insert ∈ edits.filterMap (inside? line),
    insert.1 ≤ (Text.trimRight (Comment.blankLine inBlock l).1).length
  ends : ∀ insert ∈ edits.filterMap (inside? line),
    insert.1 = (Text.trimRight (Comment.blankLine inBlock l).1).length →
      ∃ c ∈ insert.2.getLast?, isBlank c = false

/-- **Removing the comments of edited lines is editing the lines without their comments.** -/
theorem stripFrom_applyFrom {edits : List Edit} (lines : List Text) (first : Nat) (inBlock : Bool)
    (h : ∀ n l, lines[n]? = some l →
      FitsLine edits (first + n) (Comment.isOpenAfter inBlock (lines.take n)) l) :
    Comment.stripFrom inBlock (applyFrom edits first lines) =
      applyFrom edits first (Comment.stripFrom inBlock lines) := by
  induction lines generalizing first inBlock with
  | nil => rfl
  | cons l ls ih =>
    have hfits : FitsLine edits first inBlock l := h 0 l rfl
    have hrest := ih (first + 1) (Comment.blankLine inBlock l).2 fun n l' hl' => by
      have := h (n + 1) l' (by simpa using hl')
      rwa [Nat.add_assoc, Nat.add_comm 1]
    have hweave := Comment.blankLine_weave
      (fun insert hinsert => .of_plain (hfits.plain insert hinsert))
      inBlock l 0 (.of_isCut hfits.cut)
    -- the line itself, then the lines behind it
    have hline : Comment.stripFrom inBlock (weave (edits.filterMap (inside? first)) 0 l ::
          (edits.filterMap (after? first) ++ applyFrom edits (first + 1) ls)) =
        weave (edits.filterMap (inside? first)) 0 (Text.trimRight (Comment.blankLine inBlock l).1) ::
          (edits.filterMap (after? first) ++
            applyFrom edits (first + 1)
              (Comment.stripFrom (Comment.blankLine inBlock l).2 ls)) := by
      rw [Comment.stripFrom, hweave]
      dsimp only
      rw [trimRight_weave _ hfits.bound hfits.ends, ← hrest]
      cases hafter : edits.filterMap (after? first) with
      | nil => rfl
      | cons t ts =>
        have hclosed := (hfits.after t (by rw [hafter]; exact List.mem_cons_self)).1
        rw [hclosed, IsPlainLine.stripFrom_append]
        intro x hx
        exact (hfits.after x (by rw [hafter]; exact hx)).2
    rw [applyFrom, applyLine, Comment.stripFrom, applyFrom, applyLine, List.append_assoc,
      List.cons_append, List.append_assoc, List.cons_append, ← hline]
    cases hbefore : edits.filterMap (before? first) with
    | nil => rfl
    | cons t ts =>
      have hopen := (hfits.before t (by rw [hbefore]; exact List.mem_cons_self)).1
      rw [hopen, IsPlainLine.stripFrom_append]
      intro x hx
      exact (hfits.before x (by rw [hbefore]; exact hx)).2

end Edit

end ShaderProbe
