import Mathlib
import ShaderProbe.Proofs.CodeWords

/-!
# Stretches inside a statement

A stretch is a piece of code inside one statement: its parentheses match, and no statement, no block
and no loop starts or ends in it (`Text.IsStretch`).  The text in front of a statement is ended if a
`;` or a brace is the last of it that is not blank (`Text.IsEnded`).

Behind an ended text, what a statement is the body of depends on the stretch alone
(`LoopSpan.isBareBody_append`), and no loop has a mark in the stretch
(`LoopSpan.IsTrue.not_mem_stretch`).
-/

namespace ShaderProbe

/-! ### Ended texts -/

namespace Text

/-- The last character of the text that is not blank ends a statement or bounds a block. -/
def IsEnded (t : Text) : Prop :=
  ∃ front c gap, t = front ++ c :: gap ∧ c ∈ [';', '{', '}'] ∧ isBlankOnly gap = true

variable {s t : Text}

/-- A text that starts with blanks is blank if the rest of it is. -/
lemma isBlankOnly_append (s t : Text) :
    isBlankOnly (s ++ t) = (isBlankOnly s && isBlankOnly t) := by
  simp [isBlankOnly, List.all_append]

/-- Blanks in front of a text that is not blank are trimmed away whatever follows. -/
lemma trimLeft_append_of_not_blank {s : Text} (h : ¬isBlankOnly s = true) (t : Text) :
    trimLeft s ≠ [] ∧ trimLeft (s ++ t) = trimLeft s ++ t := by
  have hne : trimLeft s ≠ [] := fun hnil =>
    h (isBlankOnly_iff.mpr (List.dropWhile_eq_nil_iff.mp hnil))
  obtain ⟨c, u, hu⟩ := List.exists_cons_of_ne_nil hne
  have hc : isBlank c = false := by
    have hhead := List.head?_dropWhile_not isBlank s
    rw [show s.dropWhile isBlank = c :: u from hu] at hhead
    simpa using hhead
  refine ⟨hne, ?_⟩
  conv_lhs => rw [← indent_append_trimLeft s, hu, List.append_assoc,
    trimLeft_append (isBlankOnly_indent s), List.cons_append, trimLeft_cons hc]
  rw [hu, List.cons_append]

/-- What stands in front of an ended text does not matter. -/
lemma IsEnded.append_left (h : IsEnded t) (s : Text) : IsEnded (s ++ t) := by
  obtain ⟨front, c, gap, rfl, hc, hgap⟩ := h
  exact ⟨s ++ front, c, gap, by rw [List.append_assoc], hc, hgap⟩

/-- An ended text stays ended if blanks or an ended text follow. -/
lemma IsEnded.append (hs : IsEnded s) (ht : IsEnded t ∨ isBlankOnly t = true) :
    IsEnded (s ++ t) := by
  rcases ht with ht | ht
  · exact ht.append_left s
  · obtain ⟨front, c, gap, rfl, hc, hgap⟩ := hs
    refine ⟨front, c, gap ++ t, by rw [List.append_assoc, List.cons_append], hc, ?_⟩
    rw [isBlankOnly_append, hgap, ht]
    rfl

/-- The last part of an ended text ends a statement, unless it starts with a blank. -/
lemma IsEnded.ink_of_append (h : IsEnded (s ++ t)) (hends : ∀ c ∈ t, c ∉ [';', '{', '}'])
    (hink : ∃ c ∈ t.head?, isBlank c = false) : False := by
  obtain ⟨front, c, gap, heq, hc, hgap⟩ := h
  rcases List.append_eq_append_iff.mp heq with ⟨x, -, hx⟩ | ⟨x, -, hx⟩
  · exact hends c (by rw [hx]; simp) hc
  · cases x with
    | nil => exact hends c (by rw [← List.nil_append t, ← hx]; simp) hc
    | cons d x =>
      obtain ⟨d, hd, hblank⟩ := hink
      have hmem : d ∈ gap := by
        rw [(List.cons.inj hx).2]
        exact List.mem_append_right x (List.mem_of_head? hd)
      exact absurd (isBlankOnly_iff.mp hgap d hmem) (by simp [hblank])

/-- Texts that are ended or blank make one that is. -/
lemma isEnded_or_append (hs : IsEnded s ∨ isBlankOnly s = true)
    (ht : IsEnded t ∨ isBlankOnly t = true) : IsEnded (s ++ t) ∨ isBlankOnly (s ++ t) = true := by
  rcases hs with hs | hs
  · exact .inl (hs.append ht)
  · refine ht.imp (fun ht => ht.append_left s) fun ht => ?_
    rw [isBlankOnly_append, hs, ht]
    rfl

/-- A list of texts that are ended or blank. -/
lemma isEnded_or_flatten {ts : List Text} (h : ∀ t ∈ ts, IsEnded t ∨ isBlankOnly t = true) :
    IsEnded ts.flatten ∨ isBlankOnly ts.flatten = true := by
  induction ts with
  | nil => exact .inr rfl
  | cons t ts ih =>
    rw [List.flatten_cons]
    exact isEnded_or_append (h t List.mem_cons_self)
      (ih fun u hu => h u (List.mem_cons_of_mem t hu))

/-- The last part of an ended text is ended if the front holds nothing that ends a statement. -/
lemma IsEnded.exists_of_append_eq {r x : Text} (h : IsEnded x)
    (hs : isFreeOf [';', '{', '}'] s = true)
    (heq : s ++ t = x ++ r) : ∃ y, x = s ++ y ∧ t = y ++ r ∧ IsEnded y := by
  obtain ⟨front, c, gap, rfl, hc, hgap⟩ := h
  rcases List.append_eq_append_iff.mp heq with ⟨y, hy, ht⟩ | ⟨y, hy, hr⟩
  · rcases List.append_eq_append_iff.mp hy with ⟨z, hz, hrest⟩ | ⟨z, hz, hrest⟩
    · cases z with
      | nil => exact ⟨y, hy, ht, [], c, gap, hrest.symm, hc, hgap⟩
      | cons d z =>
        obtain ⟨rfl, -⟩ := List.cons.inj hrest
        exact absurd hc (isFreeOf_iff.mp hs c (by rw [hz]; simp))
    · exact ⟨y, hy, ht, z, c, gap, hrest, hc, hgap⟩
  · exact absurd hc (isFreeOf_iff.mp hs c (by rw [hy]; simp))

end Text

namespace Edit

variable {inserts : List (Nat × Text)} {column : Nat}

/-- A front is woven piece by piece. -/
lemma weaveFront_append (inserts : List (Nat × Text)) (column : Nat) (s t : Text) :
    weaveFront inserts column (s ++ t) =
      weaveFront inserts column s ++ weaveFront inserts (column + s.length) t := by
  induction s generalizing column with
  | nil => rfl
  | cons c s ih =>
    rw [List.cons_append, weaveFront, ih, weaveFront, List.append_assoc, List.cons_append,
      List.length_cons, Nat.add_assoc, Nat.add_comm 1]

/-- Ended texts that are put into an ended text leave it ended. -/
lemma isEnded_weaveFront (h : ∀ insert ∈ inserts, Text.IsEnded insert.2 ∨
    Text.isBlankOnly insert.2 = true) {t : Text} (ht : Text.IsEnded t) :
    Text.IsEnded (weaveFront inserts column t) := by
  have htexts : ∀ o, Text.IsEnded (textsAt inserts o).flatten ∨
      Text.isBlankOnly (textsAt inserts o).flatten = true := fun o =>
    Text.isEnded_or_flatten fun t ht => h _ (exists_of_mem_textsAt ht)
  have hblank : ∀ (g : Text), Text.isBlankOnly g = true →
      ∀ o, Text.IsEnded (weaveFront inserts o g) ∨
      Text.isBlankOnly (weaveFront inserts o g) = true := by
    intro g hg
    induction g with
    | nil => exact fun o => .inr rfl
    | cons c g ih =>
      intro o
      rw [← List.singleton_append, Text.isBlankOnly_append, Bool.and_eq_true] at hg
      rw [weaveFront, ← List.singleton_append]
      exact Text.isEnded_or_append (htexts o) (Text.isEnded_or_append (.inr hg.1) (ih hg.2 (o + 1)))
  obtain ⟨front, c, gap, rfl, hc, hgap⟩ := ht
  have hend : Text.IsEnded [c] := ⟨[], c, [], rfl, hc, rfl⟩
  rw [weaveFront_append, weaveFront, ← List.singleton_append]
  exact ((hend.append (hblank gap hgap _)).append_left _).append_left _

end Edit

/-! ### Bare bodies behind an ended text -/

/-- A bracket closes in a text that closes at least as much as is open. -/
lemma Text.exists_closingFrom {opening closing : Char} (hne : opening ≠ closing) {t : Text}
    {d : Int} (hd : 1 ≤ d) (h : d + t.count opening - t.count closing ≤ 0) :
    ∃ n, closingFrom opening closing d t = some n := by
  induction t generalizing d with
  | nil =>
    simp only [List.count_nil, Nat.cast_zero] at h
    omega
  | cons c t ih =>
    rw [closingFrom]
    by_cases hopen : c = opening
    · subst hopen
      rw [List.count_cons_self, List.count_cons_of_ne hne] at h
      obtain ⟨n, hn⟩ := ih (d := d + 1) (by omega) (by push_cast at h; omega)
      exact ⟨n + 1, by rw [if_pos rfl, hn]; rfl⟩
    · rw [if_neg hopen]
      rw [List.count_cons_of_ne hopen] at h
      by_cases hclose : c = closing
      · subst hclose
        rw [List.count_cons_self] at h
        rw [if_pos rfl]
        by_cases hone : d = 1
        · exact ⟨0, if_pos hone⟩
        · obtain ⟨n, hn⟩ := ih (d := d - 1) (by omega) (by push_cast at h; omega)
          exact ⟨n + 1, by rw [if_neg hone, hn]; rfl⟩
      · rw [List.count_cons_of_ne hclose] at h
        obtain ⟨n, hn⟩ := ih hd h
        exact ⟨n + 1, by rw [if_neg hclose, hn]; rfl⟩

namespace LoopSpan

/-- A text, given in reverse, behind which a keyword stands on its own: blanks and then a character
that is neither blank nor part of a word. -/
lemma endsWithWord_append_stop {words : List Text}
    (hwords : ∀ w ∈ words, ∀ c ∈ w, isWordChar c = true)
    {stop : Text} (hstop : ∀ c ∈ stop.head?, isWordChar c = false ∧ c ≠ '.') (x : Text) :
    endsWithWord words (x ++ stop) = endsWithWord words x := by
  unfold endsWithWord
  rw [Bool.eq_iff_iff, List.any_eq_true, List.any_eq_true]
  refine exists_congr fun w => and_congr_right fun hw => Bool.eq_iff_iff.mp ?_
  cases hread : Text.readLiteral? w.reverse x with
  | some rest =>
    rw [Text.readLiteral?_eq_some_iff] at hread
    rw [Text.readLiteral?_eq_some_iff.mpr (by rw [hread, List.append_assoc] : x ++ stop =
      w.reverse ++ (rest ++ stop))]
    cases rest with
    | cons c rest => rfl
    | nil =>
      cases stop with
      | nil => rfl
      | cons c stop =>
        obtain ⟨hword, hdot⟩ := hstop c rfl
        simp [hword, hdot]
  | none =>
    cases hread' : Text.readLiteral? w.reverse (x ++ stop) with
    | none => rfl
    | some rest =>
      exfalso
      rw [Text.readLiteral?_eq_some_iff] at hread'
      rcases List.append_eq_append_iff.mp hread' with ⟨y, hy, hstopEq⟩ | ⟨y, hy, -⟩
      · cases y with
        | nil =>
          rw [List.append_nil] at hy
          rw [Text.readLiteral?_eq_some_iff.mpr (by rw [hy, List.append_nil] : x = w.reverse ++ [])]
            at hread
          exact absurd hread (by simp)
        | cons c y =>
          have hc : isWordChar c = true := hwords w hw c (List.mem_reverse.mp (by rw [hy]; simp))
          exact absurd (hc.symm.trans (hstop c (by rw [hstopEq]; rfl)).1) (by simp)
      · rw [Text.readLiteral?_eq_some_iff.mpr hy] at hread
        exact absurd hread (by simp)

/-- The words in front of which an ended text can stand. -/
lemma endsWithWord_append_isEnded {words : List Text}
    (hwords : ∀ w ∈ words, Text.isIdent w = true) {s : Text} (hs : Text.IsEnded s) (r : Text) :
    endsWithWord words (Text.trimLeft (r ++ s.reverse)) =
      endsWithWord words (Text.trimLeft r) := by
  obtain ⟨front, c, gap, rfl, hc, hgap⟩ := hs
  have hink : isBlank c = false ∧ isWordChar c = false ∧ c ≠ '.' := by
    simp only [List.mem_cons, List.not_mem_nil, or_false] at hc
    rcases hc with rfl | rfl | rfl <;> exact ⟨by decide, by decide, by decide⟩
  have hrev : (front ++ c :: gap).reverse = gap.reverse ++ c :: front.reverse := by simp
  have hblank := Text.isBlankOnly_iff.mp (Text.isBlankOnly_reverse hgap)
  have hchars : ∀ w ∈ words, ∀ c ∈ w, isWordChar c = true := fun w hw =>
    Text.isWordChar_of_isIdent (hwords w hw)
  rw [hrev]
  by_cases hr : Text.isBlankOnly r = true
  · -- the last character of the ended text is no part of a word
    have hnone : endsWithWord words [] = false := by
      rw [endsWithWord, List.any_eq_false]
      intro w hw
      cases hread : Text.readLiteral? w.reverse [] with
      | none => simp
      | some rest =>
        have heq := Text.readLiteral?_eq_some_iff.mp hread
        exact absurd (List.reverse_eq_nil_iff.mp (List.append_eq_nil_iff.mp heq.symm).1)
          (by rintro rfl; exact absurd (hwords _ hw) (by decide))
    rw [Text.trimLeft_append hr, Text.trimLeft_append (Text.isBlankOnly_reverse hgap),
      Text.trimLeft_cons hink.1, ← List.nil_append (c :: front.reverse),
      endsWithWord_append_stop hchars (by
        rintro d ⟨⟩
        exact hink.2), hnone]
    have hempty : Text.trimLeft r = [] := List.dropWhile_eq_nil_iff.mpr (Text.isBlankOnly_iff.mp hr)
    rw [hempty, hnone]
  · rw [(Text.trimLeft_append_of_not_blank hr _).2]
    refine endsWithWord_append_stop hchars (fun x hx => ?_) _
    cases hg : gap.reverse with
    | nil =>
      rw [hg] at hx
      obtain rfl : c = x := Option.some.inj hx
      exact hink.2
    | cons y g =>
      rw [hg] at hx hblank
      obtain rfl : y = x := Option.some.inj hx
      have hy := hblank y List.mem_cons_self
      exact ⟨isWordChar_eq_false_of_isBlank hy, by rintro rfl; exact absurd hy (by decide)⟩

/-- **What a statement is the body of** depends on the text behind the last statement or block, if
its parentheses match. -/
lemma isBareBody_append {s : Text} (hs : Text.IsEnded s) {t : Text}
    (ht : Text.isBalanced t = true) : isBareBody (s ++ t).reverse = isBareBody t.reverse := by
  obtain ⟨hcount, -⟩ := Text.isBalanced_iff.mp ht
  rw [List.reverse_append]
  by_cases hblank : Text.isBlankOnly t = true
  · obtain ⟨front, c, gap, rfl, hc, hgap⟩ := hs
    have hend : isBareBody (c :: front.reverse) = false := isBareBody_delimiter (by
      simp only [List.mem_cons, List.not_mem_nil, or_false] at hc ⊢
      tauto) _
    have hrev := Text.isBlankOnly_reverse hblank
    rw [isBareBody_gap hrev, List.reverse_append, List.reverse_cons, List.append_assoc,
      isBareBody_gap (Text.isBlankOnly_reverse hgap), List.singleton_append, hend,
      ← List.append_nil t.reverse, isBareBody_gap hrev]
    rfl
  · have htrim := Text.trimLeft_append_of_not_blank (s := t.reverse) (by
      intro h
      have := Text.isBlankOnly_reverse h
      rw [List.reverse_reverse] at this
      exact hblank this) s.reverse
    have hwords : ∀ w ∈ (["else", "do"] : List Text), Text.isIdent w = true := by decide
    have hwords' : ∀ w ∈ (["if", "for", "while"] : List Text), Text.isIdent w = true := by decide
    have hsame := endsWithWord_append_isEnded hwords hs t.reverse
    obtain ⟨d, u, hu⟩ := List.exists_cons_of_ne_nil htrim.1
    have hhead : (Text.trimLeft t.reverse ++ s.reverse).head? =
        (Text.trimLeft t.reverse).head? := by
      rw [hu]
      rfl
    rw [isBareBody, isBareBody, hsame, htrim.2, hhead]
    by_cases hparen : (Text.trimLeft t.reverse).head? = some ')'
    · rw [if_pos hparen, if_pos hparen]
      rw [hu, List.head?_cons, Option.some.injEq] at hparen
      subst hparen
      have hcounts : ∀ c, isBlank c = false → (')' :: u).count c = t.count c := by
        intro c hc
        have hindent : (Text.indent t.reverse).count c = 0 := List.count_eq_zero.mpr fun hmem =>
          absurd (Text.isBlankOnly_iff.mp (Text.isBlankOnly_indent _) c hmem) (by simp [hc])
        rw [← hu, ← List.count_reverse (l := t), ← Text.indent_append_trimLeft t.reverse,
          List.count_append, hindent, Nat.zero_add, Text.indent_append_trimLeft]
      have hopens := hcounts '(' (by decide)
      have hcloses := hcounts ')' (by decide)
      rw [List.count_cons_of_ne (by decide)] at hopens
      rw [List.count_cons_self] at hcloses
      obtain ⟨n, hn⟩ := Text.exists_closingFrom (by decide : ')' ≠ '(') (t := u) (d := 1) le_rfl
        (by omega)
      have hclose : Text.closingFrom ')' '(' 0 (')' :: u) = some (n + 1) := by
        rw [Text.closingFrom, if_pos rfl, show (0 : Int) + 1 = 1 from rfl, hn]
        rfl
      have hle : n + 1 + 1 ≤ (')' :: u).length := by
        obtain ⟨a, x, ha, hlength, -⟩ := Text.exists_of_closingFrom hclose
        rw [ha, List.length_append, List.length_cons]
        omega
      rw [hu, hclose, Text.closingFrom_append_of_some hclose]
      dsimp only
      rw [List.drop_append_of_le_length hle, endsWithWord_append_isEnded hwords' hs]
    · rw [if_neg hparen, if_neg hparen]

end LoopSpan

/-! ### Stretches -/

namespace Text

/-- A piece of code inside one statement: its parentheses match, no statement and no block starts or
ends in it, and it names no loop. -/
structure IsStretch (t : Text) : Prop where
  isBalanced : isBalanced t = true
  isFreeOfEnds : isFreeOf [';', '{', '}'] t = true
  countWord : ∀ keyword ∈ LoopSpan.keywords, countWord keyword t = 0

instance (t : Text) : Decidable (IsStretch t) :=
  decidable_of_iff (Text.isBalanced t = true ∧ isFreeOf [';', '{', '}'] t = true ∧
      ∀ keyword ∈ LoopSpan.keywords, Text.countWord keyword t = 0)
    ⟨fun h => ⟨h.1, h.2.1, h.2.2⟩, fun h => ⟨h.1, h.2, h.3⟩⟩

variable {s t : Text}

/-- Every front of a balanced text opens at least what it closes. -/
lemma parenDelta_nonneg (h : isBalanced t = true) {front : Text} (hfront : front <+: t) :
    0 ≤ parenDelta front := by
  have := (isBalanced_iff.mp h).2 front hfront
  rw [parenDelta]
  omega

/-- Balanced texts make a balanced one. -/
lemma isBalanced_append (hs : isBalanced s = true) (ht : isBalanced t = true) :
    isBalanced (s ++ t) = true := by
  obtain ⟨hcount, -⟩ := isBalanced_iff.mp hs
  obtain ⟨hcount', hfront'⟩ := isBalanced_iff.mp ht
  refine isBalanced_iff.mpr ⟨by rw [List.count_append, List.count_append, hcount, hcount'], ?_⟩
  rintro front ⟨r, hr⟩
  rcases List.append_eq_append_iff.mp hr with ⟨x, rfl, -⟩ | ⟨x, rfl, rfl⟩
  · exact (isBalanced_iff.mp hs).2 front ⟨x, rfl⟩
  · have := hfront' x ⟨r, rfl⟩
    rw [List.count_append, List.count_append]
    omega

/-- A loop keyword is a word. -/
lemma isIdent_keyword {keyword : Text} (h : keyword ∈ LoopSpan.keywords) :
    isIdent keyword = true ∧ keyword ≠ [] := by
  have hall : ∀ w ∈ LoopSpan.keywords, isIdent w = true ∧ w ≠ [] := by decide
  exact hall keyword h

/-- Two stretches make one, unless a word runs from one into the other. -/
lemma IsStretch.append (hs : IsStretch s) (ht : IsStretch t)
    (h : startsWord s.reverse = false ∨ startsWord t = false) : IsStretch (s ++ t) := by
  refine ⟨isBalanced_append hs.isBalanced ht.isBalanced, isFreeOf_iff.mpr fun c hc => ?_,
    fun keyword hkeyword => ?_⟩
  · exact (List.mem_append.mp hc).elim (isFreeOf_iff.mp hs.isFreeOfEnds c)
      (isFreeOf_iff.mp ht.isFreeOfEnds c)
  · have hne := (isIdent_keyword hkeyword).2
    rcases h with h | h
    · rw [countWord_append_left hne h, hs.countWord keyword hkeyword, ht.countWord keyword hkeyword]
    · rw [countWord_append_right hne s h, hs.countWord keyword hkeyword,
        ht.countWord keyword hkeyword]

/-- A text without parentheses and ends that names no loop. -/
lemma isStretch_of_plain (h : ∀ c ∈ t, c ∉ ['(', ')', ';', '{', '}'])
    (hcount : ∀ keyword ∈ LoopSpan.keywords, countWord keyword t = 0) : IsStretch t := by
  refine ⟨isBalanced_iff.mpr ⟨?_, fun front hfront => ?_⟩, isFreeOf_iff.mpr fun c hc hmem => ?_, hcount⟩
  · rw [List.count_eq_zero.mpr fun hc => h _ hc (by simp),
      List.count_eq_zero.mpr fun hc => h _ hc (by simp)]
  · rw [List.count_eq_zero.mpr fun hc => h _ (hfront.subset hc) (by simp)]
    exact Nat.zero_le _
  · exact h c hc (by simp only [List.mem_cons] at hmem ⊢; tauto)

/-- Blanks are a stretch. -/
lemma isStretch_of_isBlankOnly (h : isBlankOnly t = true) : IsStretch t := by
  refine isStretch_of_plain (fun c hc hmem => ?_) fun keyword hkeyword => ?_
  · have hblank := isBlankOnly_iff.mp h c hc
    simp only [List.mem_cons, List.not_mem_nil, or_false] at hmem
    rcases hmem with rfl | rfl | rfl | rfl | rfl <;> exact absurd hblank (by decide)
  · obtain ⟨hident, hne⟩ := isIdent_keyword hkeyword
    obtain ⟨c, w, rfl⟩ := List.exists_cons_of_ne_nil hne
    exact countWord_of_isBlankOnly List.mem_cons_self
      (isWordChar_of_isIdent hident c List.mem_cons_self) h

/-- Behind its first blanks a stretch is one. -/
lemma IsStretch.of_append (h : IsStretch (s ++ t)) (hs : isBlankOnly s = true) : IsStretch t := by
  have hblank := isStretch_of_isBlankOnly hs
  obtain ⟨hcount, hfront⟩ := isBalanced_iff.mp h.isBalanced
  obtain ⟨hcount', -⟩ := isBalanced_iff.mp hblank.isBalanced
  refine ⟨isBalanced_iff.mpr ⟨?_, ?_⟩, isFreeOf_iff.mpr fun c hc => ?_, fun keyword hkeyword => ?_⟩
  · rw [List.count_append, List.count_append] at hcount
    omega
  · intro front hprefix
    have := hfront (s ++ front) ((List.prefix_append_right_inj s).mpr hprefix)
    rw [List.count_append, List.count_append] at this
    omega
  · exact isFreeOf_iff.mp h.isFreeOfEnds c (List.mem_append_right s hc)
  · have hword : startsWord s.reverse = false := by
      cases hrev : s.reverse with
      | nil => rfl
      | cons c r =>
        exact isWordChar_of_isBlankOnly hs c (List.mem_reverse.mp (hrev ▸ List.mem_cons_self))
    have hall := h.countWord keyword hkeyword
    rw [countWord_append_left (isIdent_keyword hkeyword).2 hword] at hall
    omega

end Text

/-! ### Loops around a stretch -/

namespace Text

/-- As far as a bracket that closes, brackets stay open, and one is left in front of it. -/
lemma depth_of_closingFrom {t : Text} {d : Int} {n : Nat} (hd : 1 ≤ d)
    (h : closingFrom '(' ')' d t = some n) :
    (∀ k ≤ n, 1 ≤ d + parenDelta (t.take k)) ∧ d + parenDelta (t.take n) = 1 := by
  induction t generalizing d n with
  | nil => exact absurd h (by simp [closingFrom])
  | cons c t ih =>
    -- the depth behind the first character
    have hstep : ∀ m e, closingFrom '(' ')' e t = some m → 1 ≤ e → e = d + parenDelta [c] →
        n = m + 1 → (∀ k ≤ n, 1 ≤ d + parenDelta ((c :: t).take k)) ∧
          d + parenDelta ((c :: t).take n) = 1 := by
      rintro m e hm he rfl rfl
      obtain ⟨hall, hlast⟩ := ih he hm
      refine ⟨fun k hk => ?_, by rw [List.take_succ_cons, parenDelta_cons, ← hlast]; ring⟩
      cases k with
      | zero => simpa using hd
      | succ k =>
        have := hall k (by omega)
        rw [List.take_succ_cons, parenDelta_cons]
        omega
    rw [closingFrom] at h
    split at h
    · rename_i hopen
      subst hopen
      obtain ⟨m, hm, rfl⟩ := Option.map_eq_some_iff.mp h
      exact hstep m _ hm (by omega) rfl rfl
    · split at h
      · rename_i hclose
        subst hclose
        split at h
        · rename_i hone
          obtain rfl := Option.some.inj h
          refine ⟨fun k hk => ?_, by simp [hone]⟩
          obtain rfl : k = 0 := by omega
          simp [hone]
        · obtain ⟨m, hm, rfl⟩ := Option.map_eq_some_iff.mp h
          exact hstep m _ hm (by omega) rfl rfl
      · rename_i hopen hclose
        obtain ⟨m, hm, rfl⟩ := Option.map_eq_some_iff.mp h
        refine hstep m d hm hd ?_ rfl
        rw [parenDelta, List.count_singleton, List.count_singleton]
        simp [hopen, hclose]

/-- A front that does not hold a character ends in front of it. -/
lemma isPrefix_of_not_mem {w s t : Text} {c : Char} (h : w <+: s ++ c :: t) (hc : c ∉ w) :
    w <+: s := by
  rcases List.prefix_or_prefix_of_prefix h (List.prefix_append s (c :: t)) with hle | ⟨x, rfl⟩
  · exact hle
  · cases x with
    | nil => rw [List.append_nil]
    | cons d x =>
      have hx := (List.prefix_append_right_inj s).mp h
      obtain ⟨rfl, -⟩ := List.cons_prefix_cons.mp hx
      exact absurd (by simp) hc

end Text

namespace LoopSpan

variable {front stretch rest : Text} {span : LoopSpan}

/-- No loop starts in a stretch in front of a `;` or a brace. -/
lemma IsTrue.keyword_not_mem {x : Char} (h : span.IsTrue (front ++ (stretch ++ x :: rest)))
    (hx : x ∈ [';', '{', '}']) (hstretch : stretch.IsStretch) :
    span.keyword < front.length ∨ front.length + stretch.length ≤ span.keyword := by
  by_contra hin
  obtain ⟨i, hi⟩ : ∃ i, span.keyword = front.length + i := ⟨span.keyword - front.length, by omega⟩
  obtain ⟨a, t, hdrop, ⟨keyword, hmem, gap, group, hgap, rfl, -⟩, -⟩ := h.header
  have hword := h.isWordStart
  rw [hi, ← List.drop_drop, List.drop_left, List.drop_append_of_le_length (by omega)] at hdrop
  rw [hi, List.take_length_add_append, List.take_append_of_le_length (by omega),
    List.reverse_append] at hword
  have hblank := Text.isBlankOnly_iff.mp hgap
  have hchars := Text.isWordChar_of_isIdent (Text.isIdent_keyword hmem).1
  -- the header up to its parenthesis lies inside the stretch
  obtain ⟨r, hr⟩ : keyword ++ (gap ++ ['(']) <+: stretch.drop i := by
    refine Text.isPrefix_of_not_mem (c := x) (t := rest) ?_ fun hmem' => ?_
    · rw [hdrop]
      exact ⟨group ++ ')' :: t, by simp⟩
    · obtain ⟨hink, hopens, -⟩ := ends_cases hx
      simp only [List.mem_append, List.mem_singleton] at hmem'
      rcases hmem' with hc | hc | hc
      · have hchar := hchars _ hc
        simp only [List.mem_cons, List.not_mem_nil, or_false] at hx
        rcases hx with rfl | rfl | rfl <;> exact absurd hchar (by decide)
      · exact absurd (hblank _ hc) (by simp [hink])
      · exact hopens hc
  have hend : Text.startsWord (gap ++ ('(' :: r)) = false := by
    cases gap with
    | nil => exact (by decide : isWordChar '(' = false)
    | cons c gap => exact isWordChar_eq_false_of_isBlank (hblank c List.mem_cons_self)
  have hstart : Text.startsWord (stretch.take i).reverse = false := by
    cases hrev : (stretch.take i).reverse with
    | nil => rfl
    | cons c u =>
      rw [hrev] at hword
      exact hword
  have hcount := hstretch.countWord keyword hmem
  have hne := (Text.isIdent_keyword hmem).2
  rw [← List.take_append_drop i stretch, ← hr, Text.countWord_append_left hne hstart,
    List.append_assoc, List.append_assoc, List.singleton_append,
    Text.countWord_append_right hne keyword hend, Text.countWord_of_word hchars,
    if_pos rfl] at hcount
  omega

/-- A header that starts in an ended text has its parenthesis there, and what follows closes no more
parentheses than it opens. -/
lemma IsHeader.parenDelta_nonpos {prior b s : Text} (h : IsHeader (b ++ s))
    (hended : Text.IsEnded (prior ++ b)) (hne : b ≠ []) : Text.parenDelta s ≤ 0 := by
  obtain ⟨c, b, rfl⟩ := List.exists_cons_of_ne_nil hne
  have hink : ∃ d ∈ (c :: b).head?, isBlank d = false := by
    obtain ⟨d, u, hcons, hd⟩ := h.exists_cons
    obtain ⟨rfl, -⟩ := List.cons.inj hcons
    exact ⟨c, rfl, by rcases hd with rfl | rfl <;> decide⟩
  obtain ⟨keyword, hmem, gap, group, hgap, hsplit, hclose⟩ := h
  -- a keyword with blanks behind it holds nothing that ends a text
  have hlead : ∀ x, c :: b ++ x = keyword ++ gap → False := by
    intro x hx
    refine hended.ink_of_append (fun d hd hmem' => ?_) hink
    have hd : d ∈ keyword ++ gap := hx ▸ List.mem_append_left x hd
    simp only [List.mem_cons, List.not_mem_nil, or_false] at hmem'
    rcases List.mem_append.mp hd with hd | hd
    · have hword := Text.isWordChar_of_isIdent (Text.isIdent_keyword hmem).1 d hd
      rcases hmem' with rfl | rfl | rfl <;> exact absurd hword (by decide)
    · have hblank := Text.isBlankOnly_iff.mp hgap d hd
      rcases hmem' with rfl | rfl | rfl <;> exact absurd hblank (by decide)
  rw [← List.append_assoc] at hsplit
  rcases List.append_eq_append_iff.mp hsplit with ⟨x, hx, -⟩ | ⟨x, hx, hgroup⟩
  · exact absurd hx.symm (hlead x)
  · cases x with
    | nil => exact (hlead [] (by rw [hx, List.append_nil, List.append_nil])).elim
    | cons d x =>
      -- the parentheses that are open in front are still open behind the last one
      obtain ⟨-, rfl⟩ := List.cons.inj (hgroup.trans List.cons_append)
      obtain ⟨hall, hlast⟩ := Text.depth_of_closingFrom le_rfl hclose
      have hopen := hall x.length (by simp)
      rw [List.append_assoc, List.take_left] at hopen
      rw [List.take_left, Text.parenDelta_append] at hlast
      omega

/-- What is recorded behind the keyword of a loop and stands in a stretch is the end of the header.
-/
lemma IsTrue.parenClose_of_mem_stretch (h : span.IsTrue (front ++ (stretch ++ ';' :: rest)))
    (hstretch : stretch.IsStretch) {i : Nat} (hi : i < stretch.length)
    (htail : span.IsTail (front.length + i)) :
    front.length + i = span.parenClose ∧ stretch[i]? = some ')' := by
  have hget : (front ++ (stretch ++ ';' :: rest))[front.length + i]? = stretch[i]? := by
    rw [List.getElem?_append_right (by omega), Nat.add_sub_cancel_left,
      List.getElem?_append_left hi]
  have hends : ∀ c ∈ [';', '{', '}'], stretch[i]? ≠ some c := fun c hc heq =>
    Text.isFreeOf_iff.mp hstretch.isFreeOfEnds c (List.mem_of_getElem? heq) hc
  have hparen : front.length + i = span.parenClose := by
    rcases htail with hclose | hbrace | hend
    · exact hclose
    · have hopens := (h.brace _ hbrace).getElem?
      rw [hget] at hopens
      exact absurd hopens (hends '{' (by simp))
    · have hcloses := (h.bodyEnd _ hend).2.2
      rw [hget] at hcloses
      rcases hcloses with hcloses | hcloses
      · exact absurd hcloses (hends ';' (by simp))
      · exact absurd hcloses (hends '}' (by simp))
  refine ⟨hparen, ?_⟩
  rw [← hget, hparen]
  exact h.parenClose

/-- **A loop has no mark in a stretch** behind an ended text. -/
lemma IsTrue.not_mem_stretch (h : span.IsTrue (front ++ (stretch ++ ';' :: rest)))
    (hfront : front.IsEnded) (hstretch : stretch.IsStretch) {m : Nat} (hm : m ∈ span.marks) :
    m < front.length ∨ front.length + stretch.length ≤ m := by
  rcases mem_marks_iff.mp hm with rfl | htail
  · exact h.keyword_not_mem (by decide) hstretch
  by_contra hin
  obtain ⟨i, rfl⟩ : ∃ i, m = front.length + i := ⟨m - front.length, by omega⟩
  have hi : i < stretch.length := by omega
  obtain ⟨hparen, hget⟩ := h.parenClose_of_mem_stretch hstretch hi htail
  have hlt := h.keyword_lt
  have hkeyword : span.keyword < front.length := by
    have := h.keyword_not_mem (by decide) hstretch
    omega
  obtain ⟨a, t, hdrop, hheader, hlength, -⟩ := h.header
  -- the header reaches from the text in front of the stretch into it
  have ha : a = front.drop span.keyword ++ stretch.take i := by
    have htake := congrArg (List.take a.length) hdrop
    rw [List.take_left, List.drop_append_of_le_length hkeyword.le, List.take_append,
      List.length_drop, List.take_of_length_le (by rw [List.length_drop]; omega),
      List.take_append_of_le_length (by omega)] at htake
    rw [← htake]
    congr 2
    omega
  have hdelta : 1 ≤ Text.parenDelta (stretch.take i) := by
    have hnonneg := Text.parenDelta_nonneg hstretch.isBalanced (List.take_prefix (i + 1) stretch)
    rw [List.take_add_one, hget, Text.parenDelta_append] at hnonneg
    have hone : Text.parenDelta (some ')').toList = -1 := rfl
    omega
  have hended : Text.IsEnded (front.take span.keyword ++ front.drop span.keyword) := by
    rwa [List.take_append_drop]
  have hne : front.drop span.keyword ≠ [] := List.ne_nil_of_length_pos (by
    rw [List.length_drop]
    omega)
  have := (ha ▸ hheader).parenDelta_nonpos hended hne
  omega

end LoopSpan

end ShaderProbe
