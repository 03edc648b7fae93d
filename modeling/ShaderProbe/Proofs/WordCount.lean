import Mathlib
import ShaderProbe.Decimal
import ShaderProbe.Proofs.Growth

/-!
# Counting words

`Text.countWord` is the number of times that a word occurs in a text as a whole word.  It adds up
over pieces that do not cut a word (`Text.countWord_append_left`), so texts that are put in between
words add their own words and no others (`Text.countWord_weave`).
-/

namespace ShaderProbe

namespace Text

/-- The number of times that a word occurs in a text as a whole word. -/
def countWord (w t : Text) : Nat := (t.splitOnP fun c => !isWordChar c).count w

variable {w : Text}

/-- A character that is no part of a word separates words. -/
lemma countWord_append_cons {c : Char} (hc : isWordChar c = false) (s t : Text) :
    countWord w (s ++ c :: t) = countWord w s + countWord w t := by
  rw [countWord, List.splitOnP_append_cons s t (by simp [hc]), List.count_append, countWord, countWord]

/-- The empty text has no words. -/
lemma countWord_nil (hw : w ≠ []) : countWord w [] = 0 := by
  rw [countWord, List.splitOnP_nil, List.count_singleton]
  simp [hw]

/-- Words add up behind a piece that does not end in a word. -/
lemma countWord_append_left (hw : w ≠ []) {s : Text} (hs : startsWord s.reverse = false) (t : Text) :
    countWord w (s ++ t) = countWord w s + countWord w t := by
  rcases List.eq_nil_or_concat s with rfl | ⟨r, c, rfl⟩
  · rw [List.nil_append, countWord_nil hw, Nat.zero_add]
  · rw [List.concat_eq_append] at hs ⊢
    have hc : isWordChar c = false := by simpa [startsWord] using hs
    rw [List.append_assoc, List.singleton_append, countWord_append_cons hc,
      countWord_append_cons hc, countWord_nil hw, Nat.add_zero]

/-- Words add up in front of a piece that does not start with a word. -/
lemma countWord_append_right (hw : w ≠ []) (s : Text) {t : Text} (ht : startsWord t = false) :
    countWord w (s ++ t) = countWord w s + countWord w t := by
  cases t with
  | nil => rw [List.append_nil, countWord_nil hw, Nat.add_zero]
  | cons c t =>
    have hcons := countWord_append_cons ht [] t (w := w)
    rw [List.nil_append, countWord_nil hw, Nat.zero_add] at hcons
    rw [countWord_append_cons ht, hcons]

/-- A word is one word. -/
lemma countWord_of_word {t : Text} (ht : ∀ c ∈ t, isWordChar c = true) :
    countWord w t = if t = w then 1 else 0 := by
  rw [countWord, List.splitOnP_eq_singleton fun c hc => by simp [ht c hc], List.count_singleton]
  simp

/-- Words add up over pieces that do not end in a word. -/
lemma countWord_flatten (hw : w ≠ []) {segs : List Text}
    (h : ∀ seg ∈ segs, startsWord seg.reverse = false) :
    countWord w segs.flatten = (segs.map (countWord w)).sum := by
  induction segs with
  | nil => exact countWord_nil hw
  | cons seg segs ih =>
    rw [List.flatten_cons, countWord_append_left hw (h seg List.mem_cons_self),
      ih fun x hx => h x (List.mem_cons_of_mem seg hx), List.map_cons, List.sum_cons]

/-- Pieces that do not end in a word do not end in one when they are put together. -/
lemma startsWord_reverse_flatten {segs : List Text}
    (h : ∀ seg ∈ segs, startsWord seg.reverse = false) :
    startsWord segs.flatten.reverse = false := by
  induction segs with
  | nil => rfl
  | cons seg segs ih =>
    have hrest := ih fun x hx => h x (List.mem_cons_of_mem seg hx)
    rw [List.flatten_cons, List.reverse_append]
    cases hrev : segs.flatten.reverse with
    | nil => exact h seg List.mem_cons_self
    | cons c r =>
      rw [hrev] at hrest
      exact hrest

/-- The texts from a column on are those at the column and those behind it. -/
lemma sum_ge_eq (f : Nat × Text → Nat) (inserts : List (Nat × Text)) (o : Nat) :
    ((inserts.filter fun insert => o ≤ insert.1).map f).sum =
      ((inserts.filter fun insert => insert.1 = o).map f).sum +
        ((inserts.filter fun insert => o + 1 ≤ insert.1).map f).sum := by
  induction inserts with
  | nil => rfl
  | cons insert inserts ih =>
    rcases Nat.lt_trichotomy insert.1 o with h | h | h
    · rw [List.filter_cons_of_neg (by simpa using h), List.filter_cons_of_neg (by simpa using h.ne),
        List.filter_cons_of_neg (by simp only [decide_eq_true_eq]; omega), ih]
    · rw [List.filter_cons_of_pos (by simpa using h.ge), List.filter_cons_of_pos (by simpa using h),
        List.filter_cons_of_neg (by simp only [decide_eq_true_eq]; omega), List.map_cons,
        List.sum_cons, List.map_cons, List.sum_cons, ih, Nat.add_assoc]
    · rw [List.filter_cons_of_pos (by simpa using h.le),
        List.filter_cons_of_neg (by simpa using h.ne'),
        List.filter_cons_of_pos (by simp only [decide_eq_true_eq]; omega), List.map_cons,
        List.sum_cons, List.map_cons, List.sum_cons, ih, Nat.add_left_comm]

/-- The words of a text whose front has been read. -/
lemma countWord_append_weave (hw : w ≠ []) {text : Text} {inserts : List (Nat × Text)}
    (hends : ∀ insert ∈ inserts, startsWord insert.2.reverse = false)
    (hstart : ∀ insert ∈ inserts, startsWord (text.take insert.1).reverse = false) (t : Text)
    {o : Nat} (hdrop : text.drop o = t) (hbound : ∀ insert ∈ inserts, insert.1 ≤ o + t.length)
    {front : Text} (hfront : startsWord front.reverse = startsWord (text.take o).reverse) :
    countWord w (front ++ Edit.weave inserts o t) = countWord w (front ++ t) +
      ((inserts.filter fun insert => o ≤ insert.1).map fun insert => countWord w insert.2).sum := by
  have hsegs : ∀ column, ∀ seg ∈ Edit.textsAt inserts column, startsWord seg.reverse = false :=
    fun column seg hseg => hends _ (Edit.exists_of_mem_textsAt hseg)
  have htexts : ∀ column, countWord w (Edit.textsAt inserts column).flatten =
      ((inserts.filter fun insert => insert.1 = column).map fun insert =>
        countWord w insert.2).sum := by
    intro column
    rw [countWord_flatten hw (hsegs column), Edit.textsAt, List.map_map]
    rfl
  have hcut : ∀ column, Edit.textsAt inserts column ≠ [] →
      startsWord (text.take column).reverse = false := by
    intro column hne
    obtain ⟨seg, hseg⟩ := List.exists_mem_of_ne_nil _ hne
    exact hstart _ (Edit.exists_of_mem_textsAt hseg)
  induction t generalizing o front with
  | nil =>
    have hnone : (inserts.filter fun insert => o + 1 ≤ insert.1) = [] := by
      rw [List.filter_eq_nil_iff]
      intro insert hinsert
      have := hbound insert hinsert
      simp only [List.length_nil, Nat.add_zero] at this
      simp only [decide_eq_true_eq]
      omega
    rw [Edit.weave_end (by simpa using hbound), sum_ge_eq, hnone, ← htexts, List.map_nil,
      List.sum_nil, Nat.add_zero, List.append_nil]
    rcases eq_or_ne (Edit.textsAt inserts o) [] with hempty | hne
    · rw [hempty, List.flatten_nil, List.append_nil, countWord_nil hw, Nat.add_zero]
    · exact countWord_append_left hw (hfront.trans (hcut o hne)) _
  | cons c t ih =>
    have hc : text[o]? = some c := by rw [← List.head?_drop, hdrop, List.head?_cons]
    have hnext : text.drop (o + 1) = t := by
      rw [← List.drop_drop, hdrop]
      rfl
    have hlast : ∀ front : Text,
        startsWord (front ++ [c]).reverse = startsWord (text.take (o + 1)).reverse := by
      intro front
      rw [List.take_add_one, hc, Option.toList_some, List.reverse_append, List.reverse_append]
      rfl
    have hrest : ∀ front : Text,
        countWord w (front ++ c :: Edit.weave inserts (o + 1) t) = countWord w (front ++ c :: t) +
          ((inserts.filter fun insert => o + 1 ≤ insert.1).map
            fun insert => countWord w insert.2).sum := by
      intro front
      have hstep := ih hnext (by simpa [Nat.add_assoc, Nat.add_comm 1] using hbound) (hlast front)
      simpa using hstep
    rw [Edit.weave_cons, sum_ge_eq, ← htexts]
    rcases eq_or_ne (Edit.textsAt inserts o) [] with hempty | hne
    · rw [hempty, List.flatten_nil, List.nil_append, hrest, countWord_nil hw, Nat.zero_add]
    · have hword := hfront.trans (hcut o hne)
      have hone := hrest []
      rw [List.nil_append, List.nil_append] at hone
      rw [countWord_append_left hw hword,
        countWord_append_left hw (startsWord_reverse_flatten (hsegs o)), hone,
        countWord_append_left hw hword]
      omega

/-- **Texts that are put in between words add their own words.** -/
theorem countWord_weave (hw : w ≠ []) {text : Text} {inserts : List (Nat × Text)}
    (hbound : ∀ insert ∈ inserts, insert.1 ≤ text.length)
    (hends : ∀ insert ∈ inserts, startsWord insert.2.reverse = false)
    (hstart : ∀ insert ∈ inserts, startsWord (text.take insert.1).reverse = false) :
    countWord w (Edit.weave inserts 0 text) =
      countWord w text + (inserts.map fun insert => countWord w insert.2).sum := by
  have h := countWord_append_weave (o := 0) hw hends hstart text rfl (by simpa using hbound)
    (rfl : startsWord ([] : Text).reverse = startsWord (text.take 0).reverse)
  rwa [List.filter_eq_self.mpr fun insert _ => by simp, List.nil_append, List.nil_append] at h

end Text

end ShaderProbe
