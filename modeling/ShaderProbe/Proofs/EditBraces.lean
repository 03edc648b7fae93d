import Mathlib
import ShaderProbe.Proofs.EditedCode
import ShaderProbe.Proofs.Output

/-!
# What edits keep

Edits only put text in.  `Edit.image` gives the number of a line among the edited lines: the numbers
increase, a line is a subsequence of the line at its number, and every other line is the text of an
edit (`Edit.getElem?_image` and `Edit.exists_of_getElem?_applyFrom`).

The rest of the file counts braces in texts of any kind, in which a block comment may be open
between two lines.  Texts that are put next to code count, and lines of their own that hold neither
braces nor comment marks do not, whether they lie in a comment or not: `Edit.openBlocks_apply`.
-/

namespace ShaderProbe

/-- A quiet text opens and closes no block. -/
lemma Comment.IsQuiet.braceDelta {t : Text} (h : IsQuiet t) : Text.braceDelta t = 0 := by
  have hfree := Text.isFreeOf_iff.mp h.isFreeOfBraces
  rw [Text.braceDelta, List.count_eq_zero.mpr fun hc => hfree _ hc (by simp),
    List.count_eq_zero.mpr fun hc => hfree _ hc (by simp)]
  rfl

/-- Quiet lines hold no braces and leave an open comment open. -/
lemma Comment.braces_of_isQuiet {ts : List Text} (h : ∀ t ∈ ts, IsQuiet t) (inBlock : Bool) :
    Text.bracesOf (blankFrom inBlock ts) = 0 ∧ isOpenAfter inBlock ts = inBlock := by
  induction ts with
  | nil => exact ⟨rfl, rfl⟩
  | cons t ts ih =>
    obtain ⟨hdelta, hopen⟩ := (h t List.mem_cons_self).blankLine inBlock
    obtain ⟨hsum, hrest⟩ := ih fun x hx => h x (List.mem_cons_of_mem t hx)
    rw [blankFrom, isOpenAfter, hopen, Text.bracesOf_cons, hdelta, hsum]
    exact ⟨rfl, hrest⟩

namespace Edit

/-! ### Lines -/

/-- The number of a line among the edited lines, for lines numbered from `first`. -/
def image (edits : List Edit) (first : Nat) : List Text → Nat → Nat
  | [], n => n
  | _ :: _, 0 => (edits.filterMap (before? first)).length
  | l :: ls, n + 1 => (applyLine edits first l).length + image edits (first + 1) ls n

/-- Lines stay in their order. -/
lemma strictMono_image (edits : List Edit) (first : Nat) (ls : List Text) :
    StrictMono (image edits first ls) := by
  refine strictMono_nat_of_lt_succ fun n => ?_
  induction ls generalizing first n with
  | nil =>
    rw [image, image]
    exact Nat.lt_succ_self n
  | cons l ls ih =>
    cases n with
    | zero =>
      rw [image, image, applyLine, List.length_append, List.length_cons]
      omega
    | succ n => exact Nat.add_lt_add_left (ih (first + 1) n) _

/-- A text is a subsequence of the text that it becomes. -/
lemma sublist_weave (inserts : List (Nat × Text)) (column : Nat) (t : Text) :
    t.Sublist (weave inserts column t) := by
  induction t generalizing column with
  | nil => exact List.nil_sublist _
  | cons c t ih =>
    rw [weave_cons]
    exact ((ih (column + 1)).cons_cons c).trans (List.sublist_append_right _ _)

/-- A line is found at its number, with the texts of the edits put in. -/
lemma getElem?_image (edits : List Edit) {first n : Nat} {ls : List Text} {l : Text}
    (hl : ls[n]? = some l) :
    (applyFrom edits first ls)[image edits first ls n]? =
      some (weave (edits.filterMap (inside? (first + n))) 0 l) := by
  induction ls generalizing first n with
  | nil => simp at hl
  | cons x ls ih =>
    cases n with
    | zero =>
      obtain rfl : x = l := by simpa using hl
      rw [image, applyFrom, applyLine, List.append_assoc,
        List.getElem?_append_right (le_refl _), Nat.sub_self]
      rfl
    | succ n =>
      rw [List.getElem?_cons_succ] at hl
      rw [image, applyFrom, List.getElem?_append_right (Nat.le_add_right _ _),
        Nat.add_sub_cancel_left, ih hl, Nat.add_right_comm, Nat.add_assoc]

/-- **Every edited line is a line at its number or a line of its own.** -/
lemma exists_of_getElem?_applyFrom {edits : List Edit} {first k : Nat} {ls : List Text} {l' : Text}
    (h : (applyFrom edits first ls)[k]? = some l') :
    (∃ n < ls.length, image edits first ls n = k) ∨ ∃ e ∈ edits, e.rank ≠ 1 ∧ e.text = l' := by
  induction ls generalizing first k with
  | nil => simp [applyFrom] at h
  | cons x ls ih =>
    rw [applyFrom] at h
    by_cases hk : k < (applyLine edits first x).length
    · rw [List.getElem?_append_left hk, applyLine] at h
      -- a line in front of the line, the line itself, or a line behind it
      rcases Nat.lt_trichotomy k (edits.filterMap (before? first)).length with hlt | rfl | hgt
      · rw [List.getElem?_append_left hlt] at h
        obtain ⟨e, he, htext⟩ := List.mem_filterMap.mp (List.mem_of_getElem? h)
        exact .inr ⟨e, he, by cases e <;> simp_all [before?, rank], text_of_before? htext⟩
      · exact .inl ⟨0, by simp, rfl⟩
      · rw [List.getElem?_append_right hgt.le, List.getElem?_cons,
          if_neg (Nat.sub_ne_zero_of_lt hgt)] at h
        obtain ⟨e, he, htext⟩ := List.mem_filterMap.mp (List.mem_of_getElem? h)
        exact .inr ⟨e, he, by cases e <;> simp_all [after?, rank], text_of_after? htext⟩
    · rw [List.getElem?_append_right (Nat.le_of_not_lt hk)] at h
      rcases ih h with ⟨n, hn, hnk⟩ | hown
      · refine .inl ⟨n + 1, Nat.succ_lt_succ hn, ?_⟩
        rw [image, hnk]
        omega
      · exact .inr hown

/-! ### Braces -/

/-- The edit is made in a line of comments and code: inside the line next to the code, or on a line
of its own that holds neither braces nor comment marks. -/
def IsBesideCode (inBlock : Bool) (l : Text) : Edit → Prop
  | lineBefore _ text => Comment.IsQuiet text
  | lineAfter _ text => Comment.IsQuiet text
  | inline _ column text => Comment.IsInset text ∧ Comment.IsCut inBlock l column

/-- What is counted from a number on is counted at the number and behind it. -/
lemma sum_filter_ge {α : Type} (key : α → Nat) (f : α → Int) (l : List α) (o : Nat) :
    ((l.filter fun a => o ≤ key a).map f).sum =
      ((l.filter fun a => key a = o).map f).sum +
        ((l.filter fun a => o + 1 ≤ key a).map f).sum := by
  induction l with
  | nil => rfl
  | cons a l ih =>
    rcases Nat.lt_trichotomy (key a) o with h | h | h <;> grind

/-- What a text opens is what it has opened before and what is put in. -/
lemma braceDelta_weave (inserts : List (Nat × Text)) (column : Nat) (t : Text) :
    Text.braceDelta (weave inserts column t) = Text.braceDelta t +
      ((inserts.filter fun insert => column ≤ insert.1).map fun insert =>
        Text.braceDelta insert.2).sum := by
  induction t generalizing column with
  | nil =>
    rw [weave, braceDelta_flatten, List.map_map, Text.braceDelta_nil, zero_add]
    rfl
  | cons c t ih =>
    have hcons : ∀ u : Text, Text.braceDelta (c :: u) = Text.braceDelta [c] + Text.braceDelta u :=
      fun u => Text.braceDelta_append [c] u
    rw [weave_cons, Text.braceDelta_append, hcons (weave _ _ _), ih, hcons t, braceDelta_flatten,
      sum_filter_ge Prod.fst _ inserts column, textsAt, List.map_map]
    simp only [Function.comp_def]
    ring

/-- The edits of a line count as the texts inside it. -/
lemma sum_inside? {edits : List Edit} {line : Nat}
    (h : ∀ e ∈ edits, e.line = line → e.rank ≠ 1 → Text.braceDelta e.text = 0) :
    ((edits.filterMap (inside? line)).map fun insert => Text.braceDelta insert.2).sum =
      ((edits.filter fun e => e.line = line).map fun e => Text.braceDelta e.text).sum := by
  induction edits with
  | nil => rfl
  | cons e edits ih =>
    have hrest := ih fun x hx => h x (List.mem_cons_of_mem e hx)
    -- a line of its own adds nothing
    have hown : e.rank ≠ 1 → (((e :: edits).filter fun e => e.line = line).map fun e =>
        Text.braceDelta e.text).sum =
          ((edits.filter fun e => e.line = line).map fun e => Text.braceDelta e.text).sum := by
      intro hrank
      rw [List.filter_cons]
      split
      · next hline =>
        rw [List.map_cons, List.sum_cons, h e List.mem_cons_self (of_decide_eq_true hline) hrank,
          zero_add]
      · rfl
    cases e with
    | lineBefore place text => rw [List.filterMap_cons_none rfl, hrest, hown Nat.zero_ne_one]
    | lineAfter place text => rw [List.filterMap_cons_none rfl, hrest, hown (Nat.succ_ne_self 1)]
    | inline place column text =>
      rw [List.filterMap_cons, List.filter_cons, inside?, Edit.line]
      by_cases hline : place = line
      · rw [if_pos hline, if_pos (decide_eq_true hline), List.map_cons, List.map_cons,
          List.sum_cons, List.sum_cons, hrest]
        rfl
      · rw [if_neg hline, if_neg (by simpa using hline), hrest]

/-- **The braces of an edited line.** -/
lemma braces_applyLine {edits : List Edit} {line : Nat} {inBlock : Bool} {l : Text}
    (h : ∀ e ∈ edits, e.line = line → e.IsBesideCode inBlock l) :
    Text.bracesOf (Comment.blankFrom inBlock (applyLine edits line l)) =
        Text.braceDelta (Comment.blankLine inBlock l).1 +
          ((edits.filter fun e => e.line = line).map fun e => Text.braceDelta e.text).sum ∧
      Comment.isOpenAfter inBlock (applyLine edits line l) = (Comment.blankLine inBlock l).2 := by
  have hbefore : ∀ t ∈ edits.filterMap (before? line), Comment.IsQuiet t := by
    intro t ht
    obtain ⟨e, he, heq⟩ := List.mem_filterMap.mp ht
    have := h e he
    cases e <;> simp_all [before?, Edit.line, IsBesideCode]
  have hafter : ∀ t ∈ edits.filterMap (after? line), Comment.IsQuiet t := by
    intro t ht
    obtain ⟨e, he, heq⟩ := List.mem_filterMap.mp ht
    have := h e he
    cases e <;> simp_all [after?, Edit.line, IsBesideCode]
  have hinside : ∀ insert ∈ edits.filterMap (inside? line),
      Comment.IsInset insert.2 ∧ Comment.IsCut inBlock l insert.1 := by
    intro insert hinsert
    obtain ⟨e, he, heq⟩ := List.mem_filterMap.mp hinsert
    have := h e he
    cases e <;> grind [inside?, Edit.line, IsBesideCode]
  have hown : ∀ e ∈ edits, e.line = line → e.rank ≠ 1 → Text.braceDelta e.text = 0 := by
    intro e he hline hrank
    have := h e he hline
    cases e with
    | lineBefore place text => exact this.braceDelta
    | lineAfter place text => exact this.braceDelta
    | inline place column text => exact absurd rfl hrank
  have hweave := Comment.blankLine_weave (fun insert hinsert => (hinside insert hinsert).1) inBlock
    l 0 (.of_isCut fun insert hinsert => (hinside insert hinsert).2)
  obtain ⟨hfront, hopen⟩ := Comment.braces_of_isQuiet hbefore inBlock
  obtain ⟨hback, hopen'⟩ := Comment.braces_of_isQuiet hafter (Comment.blankLine inBlock l).2
  rw [applyLine, Comment.blankFrom_append, Comment.isOpenAfter_append, hopen, Comment.blankFrom,
    Comment.isOpenAfter, hweave, Text.bracesOf_append, Text.bracesOf_cons, hfront, hback, hopen',
    braceDelta_weave, ← sum_inside? hown]
  simp

/-- **The braces of edited lines**, for lines numbered from `first`. -/
theorem braces_applyFrom {edits : List Edit} (ls : List Text) (first : Nat) (inBlock : Bool)
    (hbound : ∀ e ∈ edits, e.line < first + ls.length)
    (h : ∀ n l, ls[n]? = some l → ∀ e ∈ edits, e.line = first + n →
      e.IsBesideCode (Comment.isOpenAfter inBlock (ls.take n)) l) :
    Text.bracesOf (Comment.blankFrom inBlock (applyFrom edits first ls)) =
        Text.bracesOf (Comment.blankFrom inBlock ls) +
          ((edits.filter fun e => first ≤ e.line).map fun e => Text.braceDelta e.text).sum ∧
      Comment.isOpenAfter inBlock (applyFrom edits first ls) = Comment.isOpenAfter inBlock ls := by
  induction ls generalizing first inBlock with
  | nil =>
    have hnone : (edits.filter fun e => first ≤ e.line) = [] :=
      List.filter_eq_nil_iff.mpr fun e he => by simpa using hbound e he
    rw [hnone]
    exact ⟨by simp [applyFrom, Comment.blankFrom], rfl⟩
  | cons l ls ih =>
    have hfirst : ∀ e ∈ edits, e.line = first → e.IsBesideCode inBlock l := h 0 l rfl
    obtain ⟨hline, hopen⟩ := braces_applyLine hfirst
    obtain ⟨hrest, hopen'⟩ := ih (first + 1) (Comment.blankLine inBlock l).2
      (fun e he => by have := hbound e he; simp only [List.length_cons] at this; omega)
      fun n x hx e he heq => h (n + 1) x hx e he (by omega)
    rw [applyFrom, Comment.blankFrom_append, Comment.isOpenAfter_append, hopen,
      Text.bracesOf_append, hline, hrest, hopen', Comment.blankFrom, Text.bracesOf_cons,
      sum_filter_ge line _ edits first]
    exact ⟨by ring, rfl⟩

/-- The edit is made in a line from `start` on, next to the code if it is made inside the line. -/
structure IsBeside (lines : List Text) (start : Nat) (e : Edit) : Prop where
  start_le : start ≤ e.line
  exists_line : ∃ l, lines[e.line]? = some l ∧
    e.IsBesideCode (Comment.isOpenAfter false (lines.take e.line)) l

/-- **What is left open after edits**: the blocks that were left open, and those that the edits
open. A block comment is open behind the edited lines if one is open behind the lines. -/
theorem openBlocks_apply {edits : List Edit} {lines : List Text} {start : Nat}
    (h : ∀ e ∈ edits, e.IsBeside lines start) :
    Balance.openBlocks (apply edits lines) start =
        Balance.openBlocks lines start + (edits.map fun e => Text.braceDelta e.text).sum ∧
      Comment.isOpenAfter false (apply edits lines) = Comment.isOpenAfter false lines := by
  cases edits with
  | nil => simp
  | cons e₀ rest =>
    obtain ⟨hstart₀, l₀, hl₀, -⟩ := h e₀ List.mem_cons_self
    have hle : start ≤ lines.length := hstart₀.trans (List.getElem?_eq_some_iff.mp hl₀).1.le
    generalize e₀ :: rest = edits at h ⊢
    have hlength : (lines.take start).length = start := List.length_take_of_le hle
    obtain ⟨htake, hdrop⟩ := @applyFrom_split edits 0 start
      (fun e he => by rw [Nat.zero_add]; exact (h e he).start_le) lines
    rw [Nat.zero_add] at hdrop
    have hall : (edits.filter fun e => start ≤ e.line) = edits :=
      List.filter_eq_self.mpr fun e he => decide_eq_true (h e he).start_le
    obtain ⟨hbraces, hopen⟩ := braces_applyFrom (lines.drop start) start
      (Comment.isOpenAfter false (lines.take start))
      (fun e he => by
        obtain ⟨-, l, hl, -⟩ := h e he
        have := (List.getElem?_eq_some_iff.mp hl).1
        rw [List.length_drop]
        omega)
      fun n l hl e he hline => by
        obtain ⟨-, l', hl', hbeside⟩ := h e he
        rw [hline] at hl' hbeside
        rw [List.getElem?_drop, hl', Option.some.injEq] at hl
        rwa [← Comment.isOpenAfter_append, ← List.take_add, ← hl]
    have hfront : ∀ ls : List Text, Balance.openBlocks (lines.take start ++ ls) start =
        Text.bracesOf (Comment.blankFrom (Comment.isOpenAfter false (lines.take start)) ls) := by
      intro ls
      nth_rewrite 2 [← hlength]
      exact Balance.openBlocks_append _ _
    rw [apply_eq_applyFrom, ← List.take_append_drop start (applyFrom edits 0 lines), htake, hdrop,
      hfront, hbraces, hall, Comment.isOpenAfter_append, hopen, ← hfront,
      ← Comment.isOpenAfter_append, List.take_append_drop]
    exact ⟨rfl, rfl⟩

end Edit

end ShaderProbe
