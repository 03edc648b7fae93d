import Mathlib
import ShaderProbe.Proofs.LineSearch
import ShaderProbe.Proofs.Text

/-!
# Offsets and positions

The position of an offset is found from the lengths of the lines.  Positions are ordered as offsets
are (`FlatText.isBefore_locate`), and where no line contains a line feed the position of an offset
is the one reached by walking over the text in front of it (`FlatText.locateFrom_eq_after`).  So
lines that agree up to an offset give it the same position.
-/

namespace ShaderProbe

namespace Position

/-- The position reached from a position by walking over a text. -/
def after (position : Position) : Text → Position
  | [] => position
  | c :: t =>
    after (if c = '\n' then ⟨position.line + 1, 0⟩ else ⟨position.line, position.column + 1⟩) t

/-- A text without line feeds stays on its line. -/
lemma after_of_not_mem {t : Text} (h : '\n' ∉ t) (position : Position) :
    position.after t = ⟨position.line, position.column + t.length⟩ := by
  induction t generalizing position with
  | nil => rfl
  | cons c t ih =>
    rw [List.mem_cons, not_or] at h
    rw [after, if_neg (fun hc => h.1 hc.symm), ih h.2, List.length_cons, Nat.add_comm t.length,
      Nat.add_assoc]

/-- Walking over a text is walking over its parts. -/
lemma after_append (position : Position) (s t : Text) :
    position.after (s ++ t) = (position.after s).after t := by
  induction s generalizing position with
  | nil => rfl
  | cons c s ih => rw [List.cons_append, after, ih, after]

/-- A position lies in front of another one. -/
lemma isBefore_iff {p q : Position} :
    p.isBefore q.line q.column = true ↔
      p.line < q.line ∨ p.line = q.line ∧ p.column < q.column := by
  simp [isBefore]

/-- A position lies after another one that lies in front of it. -/
lemma isAfter_eq (p q : Position) : p.isAfter q.line q.column = q.isBefore p.line p.column := rfl

end Position

namespace FlatText

/-- The position of an offset is reached by walking over the text in front of it. -/
lemma locateFrom_eq_after {ls : List Text} (hne : ls ≠ []) (hline : ∀ l ∈ ls, '\n' ∉ l) :
    ∀ (line offset : Nat), offset ≤ (Text.ofLines ls).length →
      locateFrom line ls offset = Position.after ⟨line, 0⟩ ((Text.ofLines ls).take offset) := by
  induction ls with
  | nil => exact absurd rfl hne
  | cons l ls ih =>
    intro line offset hoffset
    have hl : '\n' ∉ l := hline l List.mem_cons_self
    have htake : ∀ k, '\n' ∉ l.take k := fun k h => hl (List.mem_of_mem_take h)
    cases ls with
    | nil =>
      rw [Text.ofLines_singleton] at hoffset ⊢
      rw [locateFrom, Position.after_of_not_mem (htake offset), List.length_take,
        Nat.min_eq_left hoffset, Nat.zero_add]
    | cons l' ls =>
      rw [Text.ofLines_cons_cons] at hoffset ⊢
      rw [locateFrom]
      split
      · rename_i hle
        rw [List.take_append_of_le_length hle, Position.after_of_not_mem (htake offset),
          List.length_take, Nat.min_eq_left hle, Nat.zero_add]
      · rename_i hlt
        obtain ⟨k, rfl⟩ : ∃ k, offset = l.length + (k + 1) := ⟨offset - (l.length + 1), by omega⟩
        rw [ih (by simp) (fun x hx => hline x (List.mem_cons_of_mem _ hx)) (line + 1) _
          (by simp only [List.length_append, List.length_cons] at hoffset; omega),
          List.take_length_add_append, List.take_succ_cons, Position.after_append,
          Position.after_of_not_mem hl, Position.after, if_pos rfl]
        congr 2
        omega

/-- Lines that agree up to an offset give it the same position. -/
lemma locateFrom_eq_of_append {ls ls' : List Text} (hne : ls ≠ []) (hne' : ls' ≠ [])
    (hline : ∀ l ∈ ls, '\n' ∉ l) (hline' : ∀ l ∈ ls', '\n' ∉ l) {a x y : Text}
    (h : Text.ofLines ls = a ++ x) (h' : Text.ofLines ls' = a ++ y) (line : Nat) {offset : Nat}
    (hoffset : offset ≤ a.length) : locateFrom line ls offset = locateFrom line ls' offset := by
  rw [locateFrom_eq_after hne hline line offset (by rw [h, List.length_append]; omega),
    locateFrom_eq_after hne' hline' line offset (by rw [h', List.length_append]; omega), h, h',
    List.take_append_of_le_length hoffset, List.take_append_of_le_length hoffset]

/-- Positions lie on the lines that are there. -/
lemma le_line_locateFrom (ls : List Text) (line offset : Nat) :
    line ≤ (locateFrom line ls offset).line := by
  induction ls generalizing line offset with
  | nil => exact le_rfl
  | cons l ls ih =>
    cases ls with
    | nil => exact le_rfl
    | cons l' ls =>
      rw [locateFrom]
      split
      · exact le_rfl
      · exact le_trans (Nat.le_succ line) (ih (line + 1) _)

/-- A smaller offset has a position that lies in front. -/
lemma isBefore_locateFrom (ls : List Text) {o o' : Nat} (h : o < o') (line : Nat) :
    (locateFrom line ls o).isBefore (locateFrom line ls o').line (locateFrom line ls o').column =
      true := by
  induction ls generalizing line o o' with
  | nil => exact Position.isBefore_iff.mpr (.inr ⟨rfl, h⟩)
  | cons l ls ih =>
    cases ls with
    | nil => exact Position.isBefore_iff.mpr (.inr ⟨rfl, h⟩)
    | cons l' ls =>
      rw [locateFrom, locateFrom]
      split
      · split
        · exact Position.isBefore_iff.mpr (.inr ⟨rfl, h⟩)
        · refine Position.isBefore_iff.mpr (.inl ?_)
          exact Nat.lt_of_lt_of_le (Nat.lt_succ_self line) (le_line_locateFrom _ (line + 1) _)
      · rw [if_neg (by omega)]
        exact ih (by omega) (line + 1)

/-- Positions are ordered as offsets are. -/
lemma isBefore_locate (flat : FlatText) (o o' : Nat) :
    (flat.locate o).isBefore (flat.locate o').line (flat.locate o').column = decide (o < o') := by
  rw [Bool.eq_iff_iff, decide_eq_true_iff, locate_eq_locateFrom, locate_eq_locateFrom]
  refine ⟨fun h => ?_, fun h => isBefore_locateFrom flat.lines h flat.firstLine⟩
  rw [Position.isBefore_iff] at h
  by_contra hle
  rcases Nat.lt_or_eq_of_le (Nat.le_of_not_lt hle) with hlt | rfl
  · have := Position.isBefore_iff.mp (isBefore_locateFrom flat.lines hlt flat.firstLine)
    omega
  · omega

/-- Different offsets have different positions. -/
lemma locate_injective (flat : FlatText) : Function.Injective flat.locate := by
  intro o o' h
  have hlt := flat.isBefore_locate o o'
  have hgt := flat.isBefore_locate o' o
  have hself := flat.isBefore_locate o o
  rw [← h, hself] at hlt hgt
  simp only [lt_self_iff_false, decide_false, Bool.false_eq, decide_eq_false_iff_not] at hlt hgt
  omega

end FlatText

end ShaderProbe
