import Mathlib
import ShaderProbe.Text.Flat

/-!
# Searching the line of an offset

The line of an offset is searched by halving a range of lines.  `FlatText.IsLastStart` says which
line is searched, without the search; one halving keeps it (`IsLastStart.of_upper`,
`IsLastStart.of_lower`), so the search ends at it and looks at no line that is not there
(`FlatText.exists_search`).

The same line is reached by walking over the lines from the first (`FlatText.locateFrom`), which is
how the other files reason about positions: `FlatText.locate_eq_locateFrom`.
-/

namespace ShaderProbe

namespace FlatText

variable {starts : List Nat} {first offset : Int} {low middle high n start : Nat} {ls : List Text}

/-! ### The search -/

/-- Of the lines `low` to `high`, the line `n` is the last that starts at or in front of an offset;
it may also be `low` if no later line does. -/
structure IsLastStart (starts : List Nat) (offset : Int) (low high n : Nat) : Prop where
  low_le : low ≤ n
  le_high : n ≤ high
  reached : low < n → ∃ start, starts[n]? = some start ∧ (start : Int) ≤ offset
  beyond : ∀ m start, n < m → m ≤ high → starts[m]? = some start → offset < start

/-- The line is searched in the upper half if the middle starts at or in front of the offset. -/
lemma IsLastStart.of_upper (hmiddle : starts[middle]? = some start) (hstart : start ≤ offset)
    (hlow : low ≤ middle) (h : IsLastStart starts offset middle high n) :
    IsLastStart starts offset low high n where
  low_le := hlow.trans h.low_le
  le_high := h.le_high
  reached := by
    intro hlt
    rcases Nat.eq_or_lt_of_le h.low_le with rfl | hmore
    · exact ⟨start, hmiddle, hstart⟩
    · exact h.reached hmore
  beyond := h.beyond

/-- The line is searched below the middle if the middle starts behind the offset. -/
lemma IsLastStart.of_lower (hsorted : starts.Pairwise (· < ·))
    (hmiddle : starts[middle]? = some start) (hstart : offset < start) (hlow : low < middle)
    (hhigh : middle ≤ high) (h : IsLastStart starts offset low (middle - 1) n) :
    IsLastStart starts offset low high n where
  low_le := h.low_le
  le_high := h.le_high.trans (by omega)
  reached := h.reached
  beyond := by
    intro m other hn hm hother
    rcases Nat.lt_trichotomy m middle with hlt | rfl | hlt
    · exact h.beyond m other hn (by omega) hother
    · rw [hmiddle, Option.some_inj] at hother
      rwa [← hother]
    · -- The starts grow, so what starts behind the middle starts behind the offset.
      obtain ⟨hbound, rfl⟩ := List.getElem?_eq_some_iff.mp hother
      obtain ⟨hbound', rfl⟩ := List.getElem?_eq_some_iff.mp hmiddle
      have hlater := List.pairwise_iff_getElem.mp hsorted middle m hbound' hbound hlt
      omega

/-- **The search ends at the line it is for**, on any range of lines that are there. -/
lemma exists_search (hsorted : starts.Pairwise (· < ·)) (offset : Int) (hle : low ≤ high)
    (hhigh : high < starts.length) :
    ∃ n, search starts offset low high = some n ∧ IsLastStart starts offset low high n := by
  fun_induction search starts offset low high with
  | case1 low high hlt middle hnone =>
    have := List.getElem?_eq_none_iff.mp hnone
    omega
  | case2 low high hlt middle start hmiddle hstart ih =>
    obtain ⟨n, hn, hlast⟩ := ih (by omega) hhigh
    exact ⟨n, hn, hlast.of_upper hmiddle hstart (by omega)⟩
  | case3 low high hlt middle start hmiddle hstart ih =>
    obtain ⟨n, hn, hlast⟩ := ih (by omega) (by omega)
    exact ⟨n, hn, hlast.of_lower hsorted hmiddle (by omega) (by omega) (by omega)⟩
  | case4 low high hge =>
    exact ⟨low, rfl, le_rfl, hle, fun h => absurd h (lt_irrefl low),
      fun m start hn hm _ => by omega⟩

/-- Only one line is searched. -/
lemma IsLastStart.le {n' : Nat} (h : IsLastStart starts offset low high n)
    (h' : IsLastStart starts offset low high n') : n' ≤ n := by
  by_contra hlt
  obtain ⟨start, hstart, hle⟩ := h'.reached (by have := h.low_le; omega)
  have := h.beyond n' start (by omega) h'.le_high hstart
  omega

/-! ### Line and column -/

lemma le_of_mem_startsFrom {base : Nat} (h : start ∈ startsFrom base ls) : base ≤ start := by
  induction ls generalizing base with
  | nil => exact absurd h (by simp [startsFrom])
  | cons l ls ih =>
    rw [startsFrom, List.mem_cons] at h
    rcases h with rfl | h
    · exact le_rfl
    · have := ih h
      omega

/-- Later lines start later, also behind an empty line. -/
lemma pairwise_startsFrom (base : Nat) (ls : List Text) :
    (startsFrom base ls).Pairwise (· < ·) := by
  induction ls generalizing base with
  | nil => exact List.Pairwise.nil
  | cons l ls ih =>
    refine List.Pairwise.cons (fun start h => ?_) (ih _)
    have := le_of_mem_startsFrom h
    omega

/-- Without lines there is no place. -/
lemma place?_nil (first offset : Int) : place? [] first offset = none := by
  simp [place?, startsFrom]

/-- Every offset has a line and a column. -/
lemma exists_place? (hne : ls ≠ []) (first offset : Int) :
    ∃ n start, IsLastStart (startsFrom 0 ls) offset 0 (ls.length - 1) n ∧
      (startsFrom 0 ls)[n]? = some start ∧
      place? ls first offset = some (first + n, offset - start) := by
  have hpos : 0 < ls.length := List.length_pos_iff.mpr hne
  obtain ⟨n, hn, hlast⟩ := exists_search (pairwise_startsFrom 0 ls) offset
    (Nat.zero_le (ls.length - 1)) (by rw [length_startsFrom]; omega)
  have hbound : n < (startsFrom 0 ls).length := by
    have := hlast.le_high
    rw [length_startsFrom]
    omega
  refine ⟨n, (startsFrom 0 ls)[n], hlast, List.getElem?_eq_getElem hbound, ?_⟩
  simp [place?, hn, List.getElem?_eq_getElem hbound]

/-- The column counts from the start of the line that is searched. -/
lemma IsLastStart.place?_eq (h : IsLastStart (startsFrom 0 ls) offset 0 (ls.length - 1) n)
    (hstart : (startsFrom 0 ls)[n]? = some start) (first : Int) :
    place? ls first offset = some (first + n, offset - start) := by
  have hne : ls ≠ [] := by
    rintro rfl
    exact absurd hstart (by simp [startsFrom])
  obtain ⟨n', start', hlast, hstart', hplace⟩ := exists_place? hne first offset
  obtain rfl := le_antisymm (hlast.le h) (h.le hlast)
  rw [hstart, Option.some_inj] at hstart'
  rw [hplace, hstart']

/-- **Every offset is looked up on one of the lines**, if there are lines: the position is what the
search gives. -/
lemma locate?_eq_some {flat : FlatText} (hne : flat.lines ≠ []) (o : Nat) :
    flat.locate? o = some ((flat.locate o).line, ((flat.locate o).column : Int)) := by
  obtain ⟨n, start, hlast, hstart, hplace⟩ := exists_place? hne flat.firstLine o
  have hle : (start : Int) ≤ o := by
    rcases Nat.eq_zero_or_pos n with rfl | hpos
    · -- the first line starts at zero
      obtain ⟨l, ls, hlines⟩ := List.exists_cons_of_ne_nil hne
      rw [hlines, startsFrom, List.getElem?_cons_zero, Option.some_inj] at hstart
      omega
    · obtain ⟨start', hstart', hle⟩ := hlast.reached hpos
      obtain rfl : start = start' := Option.some.inj (hstart.symm.trans hstart')
      exact hle
  have hcolumn : (((o : Int) - start).toNat : Int) = o - start := Int.toNat_of_nonneg (by omega)
  simp only [locate, locate?, hplace, Option.map_some, hcolumn]

/-! ### Walking over the lines -/

/-- The position of an offset in lines numbered from `line`, found by walking over the lines.  An
offset past the end lies on the last line. -/
def locateFrom (line : Nat) : List Text → Nat → Position
  | [], offset => ⟨line, offset⟩
  | [_], offset => ⟨line, offset⟩
  | l :: l' :: ls, offset =>
    if offset ≤ l.length then ⟨line, offset⟩
    else locateFrom (line + 1) (l' :: ls) (offset - (l.length + 1))

/-- The walk ends on the last line that starts at or in front of the offset. -/
lemma exists_start_locateFrom (hne : ls ≠ []) (base line o : Nat) :
    ∃ n start column, (startsFrom base ls)[n]? = some start ∧ base + o = start + column ∧
      (∀ m later, n < m → (startsFrom base ls)[m]? = some later → base + o < later) ∧
      locateFrom line ls o = ⟨line + n, column⟩ := by
  induction ls generalizing base line o with
  | nil => exact absurd rfl hne
  | cons l ls ih =>
    cases ls with
    | nil =>
      refine ⟨0, base, o, rfl, rfl, fun m later hm hlater => ?_, rfl⟩
      have := (List.getElem?_eq_some_iff.mp hlater).1
      rw [length_startsFrom, List.length_singleton] at this
      omega
    | cons l' ls =>
      rw [locateFrom]
      split
      · rename_i hle
        refine ⟨0, base, o, rfl, rfl, fun m later hm hlater => ?_, rfl⟩
        obtain ⟨m, rfl⟩ : ∃ k, m = k + 1 := ⟨m - 1, by omega⟩
        rw [startsFrom, List.getElem?_cons_succ] at hlater
        have := le_of_mem_startsFrom (List.mem_of_getElem? hlater)
        omega
      · rename_i hgt
        obtain ⟨n, start, column, hstart, hsum, hbeyond, hlocate⟩ :=
          ih (by simp) (base + l.length + 1) (line + 1) (o - (l.length + 1))
        refine ⟨n + 1, start, column, hstart, by omega, fun m later hm hlater => ?_, ?_⟩
        · obtain ⟨m, rfl⟩ : ∃ k, m = k + 1 := ⟨m - 1, by omega⟩
          have := hbeyond m later (by omega) hlater
          omega
        · rw [hlocate, Nat.add_assoc, Nat.add_comm 1]

/-- **Searching and walking end at the same position.** -/
lemma locate_eq_locateFrom (flat : FlatText) (o : Nat) :
    flat.locate o = locateFrom flat.firstLine flat.lines o := by
  obtain ⟨ls, firstLine⟩ := flat
  by_cases hne : ls = []
  · subst hne
    rw [locate, locate?, place?_nil]
    rfl
  · obtain ⟨n, start, column, hstart, hsum, hbeyond, hlocate⟩ :=
      exists_start_locateFrom hne 0 firstLine o
    have hbound := (List.getElem?_eq_some_iff.mp hstart).1
    rw [length_startsFrom] at hbound
    have hlast : IsLastStart (startsFrom 0 ls) o 0 (ls.length - 1) n :=
      { low_le := Nat.zero_le n
        le_high := by omega
        reached := fun _ => ⟨start, hstart, by omega⟩
        beyond := fun m later hm _ hlater => by
          have := hbeyond m later hm hlater
          omega }
    have hcolumn : ((o : Int) - start).toNat = column := by omega
    have hline : ((firstLine : Int) + n).toNat = firstLine + n := by omega
    simp only [locate, locate?, hlast.place?_eq hstart, Option.map_some, hcolumn, hline, hlocate]

end FlatText

end ShaderProbe
