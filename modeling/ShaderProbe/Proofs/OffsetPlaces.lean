import Mathlib
import ShaderProbe.Proofs.OutlineOrder

/-!
# Offsets and places

The offsets of the flat text are the places of its lines, written one after the other: a place is a
column of a line, or the column behind a line at which a line feed joins it to the next one
(`FlatText.IsPlace`).  Places are compared by line and then by column, and that is the order of the
offsets.  The correspondence holds whatever the lines contain, also if a line is empty or contains a
line feed itself.

The search for functions and the search for loops look up offsets of their own.  All of these are
found on a line: `Outline.exists_locate?_of_mem_functions`, `Loop.exists_locate?_of_mem_find`.
-/

namespace ShaderProbe

namespace FlatText

variable {ls : List Text} {n column : Nat} {l : Text} {first : Int}

/-- A line has a character at a column, or the line feed that joins it to the next line. -/
def IsPlace (ls : List Text) (n column : Nat) : Prop :=
  ∃ l, ls[n]? = some l ∧ column ≤ l.length ∧ (n + 1 = ls.length → column < l.length)

/-! ### The offset of a place -/

/-- A line starts behind the lines in front of it. -/
lemma getElem?_startsFrom (hl : ls[n]? = some l) (base : Nat) :
    (startsFrom base ls)[n]? = some (base + lineStart ls n) := by
  induction ls generalizing n base with
  | nil => exact absurd hl (by simp)
  | cons l' ls ih =>
    cases n with
    | zero => rfl
    | succ n =>
      rw [startsFrom, List.getElem?_cons_succ, ih (by simpa using hl), lineStart_cons_succ]
      congr 1
      omega

/-- The starts of the lines are listed line by line. -/
lemma exists_line_of_getElem?_startsFrom {base start : Nat}
    (h : (startsFrom base ls)[n]? = some start) :
    ∃ l, ls[n]? = some l ∧ start = base + lineStart ls n := by
  have hlt := (List.getElem?_eq_some_iff.mp h).1
  rw [length_startsFrom] at hlt
  have hl : ls[n]? = some ls[n] := List.getElem?_eq_getElem hlt
  rw [getElem?_startsFrom hl, Option.some_inj] at h
  exact ⟨ls[n], hl, h.symm⟩

/-- The line of a place is the last that starts at or in front of its offset. -/
lemma isLastStart_lineStart (hl : ls[n]? = some l) (hcolumn : column ≤ l.length) :
    IsLastStart (startsFrom 0 ls) (lineStart ls n + column : Nat) 0 (ls.length - 1) n where
  low_le := Nat.zero_le n
  le_high := Nat.le_sub_one_of_lt (List.getElem?_eq_some_iff.mp hl).1
  reached := fun _ => ⟨_, getElem?_startsFrom hl 0, by omega⟩
  beyond := by
    intro m start hm _ hstart
    obtain ⟨l', -, rfl⟩ := exists_line_of_getElem?_startsFrom hstart
    have := lineStart_lt hl hm
    omega

/-- A place is found from its offset. -/
lemma place?_lineStart (hl : ls[n]? = some l) (hcolumn : column ≤ l.length) (first : Int) :
    place? ls first (lineStart ls n + column : Nat) = some (first + n, (column : Int)) := by
  rw [(isLastStart_lineStart hl hcolumn).place?_eq (getElem?_startsFrom hl 0)]
  congr 2
  omega

/-! ### The character at a place -/

/-- What the flat text has from the start of a line on. -/
lemma drop_lineStart (hl : ls[n]? = some l) :
    (Text.ofLines ls).drop (lineStart ls n) = Text.ofLines (l :: ls.drop (n + 1)) := by
  obtain ⟨hlt, hget⟩ := List.getElem?_eq_some_iff.mp hl
  rw [(take_drop_ofLines hl (Nat.zero_le _)).2, List.drop_eq_getElem_cons hlt, hget]

/-- The flat text has at the offset of a place the character of the place. -/
lemma getElem?_ofLines_of_isPlace (hl : ls[n]? = some l) (hcolumn : column ≤ l.length)
    (hlast : n + 1 = ls.length → column < l.length) :
    (Text.ofLines ls)[lineStart ls n + column]? = (l ++ ['\n'])[column]? := by
  have hlt := (List.getElem?_eq_some_iff.mp hl).1
  rw [← List.getElem?_drop, drop_lineStart hl]
  cases hrest : ls.drop (n + 1) with
  | nil =>
    have := List.drop_eq_nil_iff.mp hrest
    rw [Text.ofLines_singleton, List.getElem?_append_left (hlast (by omega))]
  | cons l' rest =>
    have hbound : column < (l ++ ['\n']).length := by
      rw [List.length_append, List.length_singleton]
      omega
    rw [Text.ofLines_cons_cons, ← List.singleton_append, ← List.append_assoc,
      List.getElem?_append_left hbound]

/-- The last line ends with the flat text. -/
lemma lineStart_add_length_last (hl : ls[n]? = some l) (hlast : n + 1 = ls.length) :
    lineStart ls n + l.length = (Text.ofLines ls).length := by
  have hdrop := congrArg List.length (drop_lineStart hl)
  rw [List.drop_eq_nil_of_le hlast.ge, Text.ofLines_singleton, List.length_drop] at hdrop
  have := lineStart_add_le hl
  omega

/-- Every offset of the flat text is the offset of a place. -/
lemma exists_isPlace {o : Nat} (ho : o < (Text.ofLines ls).length) :
    ∃ n column, IsPlace ls n column ∧ o = lineStart ls n + column := by
  have hne : ls ≠ [] := by
    rintro rfl
    exact absurd ho (by simp [Text.ofLines])
  obtain ⟨n, l, column, hl, hcolumn, rfl, -⟩ := exists_locateFrom hne ho.le 0
  refine ⟨n, column, ⟨l, hl, hcolumn, fun hlast => ?_⟩, rfl⟩
  have := lineStart_add_length_last hl hlast
  omega

/-! ### The order of places -/

/-- A smaller offset has a smaller place, by line and then by column. -/
lemma toLex_place?_lt {o o' : Int} {place place' : Int × Int} (h : place? ls first o = some place)
    (h' : place? ls first o' = some place') (hlt : o < o') : toLex place < toLex place' := by
  have hne : ls ≠ [] := by
    rintro rfl
    exact absurd h (by simp [place?_nil])
  obtain ⟨n, start, hlast, hstart, hplace⟩ := exists_place? hne first o
  obtain ⟨n', start', hlast', hstart', hplace'⟩ := exists_place? hne first o'
  obtain rfl := Option.some.inj (h.symm.trans hplace)
  obtain rfl := Option.some.inj (h'.symm.trans hplace')
  rw [Prod.Lex.toLex_lt_toLex]
  -- The line of the smaller offset has been reached by the greater one as well.
  have hle : n ≤ n' := by
    by_contra hgt
    obtain ⟨s, hs, hreached⟩ := hlast.reached (by omega)
    have := hlast'.beyond n s (by omega) hlast.le_high hs
    omega
  rcases Nat.lt_or_eq_of_le hle with hline | rfl
  · exact .inl (by simpa using hline)
  · rw [hstart, Option.some_inj] at hstart'
    exact .inr ⟨rfl, by simp only; omega⟩

/-- Places are ordered as offsets are, by line and then by column. -/
lemma toLex_place?_lt_iff {o o' : Int} {place place' : Int × Int}
    (h : place? ls first o = some place) (h' : place? ls first o' = some place') :
    o < o' ↔ toLex place < toLex place' := by
  refine ⟨toLex_place?_lt h h', fun hlt => ?_⟩
  rcases lt_trichotomy o o' with ho | rfl | ho
  · exact ho
  · rw [h, Option.some_inj] at h'
    exact absurd hlt (by simp [h'])
  · exact absurd hlt (toLex_place?_lt h' h ho).asymm

/-- **Offsets and places correspond, and in the same order.**  A place of the lines has the offset
that lies its column behind the start of its line.  There the flat text has the character of the
place, and the place is found from the offset, whatever number the first line has.  Every offset of
the flat text belongs to exactly one place.  Offsets are ordered as the places that are found, by
line and then by column, and this is also how the positions of loops are compared.  The search for
the line ends at a line that is there, for any integer offset, and looks at no other lines: `search`
has no answer once a line is missing. -/
theorem existsUnique_place_and_lt_iff (flat : FlatText) (hne : flat.lines ≠ []) (first : Int) :
    (∀ n column l start, flat.lines[n]? = some l → flat.lineStarts[n]? = some start →
      IsPlace flat.lines n column →
        flat.text[start + column]? = (l ++ ['\n'])[column]? ∧
        place? flat.lines first (start + column : Nat) = some (first + n, (column : Int)) ∧
        flat.locate (start + column) = ⟨flat.firstLine + n, column⟩) ∧
    (∀ o < flat.text.length, ∃! place : Nat × Nat, IsPlace flat.lines place.1 place.2 ∧
      ∃ start, flat.lineStarts[place.1]? = some start ∧ o = start + place.2) ∧
    (∀ o o' : Int, ∃ place place', place? flat.lines first o = some place ∧
      place? flat.lines first o' = some place' ∧ (o < o' ↔ toLex place < toLex place')) ∧
    (∀ o o' : Nat, o < o' ↔
      (flat.locate o).isBefore (flat.locate o').line (flat.locate o').column = true) ∧
    ∀ offset : Int, ∃ n < flat.lines.length,
      search flat.lineStarts offset 0 (flat.lines.length - 1) = some n := by
  refine ⟨?_, ?_, ?_, ?_, ?_⟩
  · rintro n column l start hl hstart ⟨l', hl', hcolumn, hlast⟩
    obtain rfl := Option.some.inj (hl.symm.trans hl')
    rw [lineStarts, getElem?_startsFrom hl, Nat.zero_add, Option.some_inj] at hstart
    subst hstart
    exact ⟨getElem?_ofLines_of_isPlace hl hcolumn hlast, place?_lineStart hl hcolumn first,
      locate_lineStart hl hcolumn flat.firstLine⟩
  · intro o ho
    obtain ⟨n, column, hplace, rfl⟩ := exists_isPlace ho
    obtain ⟨l, hl, hcolumn, -⟩ := id hplace
    have hstart := getElem?_startsFrom hl 0
    rw [Nat.zero_add] at hstart
    refine ⟨(n, column), ⟨hplace, _, hstart, rfl⟩, ?_⟩
    rintro ⟨n', column'⟩ ⟨⟨l', hl', hcolumn', -⟩, start', hstart', heq⟩
    rw [lineStarts, getElem?_startsFrom hl', Nat.zero_add, Option.some_inj] at hstart'
    subst hstart'
    obtain ⟨rfl, rfl⟩ := lineStart_inj hl hl' hcolumn hcolumn' heq
    rfl
  · intro o o'
    obtain ⟨n, start, -, -, hplace⟩ := exists_place? hne first o
    obtain ⟨n', start', -, -, hplace'⟩ := exists_place? hne first o'
    exact ⟨_, _, hplace, hplace', toLex_place?_lt_iff hplace hplace'⟩
  · intro o o'
    rw [isBefore_locate, decide_eq_true_iff]
  · intro offset
    have hpos : 0 < flat.lines.length := List.length_pos_iff.mpr hne
    obtain ⟨n, hn, hlast⟩ := exists_search (pairwise_startsFrom 0 flat.lines) offset
      (Nat.zero_le (flat.lines.length - 1)) (by rw [length_startsFrom]; omega)
    exact ⟨n, by have := hlast.le_high; omega, hn⟩

/-- Lines of which one is empty and one contains a line feed, the first of them numbered below zero.
-/
theorem existsUnique_place_and_lt_iff_empty_line :
    let flat : FlatText := ⟨["ab", "", "c\nd"], 4⟩
    flat.lines ≠ [] ∧ flat.text = "ab\n\nc\nd".toList ∧
      flat.text[3]? = some '\n' ∧ place? flat.lines (-3) 3 = some (-2, 0) ∧
      flat.locate 3 = ⟨5, 0⟩ ∧
      (∃! place : Nat × Nat, IsPlace flat.lines place.1 place.2 ∧
        ∃ start, flat.lineStarts[place.1]? = some start ∧ 5 = start + place.2) := by
  intro flat
  have hne : flat.lines ≠ [] := by decide
  obtain ⟨hplaces, hunique, -⟩ := existsUnique_place_and_lt_iff flat hne (-3)
  obtain ⟨hchar, hplace, hlocate⟩ := hplaces 1 0 [] 3 rfl rfl ⟨[], rfl, by decide, by decide⟩
  exact ⟨hne, by decide, hchar, hplace, hlocate, hunique 5 (by decide)⟩

end FlatText

/-! ### The lookups of functions and loops -/

/-- **The lookup for the end of a function is in range**: the last line of the function is found
from the offset of a closing brace of its code. -/
theorem Outline.exists_locate?_of_mem_functions {config : Config} {lines : List Text}
    {f : Signature} (h : f ∈ functions config lines) {last : Nat} (hlast : f.endLine = some last) :
    ∃ (o : Nat) (column : Int), (Loop.flatCode lines f.startLine)[o]? = some '}' ∧
      FlatText.locate? ⟨Loop.codeFrom lines f.startLine, f.startLine⟩ o = some (last, column) := by
  obtain ⟨header, front, rest, hl, -, -, -, -, htext, -, hend⟩ :=
    exists_of_functionAt? ((functionsFrom_spec _ 0 0 0 rfl).2 f h).2
  rw [hend, Option.map_eq_some_iff] at hlast
  obtain ⟨close, hclose, rfl⟩ := hlast
  have hne : Loop.codeFrom lines f.startLine ≠ [] :=
    List.ne_nil_of_length_pos (by
      have := (List.getElem?_eq_some_iff.mp hl).1
      rw [Loop.codeFrom, List.length_drop]
      omega)
  refine ⟨front.length + close, _, ?_, FlatText.locate?_eq_some hne _⟩
  obtain ⟨body, tail, hbody, rfl, -⟩ := Text.closingBrace?_eq_some_iff.mp hclose
  rw [Loop.flatCode, Loop.codeFrom, htext, hbody, List.getElem?_append_right (Nat.le_add_right _ _),
    Nat.add_sub_cancel_left, List.getElem?_cons_succ, List.getElem?_append_right le_rfl, Nat.sub_self]
  rfl

/-- **The lookups for a loop are in range**: its keyword, the end of its header, its brace and the
end of its body are the places that are found from the offsets of the loop. -/
theorem Loop.exists_locate?_of_mem_find {lines : List Text} {start : Nat} {loop : Loop}
    (h : loop ∈ find lines start) :
    ∃ span ∈ spans (flatCode lines start), ∃ index,
      loop = ofSpan ⟨codeFrom lines start, start⟩ span index ∧
      ∀ m ∈ span.marks, ∃ place : Position,
        FlatText.locate ⟨codeFrom lines start, start⟩ m = place ∧
        FlatText.locate? ⟨codeFrom lines start, start⟩ m =
          some (place.line, (place.column : Int)) := by
  obtain ⟨index, span, hspan, rfl⟩ := exists_of_mem_find h
  have hmem := List.mem_of_getElem? hspan
  have hne : codeFrom lines start ≠ [] := by
    intro hnil
    rw [flatCode, hnil] at hmem
    exact absurd hmem List.not_mem_nil
  exact ⟨span, hmem, index, rfl, fun m _ => ⟨_, rfl, FlatText.locate?_eq_some hne m⟩⟩

end ShaderProbe
