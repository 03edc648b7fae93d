import Mathlib
import ShaderProbe.Proofs.CapEdits

/-!
# Where loops lie

The positions of a loop lie on lines of the function that it is found in: from the header of the
function on, and not behind the last line of the text (`Loop.liesIn_of_mem_find`).  A loop around a
place starts in front of it (`Loop.headerLine_le_of_mem_enclosing`).
-/

namespace ShaderProbe

namespace FlatText

/-- A later character stands on a later line or on the same one. -/
lemma line_le_of_lineStart_le {ls : List Text} {n n' c c' : Nat} {l' : Text}
    (hl' : ls[n']? = some l') (hc' : c' ≤ l'.length)
    (h : lineStart ls n + c ≤ lineStart ls n' + c') : n ≤ n' := by
  by_contra hlt
  have := lineStart_lt hl' (Nat.lt_of_not_le hlt)
  omega

/-- The start of places in different lists of lines is ordered alike. -/
lemma lineStart_mono {ls xs : List Text} {n n' k k' a : Nat} {l x : Text}
    (hl : ls[n']? = some l) (hk' : k' ≤ l.length) (hx : xs[a + n]? = some x) (hk : k ≤ x.length)
    (h : lineStart ls n + k ≤ lineStart ls n' + k') :
    lineStart xs (a + n) + k ≤ lineStart xs (a + n') + k' := by
  rcases Nat.lt_or_eq_of_le (line_le_of_lineStart_le hl hk' h) with hlt | rfl
  · have := lineStart_lt hx (Nat.add_lt_add_left hlt a)
    omega
  · omega

end FlatText

namespace Loop

/-- The loop lies on lines of the text from a line on. -/
structure LiesIn (loop : Loop) (start count : Nat) : Prop where
  headerLine : start ≤ loop.headerLine ∧ loop.headerLine < count
  keyword : ∃ column, loop.keyword = some ⟨loop.headerLine, column⟩
  parenClose : ∃ close, loop.parenClose = some close ∧ loop.headerLine ≤ close.line ∧
    close.line < count
  brace : ∀ brace ∈ loop.brace, loop.headerLine ≤ brace.line ∧ brace.line < count
  bodyEnd : ∀ last ∈ loop.bodyEnd, loop.headerLine ≤ last.line ∧ last.line < count

variable {lines : List Text} {start : Nat} {loop : Loop}

/-- A loop that is found is one of the flat code. -/
lemma exists_of_mem_find (h : loop ∈ find lines start) :
    ∃ index span, (spans (flatCode lines start))[index]? = some span ∧
      loop = ofSpan ⟨codeFrom lines start, start⟩ span index := by
  rw [find_eq_mapIdx] at h
  obtain ⟨index, hindex, rfl⟩ := List.mem_mapIdx.mp h
  exact ⟨index, _, List.getElem?_eq_getElem hindex, rfl⟩

/-- **The loops of a function lie on its lines.** -/
theorem liesIn_of_mem_find (h : loop ∈ find lines start) : loop.LiesIn start lines.length := by
  obtain ⟨index, span, hspan, rfl⟩ := exists_of_mem_find h
  have hmem := List.mem_of_getElem? hspan
  obtain ⟨htrue, -⟩ := isTrue_of_mem_spans hmem
  -- every offset of the loop is that of a character, which stands on a line
  have hplace : ∀ m ∈ span.marks, ∃ n l column, (codeFrom lines start)[n]? = some l ∧
      column ≤ l.length ∧ m = FlatText.lineStart (codeFrom lines start) n + column ∧
      start + n < lines.length ∧
      FlatText.locate ⟨codeFrom lines start, start⟩ m = ⟨start + n, column⟩ := by
    intro m hm
    obtain ⟨c, hc, hblank⟩ := htrue.mark hm
    obtain ⟨n, l, column, hl, hcolumn, hm, hlocate⟩ := FlatText.exists_locate_of_ink hc hblank start
    have hlt := (List.getElem?_eq_some_iff.mp hl).1
    rw [codeFrom, List.length_drop, Comment.length_strip] at hlt
    exact ⟨n, l, column, hl, (List.getElem?_eq_some_iff.mp hcolumn).1.le, hm, by omega, hlocate⟩
  obtain ⟨n, l, column, hl, hcolumn, hkeyword, hlt, hlocate⟩ :=
    hplace span.keyword (LoopSpan.mem_marks_iff.mpr (.inl rfl))
  -- the keyword is the first of them
  have hlater : ∀ m ∈ span.marks, span.keyword ≤ m →
      start + n ≤ (FlatText.locate ⟨codeFrom lines start, start⟩ m).line ∧
        (FlatText.locate ⟨codeFrom lines start, start⟩ m).line < lines.length := by
    intro m hm hle
    obtain ⟨n', l', column', hl', hcolumn', rfl, hlt', hlocate'⟩ := hplace m hm
    rw [hlocate']
    refine ⟨Nat.add_le_add_left ?_ start, hlt'⟩
    exact FlatText.line_le_of_lineStart_le hl' hcolumn' (by rw [← hkeyword]; exact hle)
  have hheader : (ofSpan ⟨codeFrom lines start, start⟩ span index).headerLine = start + n :=
    congrArg Position.line hlocate
  have hclose := htrue.keyword_lt
  constructor
  · rw [hheader]
    exact ⟨Nat.le_add_right _ _, hlt⟩
  · rw [hheader]
    exact ⟨column, congrArg some hlocate⟩
  · rw [hheader]
    exact ⟨_, rfl, hlater _ (LoopSpan.mem_marks_iff.mpr (.inr (.inl rfl))) hclose.le⟩
  · intro brace hbrace
    obtain ⟨b, hb, rfl⟩ := Option.map_eq_some_iff.mp hbrace
    obtain ⟨gap, t, -, -, rfl⟩ := htrue.brace b hb
    rw [hheader]
    exact hlater _ (LoopSpan.mem_marks_iff.mpr (.inr (.inr (.inl hb)))) (by omega)
  · intro last hlast
    obtain ⟨e, he, rfl⟩ := Option.map_eq_some_iff.mp hlast
    have := (htrue.bodyEnd e he).1
    rw [hheader]
    exact hlater _ (LoopSpan.mem_marks_iff.mpr (.inr (.inr (.inr he)))) (by omega)

/-- Only no loops have no outermost one. -/
lemma eq_nil_of_outermost? {loops : List Loop} (h : outermost? loops = none) : loops = [] := by
  cases loops with
  | nil => rfl
  | cons loop loops =>
    rw [outermost?] at h
    split at h
    · exact absurd h (by simp)
    · split at h <;> exact absurd h (by simp)

/-- The outermost of some loops is one of them. -/
lemma mem_of_outermost? {loops : List Loop} (h : outermost? loops = some loop) : loop ∈ loops := by
  induction loops generalizing loop with
  | nil => exact absurd h (by simp [outermost?])
  | cons first loops ih =>
    rw [outermost?] at h
    split at h
    · exact Option.some.inj h ▸ List.mem_cons_self
    · rename_i other hother
      split at h
      · exact Option.some.inj h ▸ List.mem_cons_of_mem first (ih hother)
      · exact Option.some.inj h ▸ List.mem_cons_self

/-- A loop around a place starts on its line or in front of it. -/
lemma headerLine_le_of_mem_enclosing {line column : Nat}
    (h : loop ∈ enclosing lines start line (some (column : Int))) : loop.headerLine ≤ line := by
  obtain ⟨hmem, hcontains⟩ := List.mem_filter.mp h
  obtain ⟨-, -, ⟨close, hclose, hline, -⟩, hbrace, -⟩ := liesIn_of_mem_find hmem
  simp only [contains, hclose] at hcontains
  have hbefore : ∀ p : Position, p.isBefore line column = true → p.line ≤ line := by
    intro p hp
    simp only [Position.isBefore, Bool.or_eq_true, Bool.and_eq_true, decide_eq_true_eq] at hp
    omega
  rw [containsPlace] at hcontains
  split at hcontains
  · rename_i brace last hopen hlast
    have := hbefore brace (Bool.and_eq_true_iff.mp hcontains).1
    have := (hbrace brace hopen).1
    omega
  · have := hbefore close (Bool.and_eq_true_iff.mp hcontains).1
    omega
  · rename_i brace hopen hlast
    have := hbefore brace hcontains
    have := (hbrace brace hopen).1
    omega
  · have := hbefore close hcontains
    omega

end Loop

end ShaderProbe
