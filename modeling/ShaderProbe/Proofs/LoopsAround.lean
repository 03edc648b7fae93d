import Mathlib
import ShaderProbe.Proofs.SharedFront
import ShaderProbe.Proofs.StatementLines

/-!
# Loops around a statement

A statement ends at a `;` of the code (`Statement.exists_semicolon`), and the end is found in the
same way when lines behind it are left out (`Statement.endAt_take`).  A loop around the `;` has its
header in front of it (`Loop.exists_of_mem_enclosing`), and the outermost of these loops is the
first one (`Loop.outermost?_enclosing`).

Offsets are counted here in the code with its comments blanked and nothing trimmed, where every
character has the column that it has in the source.
-/

namespace ShaderProbe

/-! ### Ends of statements -/

namespace Statement

/-- A line of a statement ends it at a `;`. -/
lemma semicolon_of_lineEnd {depth : Int} {column last : Nat} {t : Text}
    (h : lineEnd depth column t = .semicolon last) :
    ∃ k, last = column + k ∧ t[k]? = some ';' := by
  induction t generalizing depth column with
  | nil => exact absurd h (by simp [lineEnd])
  | cons c t ih =>
    rw [lineEnd] at h
    have hrest : ∀ {depth}, lineEnd depth (column + 1) t = .semicolon last →
        ∃ k, last = column + k ∧ (c :: t)[k]? = some ';' := by
      intro depth h
      obtain ⟨k, hk, hget⟩ := ih h
      exact ⟨k + 1, by omega, by simpa using hget⟩
    split at h
    · exact hrest h
    · split at h
      · rename_i hsemi
        exact ⟨0, (LineEnd.semicolon.inj h).symm, congrArg some hsemi.2⟩
      · split at h
        · exact absurd h (by simp)
        · exact hrest h

/-- Lines of a statement end it at a `;`. -/
lemma semicolon_of_endFrom {depth : Int} {line : Nat} {ls : List Text} {last : Position}
    (h : endFrom depth line ls = some last) :
    ∃ n l, last.line = line + n ∧ ls[n]? = some l ∧ l[last.column]? = some ';' := by
  induction ls generalizing depth line with
  | nil => exact absurd h (by simp [endFrom])
  | cons l ls ih =>
    rw [endFrom] at h
    split at h
    · rename_i column hline
      obtain rfl := Option.some.inj h
      obtain ⟨k, hk, hget⟩ := semicolon_of_lineEnd hline
      rw [Nat.zero_add] at hk
      exact ⟨0, l, rfl, rfl, by rw [hk]; exact hget⟩
    · exact absurd h (by simp)
    · obtain ⟨n, k, hn, hget, hsemi⟩ := ih h
      exact ⟨n + 1, k, by omega, by simpa using hget, hsemi⟩

/-- Lines behind the end of a statement do not matter. -/
lemma endFrom_take {depth : Int} {line k : Nat} {ls : List Text} {last : Position}
    (h : endFrom depth line ls = some last) (hk : last.line < line + k) :
    endFrom depth line (ls.take k) = some last := by
  induction ls generalizing depth line k with
  | nil => exact absurd h (by simp [endFrom])
  | cons l ls ih =>
    have hline := (line_of_endFrom h).1
    cases k with
    | zero => omega
    | succ k =>
      rw [endFrom] at h
      rw [List.take_succ_cons, endFrom]
      split at h
      · exact h
      · exact absurd h (by simp)
      · exact ih h (by omega)

/-- A statement of the code ends at a `;` of the code. -/
lemma exists_semicolon {max : Int} {code : List Text} {line : Nat} {s : Statement}
    (h : find max code line = .ok (some s)) :
    ∃ l, code[s.endLine]? = some l ∧ l[s.endColumn]? = some ';' := by
  obtain ⟨hfrom, -⟩ := bounds_of_find h
  obtain ⟨last, hlast, hs⟩ := Option.map_eq_some_iff.mp hfrom
  obtain ⟨n, l, hn, hl, hsemi⟩ := semicolon_of_endFrom hlast
  rw [← hs]
  refine ⟨l, ?_, hsemi⟩
  rw [List.getElem?_take, List.getElem?_drop] at hl
  dsimp only
  rw [hn]
  split at hl
  · exact hl
  · exact absurd hl (by simp)

/-- A statement that ends on a line of the front of the code is found there. -/
lemma find_take {max : Int} {code : List Text} {line n : Nat} {s : Statement}
    (h : find max code line = .ok (some s)) (hn : s.endLine < n) :
    ∃ s', find max (code.take n) line = .ok (some s') ∧ s'.endLine = s.endLine ∧
      s'.endColumn = s.endColumn := by
  obtain ⟨-, -, -, hstart, hline, -, hlength⟩ := bounds_of_find h
  obtain ⟨⟨l, hl, hblank⟩, hspanning⟩ := find_eq_some_iff.mp h
  obtain ⟨hfrom, -⟩ := spanning?_eq_some_iff.mp hspanning
  obtain ⟨last, hlast, hs⟩ := Option.map_eq_some_iff.mp hfrom
  have hends : s.endLine = last.line ∧ s.endColumn = last.column := by
    rw [← hs]
    exact ⟨rfl, rfl⟩
  have hfirst : firstLine max (code.take n) line = firstLine max code line := by
    rw [firstLine, firstLine, List.take_take, Nat.min_eq_left (by omega)]
  have hsome : ((code.take n).drop (firstLine max code line)).take max.toNat =
      ((code.drop (firstLine max code line)).take max.toNat).take
        (n - firstLine max code line) := by
    rw [List.drop_take, List.take_take, List.take_take, Nat.min_comm]
  have hle : firstLine max code line ≤ line := Nat.sub_le _ _
  have hfound := endFrom_take hlast (k := n - firstLine max code line) (by omega)
  rw [← hsome] at hfound
  refine ⟨{ text := textTo (code.take n) (firstLine max code line) last
            startLine := firstLine max code line
            endLine := last.line
            endColumn := last.column }, ?_, hends.1.symm, hends.2.symm⟩
  refine find_eq_some_iff.mpr ⟨⟨l, ?_, hblank⟩, spanning?_eq_some_iff.mpr ⟨?_, by
    dsimp only; omega⟩⟩
  · rw [List.getElem?_take_of_lt (by omega), hl]
  · rw [from?, hfirst, hfound]
    rfl

end Statement

/-- Stripping the first lines is stripping the lines. -/
lemma Comment.strip_take (lines : List Text) (n : Nat) :
    strip (lines.take n) = (strip lines).take n := by
  rw [strip, strip, stripFrom_eq, stripFrom_eq, ← List.map_take]
  congr 1
  conv_rhs => rw [← List.take_append_drop n lines, blankFrom_append]
  rcases Nat.le_total n lines.length with hle | hle
  · rw [List.take_left' (by rw [length_blankFrom, List.length_take_of_le hle])]
  · rw [List.drop_eq_nil_of_le hle, blankFrom, List.append_nil]
    exact (List.take_of_length_le (by rw [length_blankFrom, List.length_take]; omega)).symm

namespace Statement

/-- The statement that ends at a place of the source. -/
lemma exists_find_of_endAt {max : Int} {lines : List Text} {line : Nat} {last : Position}
    (h : endAt max lines line = .ok (some last)) :
    ∃ s, find max (Comment.strip lines) line = .ok (some s) ∧
      last = ⟨s.endLine, s.endColumn⟩ := by
  rw [endAt] at h
  split at h
  · obtain ⟨found, hfound, h⟩ := bind_eq_ok_iff.mp h
    obtain ⟨s, rfl, rfl⟩ := Option.map_eq_some_iff.mp (Except.ok.inj h)
    rw [Int.toNat_natCast] at hfound
    exact ⟨s, hfound, rfl⟩
  · exact absurd h (by simp)

/-- **The end of a statement is found when lines behind it are left out.** -/
lemma endAt_take {max : Int} {lines : List Text} {line n : Nat} {last : Position}
    (h : endAt max lines line = .ok (some last)) (hn : last.line < n) :
    endAt max (lines.take n) line = .ok (some last) := by
  obtain ⟨s, hfind, rfl⟩ := exists_find_of_endAt h
  obtain ⟨s', hfind', hline, hcolumn⟩ := find_take hfind hn
  rw [← Comment.strip_take] at hfind'
  rw [endAt_of_find hfind', hline, hcolumn]

/-- **A statement of the source ends at a `;` of the code.** -/
lemma exists_semicolon_of_endAt {max : Int} {lines : List Text} {line : Nat} {last : Position}
    (h : endAt max lines line = .ok (some last)) :
    ∃ l, (Comment.blankFrom false lines)[last.line]? = some l ∧ l[last.column]? = some ';' := by
  obtain ⟨s, hfind, rfl⟩ := exists_find_of_endAt h
  obtain ⟨l, hl, hsemi⟩ := exists_semicolon hfind
  rw [Comment.strip, Comment.stripFrom_eq, List.getElem?_map, Option.map_eq_some_iff] at hl
  obtain ⟨l, hl, rfl⟩ := hl
  exact ⟨l, hl, Comment.getElem?_of_trimRight hsemi⟩

end Statement

/-! ### Loops in front of a place -/

/-- The position of a place of a line. -/
lemma FlatText.locate_lineStart {ls : List Text} {n column : Nat} {l : Text}
    (hl : ls[n]? = some l) (hcolumn : column ≤ l.length) (first : Nat) :
    locate ⟨ls, first⟩ (lineStart ls n + column) = ⟨first + n, column⟩ := by
  have hne : ls ≠ [] := by
    rintro rfl
    exact absurd hl (by simp)
  have hbound := lineStart_add_le hl
  obtain ⟨n', l', column', hl', hcolumn', heq, hlocate⟩ :=
    exists_locateFrom hne (o := lineStart ls n + column) (by omega) first
  obtain ⟨rfl, rfl⟩ := lineStart_inj hl hl' hcolumn hcolumn' heq
  rw [locate_eq_locateFrom, hlocate]

namespace Loop

/-- The code of the function at a line with its comments blanked. -/
def blankCode (lines : List Text) (start : Nat) : List Text :=
  (Comment.blankFrom false lines).drop start

variable {lines : List Text} {start : Nat} {loop : Loop}

/-- The loops of a function by their offsets in the blanked code. -/
lemma getElem?_find_blankCode (lines : List Text) (start index : Nat) :
    (find lines start)[index]? = (spans (Text.ofLines (blankCode lines start)))[index]?.map
      fun span => ofSpan ⟨blankCode lines start, start⟩ span index := by
  rw [find_eq, findInCode, List.getElem?_mapIdx]
  rfl

/-- **The header of a loop around a `;` lies in front of it.** -/
lemma exists_of_mem_enclosing {line column : Nat} {l : Text}
    (hl : (Comment.blankFrom false lines)[line]? = some l) (hcolumn : column < l.length)
    (h : loop ∈ enclosing lines start line (some (column : Int))) :
    ∃ span, (spans (Text.ofLines (blankCode lines start)))[loop.index]? = some span ∧
      loop = ofSpan ⟨blankCode lines start, start⟩ span loop.index ∧ start ≤ line ∧
      span.parenClose < FlatText.lineStart (blankCode lines start) (line - start) + column := by
  have hline := headerLine_le_of_mem_enclosing h
  obtain ⟨hmem, hcontains⟩ := List.mem_filter.mp h
  have hstart := (liesIn_of_mem_find hmem).headerLine.1
  obtain ⟨index, hindex⟩ := List.mem_iff_getElem?.mp hmem
  rw [getElem?_find_blankCode, Option.map_eq_some_iff] at hindex
  obtain ⟨span, hspan, rfl⟩ := hindex
  obtain ⟨htrue, -⟩ := isTrue_of_mem_spans (List.mem_of_getElem? hspan)
  refine ⟨span, hspan, rfl, hstart.trans hline, ?_⟩
  set flat : FlatText := ⟨blankCode lines start, start⟩ with hflat
  have hplace : flat.locate (FlatText.lineStart (blankCode lines start) (line - start) + column) =
      ⟨line, column⟩ := by
    have hget : (blankCode lines start)[line - start]? = some l := by
      rw [blankCode, List.getElem?_drop, Nat.add_sub_cancel' (hstart.trans hline), hl]
    rw [FlatText.locate_lineStart hget hcolumn.le,
      Nat.add_sub_cancel' (hstart.trans hline)]
  have hbefore : ∀ o, (flat.locate o).isBefore line column = true →
      o < FlatText.lineStart (blankCode lines start) (line - start) + column := by
    intro o ho
    have hiff := FlatText.isBefore_locate flat o
      (FlatText.lineStart (blankCode lines start) (line - start) + column)
    rw [hplace, ho] at hiff
    exact of_decide_eq_true hiff.symm
  have hbrace : ∀ b ∈ span.brace, span.parenClose < b := by
    intro b hb
    obtain ⟨gap, t, -, -, rfl⟩ := htrue.brace b hb
    omega
  simp only [contains, containsPlace, ofSpan] at hcontains
  cases hopen : span.brace with
  | none =>
    simp only [hopen, Option.map_none] at hcontains
    split at hcontains
    · rename_i hfalse _
      exact absurd hfalse (by simp)
    · exact hbefore _ (Bool.and_eq_true_iff.mp hcontains).1
    · rename_i hfalse _
      exact absurd hfalse (by simp)
    · exact hbefore _ hcontains
  | some b =>
    have hlt := hbrace b hopen
    simp only [hopen, Option.map_some] at hcontains
    split at hcontains
    · rename_i brace last hb hlast
      obtain rfl := Option.some.inj hb
      exact hlt.trans (hbefore _ (Bool.and_eq_true_iff.mp hcontains).1)
    · rename_i hfalse _
      exact absurd hfalse (by simp)
    · rename_i brace hb hlast
      obtain rfl := Option.some.inj hb
      exact hlt.trans (hbefore _ hcontains)
    · rename_i hfalse _
      exact absurd hfalse (by simp)

/-- The place of the keyword of a loop around a `;`. -/
lemma exists_keyword_of_mem_enclosing {line column : Nat} {l : Text}
    (hl : (Comment.blankFrom false lines)[line]? = some l) (hcolumn : column < l.length)
    (h : loop ∈ enclosing lines start line (some (column : Int))) :
    ∃ span n k l' c, (spans (Text.ofLines (blankCode lines start)))[loop.index]? = some span ∧
      loop = ofSpan ⟨blankCode lines start, start⟩ span loop.index ∧ start ≤ line ∧
      span.parenClose < FlatText.lineStart (blankCode lines start) (line - start) + column ∧
      (blankCode lines start)[n]? = some l' ∧ l'[k]? = some c ∧ isBlank c = false ∧
      span.keyword = FlatText.lineStart (blankCode lines start) n + k ∧
      loop.keyword = some ⟨start + n, k⟩ ∧ loop.headerLine = start + n := by
  obtain ⟨span, hspan, hloop, hstart, hclose⟩ := exists_of_mem_enclosing hl hcolumn h
  obtain ⟨c, hc, hblank⟩ := (isTrue_of_mem_spans (List.mem_of_getElem? hspan)).1.mark
    (LoopSpan.mem_marks_iff.mpr (.inl rfl))
  obtain ⟨n, l', k, hl', hk, hkeyword, hlocate⟩ := FlatText.exists_locate_of_ink hc hblank start
  refine ⟨span, n, k, l', c, hspan, hloop, hstart, hclose, hl', hk, hblank, hkeyword, ?_, ?_⟩
  · rw [hloop]
    exact congrArg some hlocate
  · rw [hloop]
    exact congrArg Position.line hlocate

/-! ### The outermost loop -/

/-- Of loops in the order of their lines the first is the outermost one. -/
lemma outermost?_of_pairwise {loops : List Loop}
    (h : loops.Pairwise fun a b => a.headerLine ≤ b.headerLine) :
    outermost? loops = loops.head? := by
  induction loops with
  | nil => rfl
  | cons loop loops ih =>
    obtain ⟨hfirst, hrest⟩ := List.pairwise_cons.mp h
    rw [outermost?, ih hrest, List.head?_cons]
    cases loops with
    | nil => rfl
    | cons other loops =>
      rw [List.head?_cons]
      dsimp only
      rw [if_neg (Nat.not_lt.mpr (hfirst other List.mem_cons_self))]

/-- Loops are found in the order of their numbers and lines. -/
lemma pairwise_find (lines : List Text) (start : Nat) :
    (find lines start).Pairwise fun a b => a.index < b.index ∧ a.headerLine ≤ b.headerLine := by
  rw [List.pairwise_iff_getElem]
  intro i j hi hj hlt
  have hget : ∀ {k} (hk : k < (find lines start).length),
      ∃ span, (spans (Text.ofLines (blankCode lines start)))[k]? = some span ∧
        (find lines start)[k] = ofSpan ⟨blankCode lines start, start⟩ span k := by
    intro k hk
    have hsome := List.getElem?_eq_getElem hk
    rw [getElem?_find_blankCode, Option.map_eq_some_iff] at hsome
    obtain ⟨span, hspan, heq⟩ := hsome
    exact ⟨span, hspan, heq.symm⟩
  obtain ⟨span, hspan, heq⟩ := hget hi
  obtain ⟨span', hspan', heq'⟩ := hget hj
  have hkeyword : span.keyword < span'.keyword :=
    (isTrue_of_mem_spans (List.mem_of_getElem? hspan)).1.keyword_lt.trans
      (parenClose_lt_of_lt hlt hspan hspan')
  rw [heq, heq']
  refine ⟨hlt, ?_⟩
  have hbefore := FlatText.isBefore_locateFrom (blankCode lines start) hkeyword start
  rw [Position.isBefore_iff] at hbefore
  simp only [ofSpan, FlatText.locate_eq_locateFrom]
  omega

/-- **The outermost of the loops around a place is the first one.** -/
lemma index_le_of_outermost? {line : Int} {column : Option Int} {outermost : Loop}
    (hmost : outermost? (enclosing lines start line column) = some outermost)
    (h : loop ∈ enclosing lines start line column) : outermost.index ≤ loop.index := by
  have hsorted := (pairwise_find lines start).filter fun loop => loop.contains line column
  rw [← enclosing] at hsorted
  rw [outermost?_of_pairwise (hsorted.imp And.right)] at hmost
  obtain ⟨rest, hrest⟩ := List.head?_eq_some_iff.mp hmost
  rw [hrest] at hsorted h
  rcases List.mem_cons.mp h with rfl | h
  · exact le_rfl
  · exact ((List.pairwise_cons.mp hsorted).1 loop h).1.le

end Loop

end ShaderProbe
