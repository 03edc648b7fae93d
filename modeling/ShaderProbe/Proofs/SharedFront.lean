import Mathlib
import ShaderProbe.Proofs.EditedCode
import ShaderProbe.Proofs.LoopPlaces

/-!
# Texts that start in the same way

Truncating a text and putting statements into it leave what stands in front of a place as it is
(`Position.Agrees`).  If a character of the code stands at the place, such as a `;`, the code in
front of it stays as it is too (`Position.Agrees.code`), since no comment goes on over it.  Lines
that start in the same way have the same characters at the same places
(`Position.Agrees.exists_line`), and their flat texts start in the same way
(`Position.Agrees.exists_ofLines`).
-/

namespace ShaderProbe

/-- The two parts of a line of comments and code with a character of the code between them that
opens no comment. -/
lemma Comment.blankLine_front {inBlock : Bool} {l : Text} {column : Nat} {x : Char}
    (h : (blankLine inBlock l).1[column]? = some x) (hspace : x ≠ ' ') (hslash : x ≠ '/')
    (tail : Text) :
    blankLine inBlock (l.take (column + 1) ++ tail) =
      ((blankLine inBlock l).1.take (column + 1) ++ (blankLine false tail).1,
        (blankLine false tail).2) := by
  have hcode : ∀ t : Text, blankLine false (x :: t) =
      (x :: (blankLine false t).1, (blankLine false t).2) :=
    fun t => blankLine_cons fun d _ => by simp [opens, hslash]
  fun_induction hasLineComment inBlock l generalizing column with
  | case1 c d l hmark ih =>
    rw [blankLine_close hmark] at h ⊢
    rcases column with _ | _ | column
    · exact absurd (by simpa using h) hspace.symm
    · exact absurd (by simpa using h) hspace.symm
    · have ih := @ih column (by simpa using h)
      simp only [List.take_succ_cons, List.cons_append, blankLine_close hmark, ih]
  | case2 c d l hmark ih =>
    rw [blankLine_inside hmark] at h ⊢
    cases column with
    | zero => exact absurd (by simpa using h) hspace.symm
    | succ column =>
      have ih := @ih column (by simpa using h)
      simp only [List.take_succ_cons, List.cons_append] at ih ⊢
      rw [blankLine_inside hmark, ih]
  | case3 inBlock c d l hblock hline =>
    rw [Bool.not_eq_true] at hblock
    subst hblock
    rw [blankLine_line hline] at h
    exact absurd h (by simp)
  | case4 inBlock c d l hblock hline hopen ih =>
    rw [Bool.not_eq_true] at hblock
    subst hblock
    rw [blankLine_open hopen] at h ⊢
    rcases column with _ | _ | column
    · exact absurd (by simpa using h) hspace.symm
    · exact absurd (by simpa using h) hspace.symm
    · have ih := @ih column (by simpa using h)
      simp only [List.take_succ_cons, List.cons_append, blankLine_open hopen, ih]
  | case5 inBlock c d l hblock hline hopen ih =>
    rw [Bool.not_eq_true] at hblock
    subst hblock
    rw [blankLine_code hline hopen] at h ⊢
    cases column with
    | zero =>
      obtain rfl : c = x := by simpa using h
      simpa using hcode tail
    | succ column =>
      have ih := @ih column (by simpa using h)
      simp only [List.take_succ_cons, List.cons_append] at ih ⊢
      rw [blankLine_code hline hopen, ih]
  | case6 l inBlock hshort =>
    rcases eq_nil_or_singleton hshort with rfl | ⟨c, rfl⟩
    · exact absurd h (by simp [blankLine])
    · rw [blankLine] at h ⊢
      cases column with
      | succ column => exact absurd h (by simp)
      | zero =>
        cases inBlock with
        | true => exact absurd (by simpa using h) hspace.symm
        | false =>
          obtain rfl : c = x := by simpa using h
          simpa using hcode tail

namespace Position

/-- The lines are the same up to a place, with the character at the place. -/
structure Agrees (place : Position) (ls ls' : List Text) : Prop where
  take_eq : ls.take place.line = ls'.take place.line
  line : ∃ last tail tail', ls[place.line]? = some (last ++ tail) ∧
    ls'[place.line]? = some (last ++ tail') ∧ last.length = place.column + 1

variable {place : Position} {ls ls' : List Text}

/-- The two lists of lines are exchanged. -/
lemma Agrees.symm (h : place.Agrees ls ls') : place.Agrees ls' ls := by
  obtain ⟨htake, last, tail, tail', hl, hl', hlength⟩ := h
  exact ⟨htake.symm, last, tail', tail, hl', hl, hlength⟩

/-- Lines that start as lines do that start as other lines do. -/
lemma Agrees.trans {ls'' : List Text} (h : place.Agrees ls ls') (h' : place.Agrees ls' ls'') :
    place.Agrees ls ls'' := by
  obtain ⟨htake, last, tail, tail', hl, hl', hlength⟩ := h
  obtain ⟨htake', last', tail₂, tail₃, hl₂, hl₃, hlength'⟩ := h'
  obtain ⟨rfl, rfl⟩ := List.append_inj (Option.some.inj (hl'.symm.trans hl₂)) (by omega)
  exact ⟨htake.trans htake', last, tail, tail₃, hl, hl₃, hlength⟩

/-- The lines split at the line of the place. -/
lemma Agrees.exists_split (h : place.Agrees ls ls') :
    ∃ init last tail tail' more more', ls = init ++ (last ++ tail) :: more ∧
      ls' = init ++ (last ++ tail') :: more' ∧ init.length = place.line ∧
      last.length = place.column + 1 := by
  obtain ⟨htake, last, tail, tail', hl, hl', hlength⟩ := h
  obtain ⟨hlt, hget⟩ := List.getElem?_eq_some_iff.mp hl
  obtain ⟨hlt', hget'⟩ := List.getElem?_eq_some_iff.mp hl'
  refine ⟨ls.take place.line, last, tail, tail', ls.drop (place.line + 1),
    ls'.drop (place.line + 1), ?_, ?_, List.length_take_of_le hlt.le, hlength⟩
  · rw [← hget, ← List.drop_eq_getElem_cons hlt, List.take_append_drop]
  · rw [htake, ← hget', ← List.drop_eq_getElem_cons hlt', List.take_append_drop]

/-- Lines that are put together in the same way up to a place. -/
lemma agrees_append {init more more' : List Text} {last tail tail' : Text}
    (hline : init.length = place.line) (hcolumn : last.length = place.column + 1) :
    place.Agrees (init ++ (last ++ tail) :: more) (init ++ (last ++ tail') :: more') := by
  refine ⟨?_, last, tail, tail', ?_, ?_, hcolumn⟩
  · rw [List.take_left' hline, List.take_left' hline]
  · rw [← hline, List.getElem?_append_right le_rfl, Nat.sub_self, List.getElem?_cons_zero]
  · rw [← hline, List.getElem?_append_right le_rfl, Nat.sub_self, List.getElem?_cons_zero]

/-- Leaving out lines in front. -/
lemma Agrees.drop (h : place.Agrees ls ls') {start : Nat} (hstart : start ≤ place.line) :
    Agrees ⟨place.line - start, place.column⟩ (ls.drop start) (ls'.drop start) := by
  obtain ⟨init, last, tail, tail', more, more', rfl, rfl, hline, hcolumn⟩ := h.exists_split
  rw [List.drop_append_of_le_length (by omega), List.drop_append_of_le_length (by omega)]
  exact agrees_append (by simp [hline]) hcolumn

/-- **The flat texts start in the same way.** -/
lemma Agrees.exists_ofLines (h : place.Agrees ls ls') :
    ∃ front rest rest', Text.ofLines ls = front ++ rest ∧ Text.ofLines ls' = front ++ rest' ∧
      front.length = FlatText.lineStart ls place.line + place.column + 1 := by
  obtain ⟨init, last, tail, tail', more, more', rfl, rfl, hline, hcolumn⟩ := h.exists_split
  refine ⟨(init.map fun t => t ++ ['\n']).flatten ++ last,
    tail ++ (more.map fun t => '\n' :: t).flatten, tail' ++ (more'.map fun t => '\n' :: t).flatten,
    ?_, ?_, ?_⟩
  · rw [Text.ofLines_around, List.append_assoc, List.append_assoc]
  · rw [Text.ofLines_around, List.append_assoc, List.append_assoc]
  · rw [List.length_append, hcolumn, FlatText.lineStart, List.take_left' hline,
      List.length_flatten, List.map_map]
    simp [Function.comp_def, Nat.add_assoc]

/-- **A place in front is a place of both lists of lines**, with the same character. -/
lemma Agrees.exists_line (h : place.Agrees ls ls') {n column : Nat} {l : Text}
    (hl : ls[n]? = some l) (hcolumn : column < l.length)
    (hle : FlatText.lineStart ls n + column ≤ FlatText.lineStart ls place.line + place.column) :
    ∃ l', ls'[n]? = some l' ∧ l'[column]? = l[column]? ∧
      FlatText.lineStart ls' n = FlatText.lineStart ls n := by
  obtain ⟨htake, last, tail, tail', hlast, hlast', hlength⟩ := h
  have hn : n ≤ place.line :=
    FlatText.line_le_of_lineStart_le hlast (by rw [List.length_append]; omega) hle
  have hstart : FlatText.lineStart ls' n = FlatText.lineStart ls n := by
    have hshort := congrArg (List.take n) htake
    rw [List.take_take, List.take_take, Nat.min_eq_left hn] at hshort
    rw [FlatText.lineStart, FlatText.lineStart, hshort]
  rcases Nat.lt_or_eq_of_le hn with hlt | rfl
  · have hsame := congrArg (fun x : List Text => x[n]?) htake
    simp only [List.getElem?_take_of_lt hlt] at hsame
    exact ⟨l, by rw [← hsame, hl], rfl, hstart⟩
  · obtain rfl : l = last ++ tail := Option.some.inj (hl.symm.trans hlast)
    refine ⟨last ++ tail', hlast', ?_, hstart⟩
    rw [List.getElem?_append_left (by omega), List.getElem?_append_left (by omega)]

/-- Leaving out lines behind a place. -/
lemma agrees_take {l : Text} {n : Nat}
    (hl : ls[place.line]? = some l) (hcolumn : place.column < l.length) (hn : place.line < n) :
    place.Agrees ls (ls.take n) := by
  have hsplit : l.take (place.column + 1) ++ l.drop (place.column + 1) = l :=
    List.take_append_drop _ _
  refine ⟨?_, l.take (place.column + 1), l.drop (place.column + 1), l.drop (place.column + 1), ?_,
    ?_, List.length_take_of_le hcolumn⟩
  · rw [List.take_take, Nat.min_eq_left hn.le]
  · rw [hsplit, hl]
  · rw [hsplit, List.getElem?_take_of_lt hn, hl]

/-- The text in front of a place is the same in both lists of lines. -/
lemma Agrees.textInFront (h : place.Agrees ls ls') {n column : Nat} {l : Text}
    (hl : ls[n]? = some l) (hcolumn : column < l.length)
    (hle : FlatText.lineStart ls n + column ≤ FlatText.lineStart ls place.line + place.column) :
    textInFront ls ⟨n, column⟩ = textInFront ls' ⟨n, column⟩ := by
  obtain ⟨l', hl', hsame, hstart⟩ := h.exists_line hl hcolumn hle
  have hcolumn' : column < l'.length := by
    by_contra hlong
    rw [List.getElem?_eq_none (by omega), List.getElem?_eq_getElem hcolumn] at hsame
    exact absurd hsame (by simp)
  obtain ⟨front, rest, rest', hfront, hfront', hlength⟩ := h.exists_ofLines
  rw [textInFront_eq hl hcolumn.le, textInFront_eq hl' hcolumn'.le, hstart, hfront, hfront',
    List.take_append_of_le_length (by dsimp only; omega),
    List.take_append_of_le_length (by dsimp only; omega)]

/-- **The code in front of a character of the code that opens no comment stays as it is.** -/
theorem Agrees.code (h : place.Agrees ls ls') {l : Text} {x : Char}
    (hl : (Comment.blankFrom false ls)[place.line]? = some l)
    (hx : l[place.column]? = some x) (hspace : x ≠ ' ') (hslash : x ≠ '/') :
    place.Agrees (Comment.blankFrom false ls) (Comment.blankFrom false ls') := by
  obtain ⟨init, last, tail, tail', more, more', rfl, rfl, hline, hcolumn⟩ := h.exists_split
  set inBlock := Comment.isOpenAfter false init with hopen
  have hinit : (Comment.blankFrom false init).length = place.line := by
    rw [Comment.length_blankFrom, hline]
  rw [Comment.blankFrom_append, Comment.blankFrom, ← hinit, List.getElem?_append_right le_rfl,
    Nat.sub_self, List.getElem?_cons_zero, Option.some.injEq] at hl
  subst hl
  -- both lines are blanked alike up to the place
  have hblank : ∀ t : Text, Comment.blankLine inBlock (last ++ t) =
      ((Comment.blankLine inBlock (last ++ tail)).1.take (place.column + 1) ++
        (Comment.blankLine false t).1, (Comment.blankLine false t).2) := by
    intro t
    have hfront := Comment.blankLine_front hx hspace hslash t
    rwa [List.take_left' hcolumn] at hfront
  have hlong : ((Comment.blankLine inBlock (last ++ tail)).1.take (place.column + 1)).length =
      place.column + 1 := by
    rw [List.length_take, Nat.min_eq_left]
    exact (List.getElem?_eq_some_iff.mp hx).1
  rw [Comment.blankFrom_append, Comment.blankFrom_append, Comment.blankFrom, Comment.blankFrom,
    ← hopen, hblank tail, hblank tail']
  exact agrees_append hinit (by simpa using hlong)

/-- The stripped code in front of a character of the code stays as it is. -/
lemma Agrees.strip (h : place.Agrees ls ls') {l : Text} {x : Char}
    (hl : (Comment.strip ls)[place.line]? = some l) (hx : l[place.column]? = some x)
    (hblank : isBlank x = false) (hslash : x ≠ '/') :
    place.Agrees (Comment.strip ls) (Comment.strip ls') := by
  rw [Comment.strip, Comment.stripFrom_eq] at hl ⊢
  rw [Comment.strip, Comment.stripFrom_eq]
  rw [List.getElem?_map, Option.map_eq_some_iff] at hl
  obtain ⟨blanked, hblanked, rfl⟩ := hl
  have hchar := Comment.getElem?_of_trimRight hx
  have hspace : x ≠ ' ' := by
    rintro rfl
    exact absurd hblank (by decide)
  have hcode := h.code hblanked hchar hspace hslash
  obtain ⟨init, last, tail, tail', more, more', hls, hls', hline, hcolumn⟩ := hcode.exists_split
  have hlast : last.getLast? = some x := by
    rw [hls, ← hline, List.getElem?_append_right le_rfl, Nat.sub_self, List.getElem?_cons_zero,
      Option.some.injEq] at hblanked
    rw [List.getLast?_eq_getElem?, hcolumn, Nat.add_sub_cancel, ← hchar, ← hblanked,
      List.getElem?_append_left (by omega)]
  rw [hls, hls', List.map_append, List.map_append, List.map_cons, List.map_cons,
    Text.trimRight_append_of_getLast? hlast hblank, Text.trimRight_append_of_getLast? hlast hblank]
  exact agrees_append (by rw [List.length_map, hline]) hcolumn

/-- Lines that are put behind the place do not matter. -/
lemma Agrees.append_right (h : place.Agrees ls ls') (more : List Text) :
    place.Agrees ls (ls' ++ more) := by
  obtain ⟨init, last, tail, tail', rest, rest', rfl, rfl, hline, hcolumn⟩ := h.exists_split
  rw [List.append_assoc, List.cons_append]
  exact agrees_append hline hcolumn

/-- The start of the first line is the same if the place is behind it. -/
lemma Agrees.exists_front {front rest : Text} {more : List Text}
    (h : place.Agrees ((front ++ rest) :: more) ls') (hplace : place.line = 0 →
      front.length ≤ place.column) : ∃ rest' more', ls' = (front ++ rest') :: more' := by
  obtain ⟨init, last, tail, tail', more, more', hls, rfl, hline, hcolumn⟩ := h.exists_split
  cases init with
  | nil =>
    have hlength := hplace hline.symm
    obtain ⟨hfront, -⟩ := List.cons.inj hls
    obtain ⟨a, hlast, -⟩ | ⟨a, hfront', hrest⟩ := List.append_eq_append_iff.mp hfront
    · exact ⟨a ++ tail', more', by rw [hlast, List.append_assoc]; rfl⟩
    · have hnil : a = [] := List.eq_nil_of_length_eq_zero (by
        have := congrArg List.length hfront'
        simp only [List.length_append] at this
        omega)
      exact ⟨tail', more', by rw [hfront', hnil, List.append_nil]; rfl⟩
  | cons l init =>
    obtain ⟨rfl, -⟩ := List.cons.inj hls
    exact ⟨rest, init ++ (last ++ tail') :: more', rfl⟩

section Changes

variable {l : Text}

/-- A line behind a place is changed, or the line of the place is changed behind it. -/
lemma agrees_set (hl : ls[place.line]? = some l) (hcolumn : place.column < l.length) {n : Nat}
    {x : Text} (h : place.line < n ∨
      place.line = n ∧ x.take (place.column + 1) = l.take (place.column + 1)) :
    place.Agrees ls (ls.set n x) := by
  have hlt := (List.getElem?_eq_some_iff.mp hl).1
  refine ⟨?_, l.take (place.column + 1), l.drop (place.column + 1), ?_⟩
  · rw [List.take_set_of_le (by omega)]
  · rw [List.take_append_drop, List.length_take, Nat.min_eq_left hcolumn]
    rcases h with hn | ⟨rfl, hx⟩
    · exact ⟨l.drop (place.column + 1), hl, by
        rw [List.getElem?_set_ne (by omega), hl, List.take_append_drop], rfl⟩
    · exact ⟨x.drop (place.column + 1), hl, by
        rw [List.getElem?_set_self hlt, ← hx, List.take_append_drop], rfl⟩

/-- A line is added behind a place. -/
lemma agrees_insertIdx (hl : ls[place.line]? = some l) (hcolumn : place.column < l.length) {n : Nat}
    (hn : place.line < n) (x : Text) : place.Agrees ls (ls.insertIdx n x) := by
  refine ⟨?_, l.take (place.column + 1), l.drop (place.column + 1), l.drop (place.column + 1), ?_⟩
  · rw [List.take_insertIdx_eq_take_of_le _ _ _ _ hn.le]
  · rw [List.take_append_drop, List.length_take, Nat.min_eq_left hcolumn,
      List.getElem?_insertIdx_of_lt hn]
    exact ⟨hl, hl, rfl⟩

end Changes

end Position

end ShaderProbe
