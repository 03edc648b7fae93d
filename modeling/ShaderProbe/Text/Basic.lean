import ShaderProbe.Text.Blank

/-!
# Shader text

A text is a sequence of code points, and every column, length and offset of this library counts code
points.  This file holds the operations that only look at blanks and at line feeds: trimming,
splitting into words, squeezing runs of blanks, and passing between a source and its lines.

A source is split at line feeds only.  `Text.ofLines_lines` says that joining the lines of a source
gives the source back.
-/

namespace ShaderProbe

/-- A piece of shader text: a sequence of code points. -/
abbrev Text := List Char

/-- A string literal stands for its sequence of code points. -/
instance : Coe String Text := ⟨String.toList⟩

namespace Text

/-! ### Blanks -/

/-- A text in which every character is blank; the empty text is one. -/
def isBlankOnly (t : Text) : Bool := t.all isBlank

/-- The leading blanks of a line. -/
def indent (t : Text) : Text := t.takeWhile isBlank

/-- The text without its leading blanks. -/
def trimLeft (t : Text) : Text := t.dropWhile isBlank

/-- The text without its trailing blanks. -/
def trimRight (t : Text) : Text := (t.reverse.dropWhile isBlank).reverse

/-- The text without its leading and trailing blanks. -/
def trim (t : Text) : Text := trimRight (trimLeft t)

/-- A text whose first character, if there is one, is a blank. -/
def startsBlank : Text → Bool
  | [] => true
  | c :: _ => isBlank c

/-- The maximal runs of characters that are not blank, from left to right. -/
def words : Text → List Text
  | [] => []
  | c :: t =>
    if isBlank c then words t
    else if startsBlank t then [c] :: words t
    else match words t with
      | w :: ws => (c :: w) :: ws
      | [] => [[c]]

/-- The words of a text separated by single spaces. -/
def squeeze (t : Text) : Text := [' '].intercalate (words t)

/-- The indent and what follows it make up the line. -/
theorem indent_append_trimLeft (t : Text) : indent t ++ trimLeft t = t :=
  List.takeWhile_append_dropWhile

/-! ### Fragments -/

/-- The text without the occurrences of `w`, which is not empty: they are found from left to right,
and the first `skip` characters belong to an occurrence already found. -/
def eraseAllFrom (w : Text) (skip : Nat) : Text → Text
  | [] => []
  | c :: t =>
    match skip with
    | k + 1 => eraseAllFrom w k t
    | 0 => if w.isPrefixOf (c :: t) then eraseAllFrom w (w.length - 1) t
           else c :: eraseAllFrom w 0 t

/-- The text without the occurrences of `w`, which is not empty, found from left to right. -/
def eraseAll (w : Text) (t : Text) : Text := eraseAllFrom w 0 t

/-- A character put in front of the first part of a text that has been cut into parts. -/
def consFirst (c : Char) : List Text → List Text
  | [] => [[c]]
  | p :: ps => (c :: p) :: ps

/-! ### Lines -/

/-- The lines of a source: the parts between its line feeds. -/
def lines : Text → List Text
  | [] => [[]]
  | c :: t => if c = '\n' then [] :: lines t else consFirst c (lines t)

/-- The source with the given lines. -/
def ofLines (ls : List Text) : Text := ['\n'].intercalate ls

/-- A source has at least one line. -/
theorem lines_ne_nil (t : Text) : lines t ≠ [] := by
  cases t with
  | nil => simp [lines]
  | cons c t =>
    rw [lines]
    split
    · simp
    · cases lines t <;> simp [consFirst]

/-- Joining the lines of a source gives the source back. -/
theorem ofLines_lines (t : Text) : ofLines (lines t) = t := by
  induction t with
  | nil => rfl
  | cons c t ih =>
    have hne := lines_ne_nil t
    rw [lines]
    generalize lines t = ls at ih hne
    split
    · subst c
      cases ls with
      | nil => exact absurd rfl hne
      | cons l ls =>
        simp only [ofLines, List.intercalate, List.intersperse] at ih ⊢
        simp [ih]
    · cases ls with
      | nil => exact absurd rfl hne
      | cons l ls =>
        cases ls <;> simp_all [ofLines, List.intercalate, List.intersperse, consFirst]

end Text

end ShaderProbe
