import ShaderProbe.Text.Basic

/-!
# Flat text

Scans that cross line ends work on the lines joined by line feeds and turn offsets back into
positions.  A line may itself contain a line feed, which is then a character like any other, so
positions are found from the lengths of the lines and not by counting line feeds: the line of an
offset is searched among the starts of the lines.
-/

namespace ShaderProbe

/-- A place in a list of lines, both counted from zero. -/
structure Position where
  line : Nat
  column : Nat
  deriving DecidableEq

namespace Position

/-- The position lies before the given line and column. -/
def isBefore (position : Position) (line column : Int) : Bool :=
  (position.line : Int) < line || ((position.line : Int) = line && (position.column : Int) < column)

/-- The position lies after the given line and column. -/
def isAfter (position : Position) (line column : Int) : Bool :=
  line < (position.line : Int) || (line = (position.line : Int) && column < (position.column : Int))

end Position

/-- Consecutive lines of a source, of which the first has the number `firstLine`. -/
structure FlatText where
  lines : List Text
  firstLine : Nat := 0

namespace FlatText

/-- The lines joined by line feeds. -/
def text (flat : FlatText) : Text := Text.ofLines flat.lines

/-- Offsets at which the lines start, the first of them at `start`. -/
def startsFrom (start : Nat) : List Text → List Nat
  | [] => []
  | l :: ls => start :: startsFrom (start + l.length + 1) ls

/-- Offsets at which the lines start in the flat text. -/
def lineStarts (flat : FlatText) : List Nat := startsFrom 0 flat.lines

/-- The last of the lines `low` to `high` that starts at or in front of an offset, found by halving
the range; it is `low` if no later one does.  There is no answer if a line is looked at that is not
there.  The recursion can be unfolded, so that positions in given lines can be computed. -/
@[semireducible] def search (starts : List Nat) (offset : Int) (low high : Nat) : Option Nat :=
  if low < high then
    -- The middle is rounded up, so that either half is shorter than the range.
    let middle := (low + high + 1) / 2
    match starts[middle]? with
    | none => none
    | some start =>
      if start ≤ offset then search starts offset middle high
      else search starts offset low (middle - 1)
  else some low
termination_by high - low

/-- Line and column of any integer offset, in lines of which the first has the number `first`; there
are none without lines.  An offset in front of the text lies on the first line, at a negative
column, and an offset past the end on the last line. -/
def place? (lines : List Text) (first offset : Int) : Option (Int × Int) := do
  let starts := startsFrom 0 lines
  let line ← search starts offset 0 (starts.length - 1)
  let start ← starts[line]?
  return (first + line, offset - start)

/-- Line and column of any integer offset of the flat text. -/
def locate? (flat : FlatText) (offset : Int) : Option (Nat × Int) :=
  (place? flat.lines flat.firstLine offset).map fun place => (place.1.toNat, place.2)

/-- The position of an offset of the flat text.  Without lines there is none, and nothing is looked
up there: the offsets of functions and loops are found on a line
(`Outline.exists_locate?_of_mem_functions`, `Loop.exists_locate?_of_mem_find`). -/
def locate (flat : FlatText) (offset : Nat) : Position :=
  match flat.locate? offset with
  | some (line, column) => ⟨line, column.toNat⟩
  | none => ⟨flat.firstLine, offset⟩

@[simp] theorem length_startsFrom (start : Nat) (ls : List Text) :
    (startsFrom start ls).length = ls.length := by
  induction ls generalizing start with
  | nil => rfl
  | cons l ls ih => simp [startsFrom, ih]

end FlatText

end ShaderProbe
