import ShaderProbe.Text.Basic

/-!
# Comments

Comments are blanked and not removed, so that a column of the code is the same column of the source
line.  A `/*` opens a block that runs to the next `*/` starting at least two characters later, over
as many lines as needed; a `//` outside a block runs to the end of its line.  The blanked lines are
trimmed on the right.

`Comment.length_strip` says that the lines keep their numbers.
-/

namespace ShaderProbe

namespace Comment

/-- One line with its comments blanked, and whether a block comment is open after it.  The flag
`inBlock` says that one is open before it. -/
def blankLine (inBlock : Bool) : Text → Text × Bool
  | [] => ([], inBlock)
  | [c] => ([if inBlock then ' ' else c], inBlock)
  | c :: d :: t =>
    if inBlock then
      if c = '*' ∧ d = '/' then
        let (out, isOpen) := blankLine false t
        (' ' :: ' ' :: out, isOpen)
      else
        let (out, isOpen) := blankLine true (d :: t)
        (' ' :: out, isOpen)
    else if c = '/' ∧ d = '/' then ([], false)
    else if c = '/' ∧ d = '*' then
      let (out, isOpen) := blankLine true t
      (' ' :: ' ' :: out, isOpen)
    else
      let (out, isOpen) := blankLine false (d :: t)
      (c :: out, isOpen)

/-- The lines without their comments, the first of which starts inside a block comment if `inBlock`
says so. -/
def stripFrom (inBlock : Bool) : List Text → List Text
  | [] => []
  | l :: ls =>
    let (code, isOpen) := blankLine inBlock l
    Text.trimRight code :: stripFrom isOpen ls

/-- The code of the lines: comments blanked, then trimmed on the right. -/
def strip (ls : List Text) : List Text := stripFrom false ls

@[simp] theorem length_stripFrom (inBlock : Bool) (ls : List Text) :
    (stripFrom inBlock ls).length = ls.length := by
  induction ls generalizing inBlock with
  | nil => rfl
  | cons l ls ih => simp [stripFrom, ih]

/-- Stripping keeps the number of lines. -/
@[simp] theorem length_strip (ls : List Text) : (strip ls).length = ls.length :=
  length_stripFrom false ls

end Comment

end ShaderProbe
