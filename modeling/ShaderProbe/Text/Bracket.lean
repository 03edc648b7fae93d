import ShaderProbe.Text.Basic

/-!
# Brackets

Depth counting on text that is not parsed.  Parentheses are matched by counting them from an opening
one; items are separated by commas outside parentheses and square brackets; braces are only summed.
Unbalanced text is no error here: depths are integers and may become negative.
-/

namespace ShaderProbe

namespace Text

/-- Offset of the first closing bracket at which the depth becomes zero, for a text that starts at
the given depth. -/
def closingFrom (opening closing : Char) (depth : Int) : Text → Option Nat
  | [] => none
  | c :: t =>
    if c = opening then (closingFrom opening closing (depth + 1) t).map (· + 1)
    else if c = closing then
      if depth = 1 then some 0 else (closingFrom opening closing (depth - 1) t).map (· + 1)
    else (closingFrom opening closing depth t).map (· + 1)

/-- Offset of the `)` that matches the `(` at the start of the text. -/
def closingParen? (t : Text) : Option Nat := closingFrom '(' ')' 0 t

/-- Offset of the closing brace that matches the opening one at the start of the text. -/
def closingBrace? (t : Text) : Option Nat := closingFrom '{' '}' 0 t

/-- What a character adds to the depth of parentheses and square brackets. -/
def nesting (c : Char) : Int :=
  if c = '(' ∨ c = '[' then 1 else if c = ')' ∨ c = ']' then -1 else 0

/-- The parts of a text between the separators at depth zero, for a text that starts at the given
depth.  The depth of a character counts the character itself.  A separator is a single character:
a longer or empty one occurs nowhere. -/
def splitTopLevelFrom (sep : Text) (depth : Int) : Text → List Text
  | [] => [[]]
  | c :: t =>
    let depth := depth + nesting c
    if [c] = sep ∧ depth = 0 then [] :: splitTopLevelFrom sep depth t
    else consFirst c (splitTopLevelFrom sep depth t)

/-- The parts of a text between the separators outside parentheses and square brackets. -/
def splitTopLevel (sep t : Text) : List Text := splitTopLevelFrom sep 0 t

/-- The number of opening braces minus the number of closing ones. -/
def braceDelta (t : Text) : Int := (t.count '{' : Int) - (t.count '}' : Int)

/-- The braces of lines are summed over the lines. -/
def bracesOf : List Text → Int
  | [] => 0
  | l :: ls => braceDelta l + bracesOf ls

@[simp] theorem braceDelta_nil : braceDelta [] = 0 := rfl

/-- Braces add up over the pieces of a text. -/
@[simp] theorem braceDelta_append (s t : Text) :
    braceDelta (s ++ t) = braceDelta s + braceDelta t := by
  simp only [braceDelta, List.count_append]
  omega

end Text

end ShaderProbe
