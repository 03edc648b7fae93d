import ShaderProbe.Text.Word

/-!
# Function headers

A function header is a line that starts with qualifiers, a return type, a name and an opening
parenthesis, separated by blanks.  Read from the parenthesis backwards the parts are unique: the
name and the return type are the last two words in front of the first `(`, and every word before
them has to be a qualifier.

`Header.text_of_read?` says that the parts make up the line, so that a header can be renamed by
exchanging parts.
-/

namespace ShaderProbe

namespace Text

/-- A text cut in front of its longest tail of characters in the class `p`. -/
def splitTail (p : Char → Bool) (t : Text) : Text × Text :=
  ((t.reverse.dropWhile p).reverse, (t.reverse.takeWhile p).reverse)

/-- The two pieces of a cut make up the text. -/
theorem splitTail_append (p : Char → Bool) (t : Text) :
    (splitTail p t).1 ++ (splitTail p t).2 = t := by
  rw [splitTail, ← List.reverse_append, List.takeWhile_append_dropWhile, List.reverse_reverse]

end Text

/-- The parts of a function's header line. -/
structure Header where
  /-- Indentation and qualifiers with the blanks after them. -/
  lead : Text
  returnType : Text
  /-- The blanks between return type and name. -/
  gap : Text
  name : Text
  /-- The blanks between the name and the opening parenthesis. -/
  tail : Text
  /-- The line from the opening parenthesis on. -/
  rest : Text

namespace Header

/-- Words that may stand in front of a return type. -/
def qualifiers : List Text := ["const", "highp", "mediump", "lowp", "precise"]

/-- Words that can stand in front of a `(` without naming a function. -/
def controlKeywords : List Text :=
  ["if", "for", "while", "switch", "return", "else", "do", "case"]

/-- The parts of a header line, which may name a control statement. -/
def read? (line : Text) : Option Header :=
  let (front, tail) := Text.splitTail isBlank (line.takeWhile (· != '('))
  let (front, name) := Text.splitTail isWordChar front
  let (front, gap) := Text.splitTail isBlank front
  let (lead, returnType) := Text.splitTail isWordChar front
  let rest := line.dropWhile (· != '(')
  if !rest.isEmpty && Text.isIdent name && !gap.isEmpty && Text.isIdent returnType
      && (Text.words lead).all (qualifiers.contains ·) then
    some { lead, returnType, gap, name, tail, rest }
  else none

/-- The header line that the parts make up. -/
def text (header : Header) : Text :=
  header.lead ++ header.returnType ++ header.gap ++ header.name ++ header.tail ++ header.rest

/-- Column of the opening parenthesis. -/
def parenColumn (header : Header) : Nat :=
  (header.lead ++ header.returnType ++ header.gap ++ header.name ++ header.tail).length

/-- The header names a function and no control statement. -/
def isFunction (header : Header) : Bool :=
  !controlKeywords.contains header.returnType && !controlKeywords.contains header.name

/-- The parts that are read make up the line. -/
theorem text_of_read? {line : Text} {header : Header} (h : read? line = some header) :
    header.text = line := by
  simp only [read?] at h
  split at h
  · simp only [Option.some.injEq] at h
    subst h
    simp only [text]
    rw [List.append_assoc, List.append_assoc, List.append_assoc, List.append_assoc]
    rw [← List.append_assoc, Text.splitTail_append, ← List.append_assoc, Text.splitTail_append,
      ← List.append_assoc, Text.splitTail_append, ← List.append_assoc, Text.splitTail_append,
      List.takeWhile_append_dropWhile]
  · simp at h

end Header

end ShaderProbe
