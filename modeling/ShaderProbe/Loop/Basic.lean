import ShaderProbe.Text.Flat

/-!
# Loops

A `for` or `while` loop of a function, described by the positions that matter for edits: its
keyword, the end of its header and the two ends of its body.  A loop may also be described by its
lines alone; positions are then absent, and containment is decided by lines.
-/

namespace ShaderProbe

/-- A `for` or `while` loop inside a function. -/
structure Loop where
  /-- Line of the loop's keyword. -/
  headerLine : Nat
  /-- Keyword and header in parentheses, blanks squeezed. -/
  headerText : Text := []
  /-- Number of loops of the function whose headers come first. -/
  index : Nat := 0
  /-- Line on which the body ends. -/
  endLine : Option Nat := none
  /-- The closing parenthesis of the header. -/
  parenClose : Option Position := none
  /-- The brace that opens the body; absent for a body without braces. -/
  brace : Option Position := none
  /-- The last character of the body. -/
  bodyEnd : Option Position := none
  /-- The loop's keyword. -/
  keyword : Option Position := none
  /-- The loop is the unbraced body of an `if`, `else`, `for`, `while` or `do`. -/
  bareBody : Bool := false
  deriving DecidableEq

namespace Loop

/-- The body is a block in braces. -/
def isBraced (loop : Loop) : Bool := loop.brace.isSome

/-- The line lies in the body.  The lines of the braces themselves do not count. -/
def containsLine (loop : Loop) (line : Int) : Bool :=
  match loop.endLine with
  | none => (loop.headerLine : Int) < line
  | some last =>
    match loop.brace with
    | some brace => (brace.line : Int) < line && line < (last : Int)
    | none =>
      if loop.headerLine = last then line = (loop.headerLine : Int)
      else (loop.headerLine : Int) < line && line ≤ (last : Int)

/-- The place lies in the body.  A body without braces includes its last character. -/
def containsPlace (loop : Loop) (close : Position) (line column : Int) : Bool :=
  match loop.brace, loop.bodyEnd with
  | some brace, some last => brace.isBefore line column && last.isAfter line column
  | none, some last => close.isBefore line column && !last.isBefore line column
  | some brace, none => brace.isBefore line column
  | none, none => close.isBefore line column

/-- The line, or the place if a column is given, lies in the body of the loop.  Places are compared
with the delimiters of the body, so a statement on the line of the closing brace may lie inside. -/
def contains (loop : Loop) (line : Int) (column : Option Int) : Bool :=
  match column, loop.parenClose with
  | some column, some close => loop.containsPlace close line column
  | _, _ => loop.containsLine line

/-- The first of the loops with the smallest header line. -/
def outermost? : List Loop → Option Loop
  | [] => none
  | loop :: loops =>
    match outermost? loops with
    | none => some loop
    | some other => if other.headerLine < loop.headerLine then some other else some loop

end Loop

end ShaderProbe
