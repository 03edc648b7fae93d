import ShaderProbe.Statement.Classify

/-!
# The line that is meant

An editor names a line by its number and possibly by its text.  When the source has been edited
since, the number may have drifted; the nearest line with the same text, blanks at both ends aside,
is then meant.  The statement at the line that is meant is what gets classified.
-/

namespace ShaderProbe

namespace Target

/-- The line is one of the text's. -/
def inRange (lines : List Text) (line : Int) : Bool := 0 ≤ line && line < lines.length

/-- The line itself, if it is in range. -/
def inRange? (lines : List Text) (line : Int) : Option Nat :=
  if inRange lines line then some line.toNat else none

/-- Of the numbers, which increase, the one nearest to a line; the smaller on a tie. -/
def nearest? (line : Int) : List Nat → Option Nat
  | [] => none
  | i :: is =>
    match nearest? line is with
    | none => some i
    | some j => if ((j : Int) - line).natAbs < ((i : Int) - line).natAbs then some j else some i

/-- The numbers of the lines that equal a trimmed text after trimming. -/
def matching (lines : List Text) (wanted : Text) : List Nat :=
  (List.range lines.length).filter fun i => lines[i]?.map Text.trim == some wanted

/-- The number of the line that is meant by a number and the text shown there.  Without text, or
where no line has it, the number is kept if it is in range. -/
def resolve (lines : List Text) (line : Int) (shown : Option Text) : Option Nat :=
  match shown.map Text.trim with
  | none | some [] => inRange? lines line
  | some wanted => nearest? line (matching lines wanted) <|> inRange? lines line

/-- The classification of the statement at the line that is meant, as one of the kinds. -/
def classify (config : Config) (kinds : List Statement.Kind) (lines : List Text) (line : Int)
    (shown : Option Text) (function : Option Signature) : Except Error Classification :=
  match resolve lines line shown with
  | none => .ok (.noMatch .outOfRange)
  | some line => do
    let code := Comment.strip lines
    match ← Statement.find config.maxStatementLines code line with
    | none => return .noMatch .noStatement
    | some statement => statement.classify code function kinds

end Target

end ShaderProbe
