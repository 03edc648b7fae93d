import ShaderProbe.Error
import ShaderProbe.Text.Bracket
import ShaderProbe.Text.Comment
import ShaderProbe.Text.Flat
import ShaderProbe.Text.Word

/-!
# Statements

The statement that touches a line of comment-free code.  Backwards it reaches as far as no line ends
a statement, a block or a preprocessor directive, and no line is a complete control header.
Forwards it runs to the first `;` outside brackets; a brace met before that means that there is no
statement. Both searches look at a limited number of lines.
-/

namespace ShaderProbe

/-- A statement of comment-free code. -/
structure Statement where
  /-- The trimmed lines of the statement joined by spaces, up to its `;`. -/
  text : Text
  startLine : Nat
  endLine : Nat
  /-- Column of the `;` on the last line. -/
  endColumn : Nat
  deriving DecidableEq

namespace Statement

/-! ### The first line -/

/-- The trimmed text, from the keyword on, is an `if`, `for` or `while` with its header. -/
def isConditionHeader (t : Text) : Bool :=
  (["if", "for", "while"] : List Text).any fun keyword =>
    match (Text.readLiteral? keyword t).map Text.trimLeft with
    | some ('(' :: rest) =>
      rest.getLast? = some ')' && !rest.dropLast.contains '\n'
    | _ => false

/-- The trimmed text is a control header alone: `if (...)`, `for (...)`, `while (...)` or `else`,
the latter possibly before one of the others, and a closing brace possibly in front. -/
def isControlHeader (t : Text) : Bool :=
  let t := match t with
    | '}' :: rest => Text.trimLeft rest
    | t => t
  let t := match Text.readWord? "else" t with
    | some rest => Text.trimLeft rest
    | none => t
  t.isEmpty || isConditionHeader t

/-- No statement reaches from this line to the next one. -/
def isBoundary (line : Text) : Bool :=
  let t := Text.trim line
  t.isEmpty || t.head? = some '#'
    || t.getLast?.any (fun c => c = ';' || c = '{' || c = '}')
    || (isControlHeader t && t.count '(' = t.count ')')

/-- The first line of the statement that touches a line, at most `max` lines before it. -/
def firstLine (max : Int) (code : List Text) (line : Nat) : Nat :=
  line - (((code.take line).reverse.take max.toNat).takeWhile fun l => !isBoundary l).length

/-! ### The last line -/

/-- What a line of a statement ends with. -/
inductive LineEnd where
  /-- The `;` that ends the statement. -/
  | semicolon (column : Nat)
  /-- A brace that comes first. -/
  | brace
  /-- Neither; the brackets open after the line are `depth`. -/
  | unfinished (depth : Int)

/-- The end of a line from the given column on, where `depth` brackets are open. -/
def lineEnd (depth : Int) (column : Nat) : Text → LineEnd
  | [] => .unfinished depth
  | c :: t =>
    if Text.nesting c ≠ 0 then lineEnd (depth + Text.nesting c) (column + 1) t
    else if depth ≤ 0 ∧ c = ';' then .semicolon column
    else if depth ≤ 0 ∧ (c = '{' ∨ c = '}') then .brace
    else lineEnd depth (column + 1) t

/-- Position of the `;` that ends a statement, for lines that start at the given number and bracket
depth. -/
def endFrom (depth : Int) (line : Nat) : List Text → Option Position
  | [] => none
  | l :: ls =>
    match lineEnd depth 0 l with
    | .semicolon column => some ⟨line, column⟩
    | .brace => none
    | .unfinished depth => endFrom depth (line + 1) ls

/-! ### The statement -/

/-- The lines from `first` to an end position, each trimmed, joined by spaces. -/
def textTo (code : List Text) (first : Nat) (last : Position) : Text :=
  let whole := (code.take last.line).drop first
  let cut := (code.getD last.line []).take (last.column + 1)
  [' '].intercalate ((whole ++ [cut]).map Text.trim)

/-- The statement that touches a line which is not blank. -/
def spanning? (max : Int) (code : List Text) (line : Nat) : Option Statement := do
  let first := firstLine max code line
  let last ← endFrom 0 first ((code.drop first).take max.toNat)
  if last.line < line then none
  else
    some
      { text := textTo code first last
        startLine := first
        endLine := last.line
        endColumn := last.column }

/-- The statement that touches a line of comment-free code, if there is one.  A blank line has none;
a line past the end is an error. -/
def find (max : Int) (code : List Text) (line : Nat) : Except Error (Option Statement) := do
  let text ← lineAt code line
  return if Text.isBlankOnly text then none else spanning? max code line

/-- The line of the `;` that ends the statement touching a line of a source. -/
def endLineAt (max : Int) (lines : List Text) (line : Nat) : Except Error (Option Nat) := do
  let statement ← find max (Comment.strip lines) line
  return statement.map Statement.endLine

/-- The position of the `;` that ends the statement touching a line of a source; there is none for a
line out of range. -/
def endAt (max : Int) (lines : List Text) (line : Int) : Except Error (Option Position) :=
  if 0 ≤ line ∧ line < lines.length then do
    let statement ← find max (Comment.strip lines) line.toNat
    return statement.map fun s => ⟨s.endLine, s.endColumn⟩
  else .ok none

end Statement

end ShaderProbe
