import ShaderProbe.Config
import ShaderProbe.Loop.Basic
import ShaderProbe.Statement.Classify

/-!
# Carrying a value out of loops

A value computed inside loops is copied to a shadow variable right after the statement that computes
it.  The shadow is declared before the outermost of the loops, so after the loops it holds the value
of the last iteration.  If that loop is the unbraced body of another statement, the declaration
opens a block around it, which is left open: the text is truncated after the loop and closed later.
-/

namespace ShaderProbe

namespace Shadow

/-- The line with a text put in front of a column. -/
def insertAt (line : Text) (column : Nat) (text : Text) : Text :=
  line.take column ++ text ++ line.drop column

/-- The lines with the statement `assignment` right after the statement that ends on the target
line: on the same line if more code follows there. -/
def assign (config : Config) (lines : List Text) (target : Nat) (assignment : Text) :
    Except Error (List Text) := do
  let code := Comment.strip lines
  let line ← lineAt lines target
  match ← Statement.endAt config.maxStatementLines lines target with
  | some last =>
    if last.line = target ∧ !Text.isBlankOnly ((code.getD target []).drop (last.column + 1)) then
      return lines.set target (insertAt line (last.column + 1) (" " ++ assignment))
    else return lines.insertIdx (target + 1) (Text.indent line ++ assignment)
  | none => return lines.insertIdx (target + 1) (Text.indent line ++ assignment)

/-- The lines `result`, made from `lines` by the assignment, with the statement `declaration` right
before a loop. -/
def declare (lines result : List Text) (loop : Loop) (declaration : Text) :
    Except Error (List Text) := do
  let indent := Text.indent (← lineAt lines loop.headerLine)
  let keyword := loop.keyword.getD ⟨loop.headerLine, indent.length⟩
  let line ← lineAt result keyword.line
  if loop.bareBody then
    return result.set keyword.line
      (insertAt line keyword.column ("\x7b " ++ declaration ++ " "))
  else
    let code ← lineAt (Comment.strip lines) keyword.line
    if !Text.isBlankOnly (code.take keyword.column) then
      return result.set keyword.line (insertAt line keyword.column (declaration ++ " "))
    else return result.insertIdx loop.headerLine (indent ++ declaration)

/-- The lines with the shadow of a variable carried out of the loops around the target line, and the
name of the shadow.  Without loops the variable can be read directly and nothing changes. -/
def insert (config : Config) (lines : List Text) (target : Nat) (shown : Variable)
    (loops : List Loop) : Except Error (List Text × Option Text) :=
  match Loop.outermost? loops with
  | none => .ok (lines, none)
  | some outermost => do
    let result ← assign config lines target (config.shadow ++ " = " ++ shown.name ++ ";")
    let result ← declare lines result outermost (shown.type ++ " " ++ config.shadow ++ ";")
    return (result, some config.shadow)

end Shadow

end ShaderProbe
