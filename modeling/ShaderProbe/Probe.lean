import ShaderProbe.Statement.Target
import ShaderProbe.Variant

/-!
# Probing a shader

The questions an editor asks about a line of a shader: make the shader show the value computed
there, describe the function and the loops around it, or wrap a single statement.  A line that holds
nothing to show is answered with nothing; errors are left to input that is broken, such as a brace
that closes nothing.
-/

namespace ShaderProbe

namespace Probe

/-- The loops around the statement that touches a line, located by the `;` that ends it. -/
def loopsAround (config : Config) (lines : List Text) (function : Signature) (line : Int) :
    Except Error (List Loop) := do
  match ← Statement.endAt config.maxStatementLines lines line with
  | none => return Loop.enclosing lines function.startLine line none
  | some last =>
    return Loop.enclosing lines function.startLine last.line (some (last.column : Int))

/-- The kinds of statements that are shown, in the order in which they are tried. -/
def shownKinds : List Statement.Kind := [.declaration, .assignment]

/-- The variant that shows a variable whose statement ends on a line. -/
def showVariable (config : Config) (settings : Variant.Settings) (lines : List Text)
    (function : Signature) (line : Nat) (shown : Variable) (statementEnd : Nat) :
    Except Error Text := do
  let loops ← loopsAround config lines function line
  if function.isEntryPoint config then
    Variant.entryPoint config settings lines function statementEnd shown loops
  else Variant.helper config settings lines function line shown loops (some statementEnd)

/-- The variant for a line of a helper that neither declares nor assigns: the returned value on a
return statement, and the result of the whole helper on its header. -/
def showReturn (config : Config) (settings : Variant.Settings) (lines : List Text)
    (function : Signature) (line : Nat) : Except Error (Option Text) := do
  match ← ReturnStatement.find config.maxStatementLines lines line, function.returnsValue with
  | some returned, true =>
    some <$> showVariable config settings lines function line
      ⟨config.captured, function.returnType⟩ returned.endLine
  | _, returnsValue =>
    if returnsValue && Outline.inHeader lines function line then
      some <$> Variant.wholeHelper config settings lines function
    else return none

/-- The variant that shows the value computed at a line of a function. -/
def instrumentLine (config : Config) (settings : Variant.Settings) (lines : List Text)
    (function : Signature) (line : Nat) : Except Error (Option Text) := do
  match ← Target.classify config shownKinds lines line none (some function) with
  | .declaration shown _ last | .assignment shown _ _ last =>
    some <$> showVariable config settings lines function line shown last
  | .noMatch _ =>
    if function.isEntryPoint config then return none
    else showReturn config settings lines function line

/-- The source changed so that its color output shows the value computed at a line.  There is none
if the line is out of range or at global scope, or if nothing is computed there. -/
def instrument (config : Config) (settings : Variant.Settings) (source : Text) (line : Int)
    (shown : Option Text) : Except Error (Option Text) :=
  let lines := Text.lines source
  match Target.resolve lines line shown with
  | none => .ok none
  | some line =>
    match Outline.enclosing? config lines line with
    | none => .ok none
    | some function => instrumentLine config settings lines function line

/-- A summary of the function around a line. -/
structure Context where
  functionName : Text
  returnType : Text
  /-- The parameters that can be configured. -/
  parameters : List Parameter
  /-- The function is a helper and not the entry point. -/
  isHelper : Bool
  /-- The loops around the line, outermost first. -/
  loops : List Loop
  deriving DecidableEq

/-- The summary of the function around a line; at global scope there is none. -/
def context (config : Config) (source : Text) (line : Int) : Except Error (Option Context) :=
  let lines := Text.lines source
  match Outline.enclosing? config lines line with
  | none => .ok none
  | some function => do
    return some
      { functionName := function.name
        returnType := function.returnType
        parameters := function.visibleParameters
        isHelper := !function.isEntryPoint config
        loops := ← loopsAround config lines function line }

/-- A declaration on its own wrapped in an entry point that shows the variable; there is none for
any other text. -/
def oneLiner (config : Config) (options : ColorOptions) (text : Text) :
    Except Error (Option Text) := do
  match ← Target.classify config shownKinds [text] 0 none none with
  | .declaration shown _ _ => some <$> Variant.oneLiner config options text shown
  | _ => return none

end Probe

end ShaderProbe
