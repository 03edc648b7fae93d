import ShaderProbe.Config
import ShaderProbe.Edit.Basic
import ShaderProbe.Loop.Scan

/-!
# Capping loops

A capped loop counts its iterations and breaks once there are more than the cap.  The counter is
declared right before the loop, and the first statement of the body increments it.  A loop without
braces gets them.  A loop that is itself the unbraced body of another statement is put into a block
together with its counter, so that it stays the body.
-/

namespace ShaderProbe

namespace Cap

/-- The number of iterations that is allowed to the loop of an index. -/
abbrev Caps := List (Int × Int)

/-- The cap of a loop. -/
def capOf? (caps : Caps) (loop : Loop) : Option Int :=
  (caps.find? fun entry => entry.1 = (loop.index : Int)).map Prod.snd

/-- The counter of a loop. -/
def counter (config : Config) (loop : Loop) : Text := config.counterStem ++ Text.ofNat loop.index

/-- Statement that declares the counter of a loop. -/
def declaration (config : Config) (loop : Loop) : Text :=
  "int " ++ counter config loop ++ " = 0;"

/-- Statement that counts an iteration and ends the loop after the last one allowed. -/
def guard (config : Config) (loop : Loop) (cap : Int) : Text :=
  "if (++" ++ counter config loop ++ " > " ++ Text.ofInt cap ++ ") break;"

/-- A closing brace after the body of a loop that is known to end. -/
def closeBody (loop : Loop) : List Edit :=
  (loop.bodyEnd.map fun last => .inline last.line (last.column + 1) " \x7d").toList

/-- The edits that declare the counter of a loop in front of it. -/
def counterEdits (config : Config) (lines code : List Text) (loop : Loop) :
    Except Error (List Edit) := do
  let indent := Text.indent (← lineAt lines loop.headerLine)
  let keyword := loop.keyword.getD ⟨loop.headerLine, indent.length⟩
  let declaration := declaration config loop
  if loop.bareBody then
    return .inline keyword.line keyword.column ("\x7b " ++ declaration ++ " ") :: closeBody loop
  else
    let line ← lineAt code keyword.line
    if !Text.isBlankOnly (line.take keyword.column) then
      return [.inline keyword.line keyword.column (declaration ++ " ")]
    else return [.lineBefore loop.headerLine (indent ++ declaration)]

/-- The edits that make the guard the first statement of a loop's body. -/
def guardEdits (config : Config) (lines code : List Text) (loop : Loop) (cap : Int) :
    Except Error (List Edit) := do
  let guard := guard config loop cap
  match loop.brace, loop.parenClose with
  | some brace, _ =>
    let line ← lineAt code brace.line
    if !Text.isBlankOnly (line.drop (brace.column + 1)) then
      return [.inline brace.line (brace.column + 1) (" " ++ guard)]
    else
      let indent := Text.indent (← lineAt lines loop.headerLine)
      return [.lineAfter brace.line (indent ++ config.indent ++ guard)]
  | none, some close =>
    return .inline close.line (close.column + 1) (" \x7b " ++ guard) :: closeBody loop
  | none, none => return []

/-- The edits that cap those of the loops that have a cap. -/
def editsFor (config : Config) (lines code : List Text) (caps : Caps) :
    List Loop → Except Error (List Edit)
  | [] => .ok []
  | loop :: loops =>
    match capOf? caps loop with
    | none => editsFor config lines code caps loops
    | some cap => do
      let counter ← counterEdits config lines code loop
      let guard ← guardEdits config lines code loop cap
      return counter ++ guard ++ (← editsFor config lines code caps loops)

/-- The edits that cap the loops of the function at `start`. -/
def edits (config : Config) (lines : List Text) (start : Nat) (caps : Caps) :
    Except Error (List Edit) :=
  editsFor config lines (Comment.strip lines) caps (Loop.find lines start)

/-- The lines with the loops of the function at `start` capped.  A negative index or cap is an
error, which names the first pair that has one. -/
def apply (config : Config) (lines : List Text) (start : Nat) (caps : Caps) :
    Except Error (List Text) :=
  match caps.find? fun entry => entry.1 < 0 || entry.2 < 0 with
  | some (index, cap) => .error (.invalidCap index cap)
  | none => do
    return Edit.apply (← edits config lines start caps) lines

end Cap

end ShaderProbe
