import ShaderProbe.Balance
import ShaderProbe.Call
import ShaderProbe.Edit.Cap
import ShaderProbe.Edit.Shadow
import ShaderProbe.Outline
import ShaderProbe.Visualization

/-!
# Instrumented variants of a shader

Four ways to make a shader show a value.

* The entry point is cut after the statement that computes the value, or after the outermost loop
  around it, and writes the value to its own color output.
* A helper function is kept as it is; a truncated copy of it returns the value, and a synthesized
  entry point calls the copy.
* A whole helper is called by a synthesized entry point, which shows what it returns.
* A statement on its own is wrapped in a synthesized entry point.

Every variant is completed with closing braces from the instrumented function on.  Separately, a
finished shader can be given a last step that post-processes its output color.
-/

namespace ShaderProbe

namespace Variant

/-- What a request may set beside the line it is about. -/
structure Settings where
  caps : Cap.Caps := []
  overrides : Overrides := []
  options : ColorOptions := {}

/-! ### Parts -/

/-- The number of lines that are kept of a text of `count` lines: up to the end of the statement, or
up to the end of the outermost loop around it. -/
def keptLines (count statementEnd : Nat) (loops : List Loop) : Nat :=
  match Loop.outermost? loops with
  | none => statementEnd + 1
  | some outermost =>
    match outermost.endLine with
    | none => count
    | some last => max last statementEnd + 1

/-- The color output of an entry point: its first written `vec4` parameter, or the configured one.
-/
def outputOf (config : Config) (entry : Signature) : Text :=
  match entry.parameters.find? fun p => p.isOutput && p.type == ("vec4" : Text) with
  | some parameter => parameter.name
  | none => config.output

/-- The lines before a function without an entry point that ends there. -/
def linesBefore (config : Config) (lines : List Text) (function : Signature) : List Text :=
  let front := lines.take function.startLine
  let endsBefore (f : Signature) : Bool :=
    f.isEntryPoint config && f.endLine.any fun last => last < function.startLine
  match (Outline.functions config lines).find? endsBefore with
  | none => front
  | some entry => front.take entry.startLine ++ front.drop (entry.stopLine lines.length)

/-- The lines of a function, with its open blocks closed. -/
def functionLines (lines : List Text) (function : Signature) : Except Error (List Text) :=
  Balance.close ((lines.take (function.stopLine lines.length)).drop function.startLine) 0

/-- A synthesized entry point that calls a function and shows its result. -/
def callingEntryPoint (config : Config) (settings : Settings) (callee : Text)
    (parameters : List Parameter) (type : Text) : List Text :=
  let arguments := CallArguments.of config parameters settings.overrides
  let call := type ++ " " ++ config.result ++ " = " ++ callee ++ "(" ++ arguments.text ++ ");"
  config.entryHeader :: (arguments.setup ++ [call]).map (config.indent ++ ·)
    ++ Visualization.indented config settings.options [] type config.result ++ [['}']]

/-- The header of a copy: the type and the name of a header line are exchanged; any other line is
kept. -/
def renameHeader (line type name : Text) : Text :=
  match Header.read? line with
  | none => line
  | some header => { header with returnType := type, name }.text

/-- The lines of a function up to the target, with the value of the variable carried out of loops
and the loops capped.  The second part is the name that holds the value: the shadow's, unless it is
empty. -/
def truncated (config : Config) (settings : Settings) (lines : List Text) (function : Signature)
    (statementEnd : Nat) (shown : Variable) (loops : List Loop) :
    Except Error (List Text × Text) := do
  let kept := lines.take (keptLines lines.length statementEnd loops)
  let (marked, shadow) ← Shadow.insert config kept statementEnd shown loops
  let capped ← Cap.apply config marked function.startLine settings.caps
  return (capped, (shadow.filter (!·.isEmpty)).getD shown.name)

/-! ### The entry point in place -/

/-- The source with its entry point cut after the target and showing the variable. -/
def entryPoint (config : Config) (settings : Settings) (lines : List Text) (function : Signature)
    (statementEnd : Nat) (shown : Variable) (loops : List Loop) : Except Error Text := do
  let (kept, name) ← truncated config settings lines function statementEnd shown loops
  let closed ← Balance.close kept function.startLine
  let output := outputOf config function
  let visible := Visualization.indented config settings.options output shown.type name
  let rest := match function.endLine with
    | some last => lines.drop (last + 1)
    | none => []
  let result ← Balance.close (kept ++ visible ++ closed.drop kept.length ++ rest) function.startLine
  return Text.ofLines result

/-! ### A truncated copy of a helper -/

/-- The declaration that takes the place of the word `return`, as far as the equals sign.  Type and
name are read as a replacement text, so escapes in them are expanded. -/
def captureDeclaration (shown : Variable) : Except Error Text :=
  match Replacement.expand "return" (shown.type ++ " " ++ shown.name ++ " =") with
  | .ok declaration => .ok declaration
  | .error fault => .error (.badReplacement fault)

/-- A type and a name without a backslash are declared as they are. -/
theorem captureDeclaration_of_plain {shown : Variable} (ht : '\\' ∉ shown.type)
    (hn : '\\' ∉ shown.name) :
    captureDeclaration shown = .ok (shown.type ++ " " ++ shown.name ++ " =") := by
  have hplain : '\\' ∉ shown.type ++ " ".toList ++ shown.name ++ " =".toList := by
    simp [ht, hn]
  rw [captureDeclaration, Replacement.expand_of_plain hplain]

/-- The lines with the word `return` of a captured return statement made into a declaration. -/
def captureReturn (config : Config) (lines : List Text) (line : Nat) (shown : Variable) :
    Except Error (List Text) := do
  if shown.name = config.captured then
    match ← ReturnStatement.find config.maxStatementLines lines line with
    | none => return lines
    | some returned =>
      let declaration ← captureDeclaration shown
      return lines.modify returned.startLine (Text.replaceWord "return" declaration)
  else return lines

/-- The line on which the statement at a line ends; the line itself if there is no statement. -/
def statementEndAt (config : Config) (lines : List Text) (line : Nat) (known : Option Nat) :
    Except Error Nat :=
  match known with
  | some last => .ok last
  | none => do
    return (← Statement.endLineAt config.maxStatementLines lines line).getD line

/-- The truncated copy of a helper, which returns the shown variable. -/
def debugCopy (config : Config) (settings : Settings) (lines : List Text) (function : Signature)
    (statementEnd : Nat) (shown : Variable) (loops : List Loop) (name : Text) :
    Except Error (List Text) := do
  let (kept, value) ← truncated config settings lines function statementEnd shown loops
  match kept.drop function.startLine with
  | [] => .error (.outOfRange 0)
  | header :: body =>
    let copy := renameHeader header shown.type name :: body
    let closed ← Balance.close copy 0
    return copy ++ [config.indent ++ "return " ++ value ++ ";"] ++ closed.drop copy.length

/-- The source up to the helper, the truncated copy of the helper, and an entry point that calls the
copy.  Where the end of the target statement is not given it is looked up. -/
def helper (config : Config) (settings : Settings) (lines : List Text) (function : Signature)
    (line : Nat) (shown : Variable) (loops : List Loop) (statementEnd : Option Nat) :
    Except Error Text := do
  let statementEnd ← statementEndAt config lines line statementEnd
  let working ← captureReturn config lines line shown
  let name := config.copyStem ++ function.name
  let copy ← debugCopy config settings working function statementEnd shown loops name
  let front := linesBefore config lines function
  let own ← functionLines lines function
  let entry := callingEntryPoint config settings name function.parameters shown.type
  let result ← Balance.close (front ++ own ++ [[]] ++ copy ++ [[]] ++ entry) front.length
  return Text.ofLines result

/-! ### A whole helper -/

/-- The source up to the helper, its loops capped, and an entry point that calls it. -/
def wholeHelper (config : Config) (settings : Settings) (lines : List Text)
    (function : Signature) : Except Error Text := do
  let kept := lines.take (function.stopLine lines.length)
  let capped ← Cap.apply config kept function.startLine settings.caps
  let front := linesBefore config lines function
  let own ← Balance.close (capped.drop function.startLine) 0
  let entry :=
    callingEntryPoint config settings function.name function.parameters function.returnType
  let result ← Balance.close (front ++ own ++ [[]] ++ entry) front.length
  return Text.ofLines result

/-! ### A statement on its own -/

/-- A synthesized entry point around one statement. -/
def oneLiner (config : Config) (options : ColorOptions) (text : Text) (shown : Variable) :
    Except Error Text := do
  let statement := Text.trim text
  let setup := if Text.hasWord "uv" statement && shown.name != ("uv" : Text) then
    [config.uvSetup] else []
  let body := (setup ++ [statement]).map (config.indent ++ ·)
    ++ Visualization.indented config options [] shown.type shown.name
  let result ← Balance.close (config.entryHeader :: body ++ [['}']]) 0
  return Text.ofLines result

/-! ### Post-processing -/

/-- The closing line of an entry point with statements put right before its last brace; what stands
before the brace keeps a line of its own. -/
def beforeLastBrace (closing : Text) (statements : List Text) : List Text :=
  let (front, tail) := Text.splitTail (· != '}') closing
  let head := front.dropLast
  if Text.isBlankOnly head then statements ++ [closing]
  else head :: statements ++ [front.drop head.length ++ tail]

/-- The source with its entry point's color post-processed at the end.  There is nothing to do
without options or without a complete entry point. -/
def postProcessed (config : Config) (options : ColorOptions) (source : Text) : Option Text :=
  if options.isIdentity then none
  else do
    let lines := Text.lines source
    let entry ← (Outline.functions config lines).find? (Signature.isEntryPoint config)
    let last ← entry.endLine
    let closing ← lines[last]?
    let statements := (Visualization.postStatements options (outputOf config entry)).map
      (config.indent ++ ·)
    some (Text.ofLines (lines.take last ++ beforeLastBrace closing statements
      ++ lines.drop (last + 1)))

end Variant

end ShaderProbe
