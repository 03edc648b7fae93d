import ShaderProbe.Parameter
import ShaderProbe.Signature.Header
import ShaderProbe.Text.Bracket
import ShaderProbe.Text.Comment

/-!
# Function signatures

Return type, name and parameters of a function header, which may span several lines.  Parameters are
separated by commas outside brackets, so that neither an array size nor an expression in parentheses
splits a parameter.  An item that does not read as `[qualifier] type name [size]` is passed over.
-/

namespace ShaderProbe

/-- A parsed function header. -/
structure Signature where
  name : Text
  returnType : Text
  /-- All parameters in the order of declaration. -/
  parameters : List Parameter := []
  /-- Line of the header. -/
  startLine : Nat := 0
  /-- Line of the closing brace, absent when the body never closes. -/
  endLine : Option Nat := none
  deriving DecidableEq

namespace Signature

/-- The parameters that a caller can configure: all but those that are only written. -/
def visibleParameters (signature : Signature) : List Parameter :=
  signature.parameters.filter fun parameter => !parameter.isOutput

/-- The function returns a value. -/
def returnsValue (signature : Signature) : Bool := GlslType.parse signature.returnType ≠ .void

/-- The function is the per-pixel entry point. -/
def isEntryPoint (config : Config) (signature : Signature) : Bool :=
  signature.name = config.entryPoint

/-- The last line of the function, in a text of `count` lines. -/
def lastLine (signature : Signature) (count : Nat) : Int :=
  match signature.endLine with
  | some line => line
  | none => (count : Int) - 1

/-- The number of lines up to the end of the function, in a text of `count` lines. -/
def stopLine (signature : Signature) (count : Nat) : Nat :=
  match signature.endLine with
  | some line => line + 1
  | none => count

/-! ### Parameters -/

/-- Words of a parameter that carry no meaning for a call. -/
def silentWords : List Text := "const" :: GlslType.precisions

/-- An array size: empty, or a bracketed text that holds no other closing bracket. -/
def isArraySuffix (t : Text) : Bool := t.isEmpty || t.dropWhile (· != ']') == [']']

/-- The parameter of the given qualifier, type, name and array size, if type and name are
identifiers. -/
def item? (config : Config) (qualifier : Qualifier) (type name suffix : Text) : Option Parameter :=
  if Text.isIdent type && Text.isIdent name then
    some (Parameter.ofType config name (type ++ suffix.filter (· != ' ')) qualifier)
  else none

/-- A parameter from its words in front of an array size and the size. -/
def itemOfWords? (config : Config) (suffix : Text) : List Text → Option Parameter
  | [type, name] => item? config .input type name suffix
  | [word, type, name] =>
    (Qualifier.ofKeyword? word).bind fun qualifier => item? config qualifier type name suffix
  | _ => none

/-- One item of a parameter list. -/
def parameter? (config : Config) (item : Text) : Option Parameter :=
  let spoken := (Text.words item).filter fun word => !silentWords.contains word
  let item := [' '].intercalate spoken
  let suffix := item.dropWhile (· != '[')
  if isArraySuffix suffix then
    itemOfWords? config suffix (Text.words (item.takeWhile (· != '[')))
  else none

/-- The parameters of the text between a header's parentheses.  A blank text and a lone `void` mean
that there are none. -/
def parseParameters (config : Config) (t : Text) : List Parameter :=
  if Text.trim t = [] ∨ Text.trim t = ("void" : Text) then []
  else (Text.splitTopLevel [','] t).filterMap (parameter? config)

/-! ### Headers over several lines -/

/-- The lines from `first` on, at most `count` of them.  A stop before the first line of the text
counts back from its end. -/
def window (count : Int) (first : Nat) (ls : List Text) : List Text :=
  let stop : Int := first + count
  let stop : Int := if stop < 0 then stop + ls.length else stop
  (ls.take stop.toNat).drop first

/-- The squeezed text between the parenthesis at the given column and the one that closes it. -/
def parameterText? (config : Config) (code : List Text) (line column : Nat) : Option Text :=
  let list := (Text.ofLines (window config.maxStatementLines line code)).drop column
  (Text.closingParen? list).map fun close => Text.squeeze ((list.take close).drop 1)

/-- The signature of the header at a line of the code. -/
def ofCode? (config : Config) (code : List Text) (line : Nat) (endLine : Option Nat) :
    Option Signature := do
  let header ← Header.read? (← code[line]?)
  if header.isFunction then
    let list ← parameterText? config code line header.parenColumn
    some
      { name := header.name
        returnType := header.returnType
        parameters := parseParameters config list
        startLine := line
        endLine }
  else none

/-- The signature of the header at a line of a source, whose body ends at `endLine` if that is
known. -/
def parse? (config : Config) (lines : List Text) (line : Int) (endLine : Option Nat) :
    Option Signature :=
  if line < 0 then none else ofCode? config (Comment.strip lines) line.toNat endLine

end Signature

end ShaderProbe
