import ShaderProbe.Decimal
import ShaderProbe.Text.Quoted
import ShaderProbe.Text.Replacement

/-!
# Errors

The reasons for which a request on a shader is refused, and their wording.
-/

namespace ShaderProbe

/-- A setting that is chosen by a word. -/
inductive Choice where
  | normalization
  | parameterMode
  | qualifier

/-- The name of a setting in messages. -/
def Choice.name : Choice → Text
  | .normalization => "NormalizeMode"
  | .parameterMode => "ParameterMode"
  | .qualifier => "ParameterQualifier"

/-- Why a request is refused. -/
inductive Error where
  /-- The text from `line` on closes `excess` more braces than it opens. -/
  | unbalancedBraces (excess : Nat) (line : Nat)
  /-- Any other inconsistency that instrumentation runs into, at a line if one is known. -/
  | inconsistent (reason : Text) (line : Option Int)
  /-- A loop index or its cap is negative. -/
  | invalidCap (index cap : Int)
  /-- A word that names none of the possible settings. -/
  | unknownChoice (choice : Choice) (word : Text)
  /-- The text that is to replace a word cannot be read. -/
  | badReplacement (fault : ReplacementFault)
  /-- The request refers to a place past the end of the text. -/
  | outOfRange (index : Nat)

/-- A message with the line it is about, counted from one. -/
def Error.atLine (reason : Text) : Option Int → Text
  | none => reason
  | some line => reason ++ " at line " ++ Text.ofInt (line + 1)

/-- The wording of an error. -/
def Error.message : Error → Text
  | .unbalancedBraces excess line =>
    Error.atLine (Text.ofNat excess ++ " more closing than opening brace(s)") (some (line : Int))
  | .inconsistent reason line => Error.atLine reason line
  | .invalidCap index cap => "Invalid loop cap " ++ Text.ofInt index ++ ": " ++ Text.ofInt cap
  | .unknownChoice choice word => Text.quoted word ++ " is not a valid " ++ choice.name
  | .badReplacement fault => fault.message
  | .outOfRange index => "nothing is at index " ++ Text.ofNat index

/-- The line of the given number. -/
def lineAt (lines : List Text) (line : Nat) : Except Error Text :=
  match lines[line]? with
  | some text => .ok text
  | none => .error (.outOfRange line)

/-- A line is found exactly if its number is in range. -/
theorem lineAt_eq_ok_iff {lines : List Text} {line : Nat} {text : Text} :
    lineAt lines line = .ok text ↔ lines[line]? = some text := by
  unfold lineAt
  split <;> simp_all

end ShaderProbe
