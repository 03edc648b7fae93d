import ShaderProbe.Config
import ShaderProbe.Decimal
import ShaderProbe.Error
import ShaderProbe.GlslType

/-!
# From values to colors

How a typed value becomes an output color.  A `float` is shown as gray, a `vec2` in red and green, a
`vec3` as it is, a `vec4` directly, a matrix by its first column; every other type by flat magenta,
which marks that there is no color for it.

Values outside of zero to one can be normalized: the soft way maps zero to gray and keeps the sign
visible, the absolute way maps zero to black and shows the magnitude.  A step edge finally turns the
color into black and white.
-/

namespace ShaderProbe

/-- How values outside of zero to one are mapped. -/
inductive Normalization where
  | off
  | soft
  | magnitude
  deriving DecidableEq

namespace Normalization

/-- The word for a normalization. -/
def word : Normalization → Text
  | off => "off"
  | soft => "soft"
  | magnitude => "abs"

/-- The normalization that a request names. -/
def read (word : Text) : Except Error Normalization :=
  match [off, soft, magnitude].find? fun mode => mode.word == word with
  | some mode => .ok mode
  | none => .error (.unknownChoice .normalization word)

/-- The normalized expression of a value with `width` components. -/
def apply (mode : Normalization) (width : Nat) (value : Text) : Text :=
  let one : Text := if width = 1 then "1.0" else "vec" ++ Text.ofNat width ++ "(1.0)"
  match mode with
  | off => value
  | soft => "(" ++ value ++ " / (abs(" ++ value ++ ") + " ++ one ++ ") * 0.5 + 0.5)"
  | magnitude => "(abs(" ++ value ++ ") / (abs(" ++ value ++ ") + " ++ one ++ "))"

end Normalization

/-- What happens to a color after the value has been written. -/
structure ColorOptions where
  normalization : Normalization := .off
  /-- Threshold below which a component becomes zero, and one otherwise. -/
  stepEdge : Option Float := none

/-- The options leave every color as it is. -/
def ColorOptions.isIdentity (options : ColorOptions) : Bool :=
  options.normalization = .off && options.stepEdge.isNone

/-- How the values of one type are written to the color output. -/
structure ColorRule where
  /-- Statement with places for the output and for the value. -/
  template : Text
  /-- What a comment says about the statement. -/
  comment : Text
  /-- The type has a color. -/
  known : Bool := true
  /-- The number of components that can be normalized. -/
  components : Nat := 0

namespace ColorRule

/-- The rule of a type. -/
def ofType : GlslType → ColorRule
  | .float =>
    { template := "\x7bout\x7d = vec4(vec3(\x7bv\x7d), 1.0);"
      comment := "visualize float as grayscale"
      components := 1 }
  | .vec2 =>
    { template := "\x7bout\x7d = vec4(\x7bv\x7d, 0.0, 1.0);"
      comment := "visualize vec2 (RG channels)"
      components := 2 }
  | .vec3 =>
    { template := "\x7bout\x7d = vec4(\x7bv\x7d, 1.0);"
      comment := "visualize vec3 as RGB"
      components := 3 }
  | .vec4 =>
    { template := "\x7bout\x7d = \x7bv\x7d;"
      comment := "visualize vec4 directly"
      components := 4 }
  | .mat2 =>
    { template := "\x7bout\x7d = vec4(\x7bv\x7d[0], 0.0, 1.0);"
      comment := "visualize mat2 first column" }
  | .mat3 =>
    { template := "\x7bout\x7d = vec4(\x7bv\x7d[0], 1.0);"
      comment := "visualize mat3 first column" }
  | .mat4 =>
    { template := "\x7bout\x7d = vec4(\x7bv\x7d[0].xyz, 1.0);"
      comment := "visualize mat4 first column" }
  | _ =>
    { template := "\x7bout\x7d = vec4(1.0, 0.0, 1.0, 1.0);"
      comment := "unknown type"
      known := false }

/-- The template of a normalized value with the given number of components; the alpha of a value
with four is dropped. -/
def normalizedTemplate? (mode : Normalization) (value : Text) : Nat → Option Text
  | 1 => some ("\x7bout\x7d = vec4(vec3(" ++ mode.apply 1 value ++ "), 1.0);")
  | 2 => some ("\x7bout\x7d = vec4(" ++ mode.apply 2 value ++ ", 0.0, 1.0);")
  | 3 => some ("\x7bout\x7d = vec4(" ++ mode.apply 3 value ++ ", 1.0);")
  | 4 => some ("\x7bout\x7d = vec4(" ++ mode.apply 3 (value ++ ".rgb") ++ ", 1.0);")
  | _ => none

end ColorRule

namespace Visualization

/-- The template with the output and the value at their places; a doubled brace stands for one. -/
def expand (output value : Text) : Text → Text
  | [] => []
  | '{' :: '{' :: t => '{' :: expand output value t
  | '}' :: '}' :: t => '}' :: expand output value t
  | '{' :: 'v' :: '}' :: t => value ++ expand output value t
  | '{' :: 'o' :: 'u' :: 't' :: '}' :: t => output ++ expand output value t
  | c :: t => c :: expand output value t

/-- Statement that thresholds the color output. -/
def stepStatement (output : Text) (edge : Float) : Text :=
  output ++ " = vec4(step(vec3(" ++ Decimal.fixed 4 edge ++ "), " ++ output ++ ".rgb), 1.0);"

/-- Template and comment for a value of a type.  A normalized value is written into the template, so
that placeholders in its name are filled in as well. -/
def templateFor (options : ColorOptions) (type value : Text) : Text × Text :=
  let rule := ColorRule.ofType (GlslType.parse type)
  let mode := options.normalization
  match if mode = .off then none else ColorRule.normalizedTemplate? mode value rule.components with
  | some template => (template, mode.word ++ " normalized " ++ type)
  | none => (rule.template, rule.comment)

/-- The statements that write a value of a type to the color output. -/
def statements (options : ColorOptions) (output type value : Text) : List Text :=
  let (template, comment) := templateFor options type value
  let threshold (edge : Float) : Text := stepStatement output edge ++ " // Debug: step threshold"
  (expand output value template ++ " // Debug: " ++ comment) ::
    (options.stepEdge.map threshold).toList

/-- The statements that apply options to a color that has already been written. -/
def postStatements (options : ColorOptions) (output : Text) : List Text :=
  let color := output ++ ".rgb"
  let normalized : List Text :=
    match options.normalization with
    | .off => []
    | .soft => [color ++ " = " ++ color ++ " / (abs(" ++ color ++ ") + vec3(1.0)) * 0.5 + 0.5;"]
    | .magnitude => [color ++ " = abs(" ++ color ++ ") / (abs(" ++ color ++ ") + vec3(1.0));"]
  normalized ++ (options.stepEdge.map (stepStatement output)).toList

/-- The indented statements that write a value to an output; an empty output means the configured
one. -/
def indented (config : Config) (options : ColorOptions) (output type value : Text) : List Text :=
  let output := if output.isEmpty then config.output else output
  (statements options output type value).map (config.indent ++ ·)

end Visualization

end ShaderProbe
