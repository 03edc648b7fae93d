import ShaderProbe.Config
import ShaderProbe.Error
import ShaderProbe.GlslType

/-!
# Parameters and the values they are fed

A synthesized call has to pass something for every parameter.  For each type there is a fixed
literal, a value swept across the screen, and the same sweep centered on the viewport.  A `vec2` is
usually a position and is swept by default; every other type gets its literal.
-/

namespace ShaderProbe

/-- Direction in which a parameter passes its value. -/
inductive Qualifier where
  | input
  | output
  | both
  deriving DecidableEq

namespace Qualifier

/-- The keyword of a qualifier. -/
def keyword : Qualifier → Text
  | input => "in"
  | output => "out"
  | both => "inout"

/-- The qualifier with the given keyword. -/
def ofKeyword? (word : Text) : Option Qualifier :=
  [input, output, both].find? fun qualifier => qualifier.keyword == word

/-- The qualifier that a request names. -/
def read (word : Text) : Except Error Qualifier :=
  match ofKeyword? word with
  | some qualifier => .ok qualifier
  | none => .error (.unknownChoice .qualifier word)

end Qualifier

/-- How a parameter is fed when a call is synthesized. -/
inductive Mode where
  /-- By a value swept across the screen. -/
  | sweep
  /-- By a fixed literal. -/
  | fixed
  deriving DecidableEq

namespace Mode

/-- The word for a mode. -/
def word : Mode → Text
  | sweep => "uv"
  | fixed => "custom"

/-- The mode that a request names. -/
def read (word : Text) : Except Error Mode :=
  match [sweep, fixed].find? fun mode => mode.word == word with
  | some mode => .ok mode
  | none => .error (.unknownChoice .parameterMode word)

end Mode

/-- The values that a parameter of one type can be fed; a value is absent where none makes sense. -/
structure Feed where
  fixed : Option Text
  uv : Option Text
  centeredUv : Option Text
  mode : Mode := .fixed
  deriving DecidableEq

namespace Feed

/-- Nothing can be fed. -/
def absent : Feed := ⟨none, none, none, .fixed⟩

/-- A literal, and one expression over both coordinate variables. -/
def swept (literal : Text) (expression : Text → Text) : Feed :=
  ⟨some literal, some (expression "uv"), some (expression "centeredUv"), .fixed⟩

/-- The values of a type.  A sampler gets the first texture, and a centered `bool` is true on the
right half of the screen. -/
def ofType (config : Config) : GlslType → Feed
  | .float => swept "0.5" fun c => c ++ ".x"
  | .vec2 => { swept "vec2(0.5)" (fun c => c) with mode := .sweep }
  | .vec3 => swept "vec3(0.5)" fun c => "vec3(" ++ c ++ ", 0.0)"
  | .vec4 => swept "vec4(0.5)" fun c => "vec4(" ++ c ++ ", 0.0, 1.0)"
  | .int => swept "1" fun c => "int(" ++ c ++ ".x * 10.0)"
  | .uint => swept "1u" fun c => "uint(" ++ c ++ ".x * 10.0)"
  | .bool =>
    { fixed := some "true"
      uv := some "uv.x > 0.5"
      centeredUv := some (config.coord ++ ".x > 0.5 * " ++ config.resolution ++ ".x") }
  | .ivec2 => swept "ivec2(1)" fun c => "ivec2(" ++ c ++ " * 10.0)"
  | .ivec3 => swept "ivec3(1)" fun c => "ivec3(" ++ c ++ " * 10.0, 0)"
  | .ivec4 => swept "ivec4(1)" fun c => "ivec4(" ++ c ++ " * 10.0, 0, 1)"
  | .uvec2 => swept "uvec2(1u)" fun c => "uvec2(" ++ c ++ " * 10.0)"
  | .uvec3 => swept "uvec3(1u)" fun c => "uvec3(" ++ c ++ " * 10.0, 0.0)"
  | .uvec4 => swept "uvec4(1u)" fun c => "uvec4(" ++ c ++ " * 10.0, 0.0, 1.0)"
  | .bvec2 => swept "bvec2(true)" fun c => "greaterThan(" ++ c ++ ", vec2(0.5))"
  | .bvec3 => swept "bvec3(true)" fun c => "bvec3(" ++ c ++ ".x > 0.5)"
  | .bvec4 => swept "bvec4(true)" fun c => "bvec4(" ++ c ++ ".x > 0.5)"
  | .mat2 => swept "mat2(1.0)" fun c => "mat2(" ++ c ++ ".x)"
  | .mat3 => swept "mat3(1.0)" fun c => "mat3(" ++ c ++ ".x)"
  | .mat4 => swept "mat4(1.0)" fun c => "mat4(" ++ c ++ ".x)"
  | .sampler2D | .sampler3D | .samplerCube => { absent with fixed := config.textures.head? }
  | .void | .unsupported => absent

end Feed

/-- A function parameter together with the values it can be fed. -/
structure Parameter where
  name : Text
  /-- The type as the signature spells it. -/
  type : Text
  qualifier : Qualifier := .input
  mode : Mode := .fixed
  /-- Value passed in fixed mode. -/
  fixed : Option Text := none
  /-- Value derived from screen coordinates. -/
  uv : Option Text := none
  /-- Value derived from centered screen coordinates. -/
  centeredUv : Option Text := none
  deriving DecidableEq

namespace Parameter

/-- A parameter with the values of its type, in the type's default mode. -/
def ofType (config : Config) (name type : Text) (qualifier : Qualifier) : Parameter :=
  let feed := Feed.ofType config (GlslType.parse type)
  { name, type, qualifier, mode := feed.mode, fixed := feed.fixed, uv := feed.uv,
    centeredUv := feed.centeredUv }

/-- A parameter that is only written; a caller has nothing to pass. -/
def isOutput (parameter : Parameter) : Bool := parameter.qualifier = .output

/-- The argument for the current mode.  Without a sweep the literal is used. -/
def value (parameter : Parameter) : Option Text :=
  match parameter.mode with
  | .sweep => parameter.uv <|> parameter.fixed
  | .fixed => parameter.fixed

end Parameter

end ShaderProbe
