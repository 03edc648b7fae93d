import ShaderProbe.Text.Basic

/-!
# Shader types

The types that instrumentation knows.  Every other spelling (structs, arrays, image types) reads as
the explicit case `unsupported`.
-/

namespace ShaderProbe

/-- A known type of the shading language, or the case of any other. -/
inductive GlslType where
  | float | int | uint | bool
  | vec2 | vec3 | vec4
  | ivec2 | ivec3 | ivec4
  | uvec2 | uvec3 | uvec4
  | bvec2 | bvec3 | bvec4
  | mat2 | mat3 | mat4
  | sampler2D | sampler3D | samplerCube
  | void
  | unsupported
  deriving DecidableEq

namespace GlslType

/-- All cases. -/
def all : List GlslType := [
  float, int, uint, bool, vec2, vec3, vec4, ivec2, ivec3, ivec4, uvec2, uvec3, uvec4,
  bvec2, bvec3, bvec4, mat2, mat3, mat4, sampler2D, sampler3D, samplerCube, void, unsupported
]

/-- The keyword of a type; the unsupported case has a spelling that no source uses. -/
def keyword : GlslType → Text
  | float => "float" | int => "int" | uint => "uint" | bool => "bool"
  | vec2 => "vec2" | vec3 => "vec3" | vec4 => "vec4"
  | ivec2 => "ivec2" | ivec3 => "ivec3" | ivec4 => "ivec4"
  | uvec2 => "uvec2" | uvec3 => "uvec3" | uvec4 => "uvec4"
  | bvec2 => "bvec2" | bvec3 => "bvec3" | bvec4 => "bvec4"
  | mat2 => "mat2" | mat3 => "mat3" | mat4 => "mat4"
  | sampler2D => "sampler2D" | sampler3D => "sampler3D" | samplerCube => "samplerCube"
  | void => "void"
  | unsupported => "<unsupported>"

/-- The precision qualifiers. -/
def precisions : List Text := ["highp", "mediump", "lowp"]

/-- The type with the given keyword. -/
def ofKeyword? (word : Text) : Option GlslType := all.find? fun type => type.keyword == word

/-- The type a name spells.  Precision qualifiers followed by a space are passed over wherever they
stand, and blanks at both ends do not count. -/
def parse (name : Text) : GlslType :=
  let bare := precisions.foldl (fun t word => Text.eraseAll (word ++ [' ']) t) (Text.trim name)
  (ofKeyword? (Text.trim bare)).getD unsupported

/-- A texture sampler. -/
def isSampler : GlslType → Bool
  | sampler2D | sampler3D | samplerCube => true
  | _ => false

/-- A type that a variable can be declared with. -/
def isVariableType : GlslType → Bool
  | void | unsupported => false
  | _ => true

/-- The keywords that a variable declaration may start with. -/
def variableKeywords : List Text := (all.filter isVariableType).map keyword

/-- Every type is listed. -/
theorem mem_all (type : GlslType) : type ∈ all := by cases type <;> decide

/-- A type is found by its keyword. -/
theorem ofKeyword?_keyword (type : GlslType) : ofKeyword? type.keyword = some type := by
  cases type <;> decide

end GlslType

end ShaderProbe
