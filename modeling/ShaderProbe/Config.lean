import ShaderProbe.Text.Basic

/-!
# Configuration

The names that instrumentation reads from a shader and writes into it: the per-pixel entry point,
its inputs and output, and the identifiers reserved for synthesized variables.
-/

namespace ShaderProbe

/-- The names and limits that all parts of the library share. -/
structure Config where
  /-- Name of the per-pixel entry function. -/
  entryPoint : Text := "mainImage"
  /-- Color output that a synthesized entry point writes. -/
  output : Text := "fragColor"
  /-- Pixel coordinate input of the entry point. -/
  coord : Text := "fragCoord"
  /-- Viewport resolution uniform. -/
  resolution : Text := "iResolution"
  /-- Bound textures; the first one is fed to samplers. -/
  textures : List Text := ["iChannel0", "iChannel1", "iChannel2", "iChannel3"]
  /-- Variable that carries a value out of loops. -/
  shadow : Text := "_dbgShadow"
  /-- Stem of the loop counters, followed by the loop's index. -/
  counterStem : Text := "_dbgIter"
  /-- Variable that captures a returned expression. -/
  captured : Text := "_dbgReturn"
  /-- Stem of the name of a truncated function copy. -/
  copyStem : Text := "_dbg_"
  /-- Stem of the locals passed to parameters that need storage. -/
  storageStem : Text := "_dbgOut"
  /-- Variable that holds the result of a synthesized call. -/
  result : Text := "result"
  /-- Indentation of synthesized statements. -/
  indent : Text := "  "
  /-- How many lines a statement may span. -/
  maxStatementLines : Int := 64

namespace Config

/-- Header line of a synthesized entry point. -/
def entryHeader (config : Config) : Text :=
  "void " ++ config.entryPoint ++ "(out vec4 " ++ config.output ++ ", in vec2 " ++
    config.coord ++ ") \x7b"

/-- Statement that declares screen coordinates between zero and one. -/
def uvSetup (config : Config) : Text :=
  "vec2 uv = " ++ config.coord ++ " / " ++ config.resolution ++ ".xy;"

/-- Statement that declares coordinates centered on the viewport, with square pixels. -/
def centeredUvSetup (config : Config) : Text :=
  "vec2 centeredUv = (2.0 * " ++ config.coord ++ " - " ++ config.resolution ++ ".xy) / " ++
    config.resolution ++ ".y;"

end Config

end ShaderProbe
