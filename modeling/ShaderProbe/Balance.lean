import ShaderProbe.Error
import ShaderProbe.Text.Bracket
import ShaderProbe.Text.Comment

/-!
# Closing open blocks

A truncated function is completed by one closing brace per line for every block that is still open.
Braces are only ever added; a text that closes more than it opens is an error.
-/

namespace ShaderProbe

namespace Balance

/-- The number of blocks that the code of the lines opens from `start` on, minus the number it
closes. -/
def openBlocks (lines : List Text) (start : Nat) : Int :=
  Text.bracesOf ((Comment.strip lines).drop start)

/-- The lines followed by one line with a closing brace for every block still open after `start`. -/
def close (lines : List Text) (start : Nat) : Except Error (List Text) :=
  let depth := openBlocks lines start
  if depth < 0 then .error (.unbalancedBraces depth.natAbs start)
  else .ok (lines ++ List.replicate depth.toNat ['}'])

end Balance

end ShaderProbe
