import ShaderProbe.Text.Basic
import ShaderProbe.Text.Printable

/-!
# Quoted text

A text as a message quotes it.  It stands between single quotes, or between double quotes if it
holds a single quote and no double one.  The quote, the backslash and every character that would not
be seen are escaped, so that the message stays on one line and the text can be read off it.
-/

namespace ShaderProbe

namespace Text

/-- The last `width` hexadecimal digits of a number, the most significant one first. -/
def hexDigits : Nat → Nat → Text
  | 0, _ => []
  | width + 1, n => hexDigits width (n / 16) ++ [Nat.digitChar (n % 16)]

/-- A character written by its code point, with as many digits as codes of its size take. -/
def escapedCode (c : Char) : Text :=
  let n := c.toNat
  if n < 0x100 then "\\x" ++ hexDigits 2 n
  else if n < 0x10000 then "\\u" ++ hexDigits 4 n
  else "\\U" ++ hexDigits 8 n

/-- A character as it is written inside the given quotes. -/
def quotedChar (quote c : Char) : Text :=
  if c = quote ∨ c = '\\' then ['\\', c]
  else if c = '\t' then "\\t"
  else if c = '\n' then "\\n"
  else if c = '\r' then "\\r"
  else if isPrintable c then [c]
  else escapedCode c

/-- The quote to put around a text: the single one, unless the text holds it and no double one. -/
def quoteFor (t : Text) : Char := if '\x27' ∈ t ∧ '"' ∉ t then '"' else '\x27'

/-- The text between quotes. -/
def quoted (t : Text) : Text := quoteFor t :: t.flatMap (quotedChar (quoteFor t)) ++ [quoteFor t]

end Text

end ShaderProbe
