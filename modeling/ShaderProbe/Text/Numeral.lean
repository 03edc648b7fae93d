import ShaderProbe.Text.Name

/-!
# The numeral zero

A number may be written with the decimal digits of any script, with a sign in front, with single
underscores between its digits and with blanks around it.  Only the numerals of zero are needed
here, so this file holds the digit zero of every script and tells which texts denote zero.
-/

namespace ShaderProbe

/-- The code points of the digit zero in the scripts that have decimal digits. -/
def zeroCodes : List Nat := [
  0x30, 0x660, 0x6f0, 0x7c0, 0x966, 0x9e6, 0xa66, 0xae6, 0xb66, 0xbe6, 0xc66, 0xce6, 0xd66, 0xde6,
  0xe50, 0xed0, 0xf20, 0x1040, 0x1090, 0x17e0, 0x1810, 0x1946, 0x19d0, 0x1a80, 0x1a90, 0x1b50,
  0x1bb0, 0x1c40, 0x1c50, 0xa620, 0xa8d0, 0xa900, 0xa9d0, 0xa9f0, 0xaa50, 0xabf0, 0xff10, 0x104a0,
  0x10d30, 0x11066, 0x110f0, 0x11136, 0x111d0, 0x112f0, 0x11450, 0x114d0, 0x11650, 0x116c0,
  0x11730, 0x118e0, 0x11950, 0x11c50, 0x11d50, 0x11da0, 0x16a60, 0x16ac0, 0x16b50, 0x1d7ce,
  0x1d7d8, 0x1d7e2, 0x1d7ec, 0x1d7f6, 0x1e140, 0x1e2f0, 0x1e950, 0x1fbf0
]

/-- The digit zero of some script. -/
def isZeroDigit (c : Char) : Bool := zeroCodes.contains c.toNat

/-- A blank that may stand around a number; the separators `U+001C` to `U+001F` may not. -/
def isNumberBlank (c : Char) : Bool := isBlank c && !(0x1c ≤ c.toNat && c.toNat ≤ 0x1f)

namespace Text

/-- Zeros with single underscores between them; `afterDigit` says that a zero stands right before
the text. -/
def isZerosFrom (afterDigit : Bool) : Text → Bool
  | [] => afterDigit
  | c :: t =>
    if isZeroDigit c then isZerosFrom true t
    else c = '_' && afterDigit && isZerosFrom false t

/-- Zeros with single underscores between them, after at most one sign. -/
def isSignedZeros : Text → Bool
  | [] => false
  | c :: t => if c = '+' || c = '-' then isZerosFrom false t else isZerosFrom false (c :: t)

/-- The text denotes zero. -/
def isZero (t : Text) : Bool :=
  isSignedZeros ((t.dropWhile isNumberBlank).reverse.dropWhile isNumberBlank).reverse

end Text

end ShaderProbe
