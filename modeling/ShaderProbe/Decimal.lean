import ShaderProbe.Text.Basic

/-!
# Decimal text

Decimal digits of integers, and the fixed-point text of a double.  The latter is exact: a finite
double is a mantissa times a power of two, the quotient is rounded once to the wanted number of
places in integer arithmetic, and a tie goes to the even neighbour.  The sign is written also where
the value rounds to zero.
-/

namespace ShaderProbe

/-- Decimal digits of a natural number. -/
def Text.ofNat (n : Nat) : Text := Nat.toDigits 10 n

/-- Decimal text of an integer, with a minus sign in front of a negative one. -/
def Text.ofInt : Int → Text
  | .ofNat n => Text.ofNat n
  | .negSucc n => '-' :: Text.ofNat (n + 1)

namespace Decimal

/-- The value of a double. -/
inductive Value where
  /-- The number `mantissa * 2 ^ exponent`, negated if `negative` is set. -/
  | finite (negative : Bool) (mantissa : Nat) (exponent : Int)
  | infinite (negative : Bool)
  | notANumber

/-- The value encoded by the 64 bits of a double: one sign bit, eleven of the exponent and
fifty-two of the fraction. -/
def Value.ofBits (bits : Nat) : Value :=
  let negative : Bool := bits / Nat.pow 2 63 % 2 == 1
  let biased : Nat := bits / Nat.pow 2 52 % Nat.pow 2 11
  let fraction : Nat := bits % Nat.pow 2 52
  if biased = Nat.pow 2 11 - 1 then
    if fraction = 0 then .infinite negative else .notANumber
  else if biased = 0 then .finite negative fraction (-1074)
  else .finite negative (fraction + Nat.pow 2 52) ((biased : Int) - 1075)

/-- The integer nearest to `num / den`; a tie goes to the even one. -/
def roundDiv (num den : Nat) : Nat :=
  let quotient := num / den
  let remainder := num % den
  if 2 * remainder < den then quotient
  else if den < 2 * remainder then quotient + 1
  else quotient + quotient % 2

/-- Digits of a number, filled up with zeros on the left to the given width. -/
def padded (width n : Nat) : Text :=
  let digits := Text.ofNat n
  List.replicate (width - digits.length) '0' ++ digits

/-- Text of the number `scaled / 10 ^ places`, for at least one place. -/
def fixedText (places scaled : Nat) : Text :=
  Text.ofNat (scaled / Nat.pow 10 places) ++ '.' :: padded places (scaled % Nat.pow 10 places)

/-- The number `mantissa * 2 ^ exponent` in units of `10 ^ (-places)`, rounded. -/
def scaledTo (places mantissa : Nat) (exponent : Int) : Nat :=
  if 0 ≤ exponent then mantissa * Nat.pow 10 places * Nat.pow 2 exponent.toNat
  else roundDiv (mantissa * Nat.pow 10 places) (Nat.pow 2 (-exponent).toNat)

/-- A value written with a fixed number of places after the point. -/
def Value.toFixed (places : Nat) : Value → Text
  | .finite negative mantissa exponent =>
    (if negative then ['-'] else []) ++ fixedText places (scaledTo places mantissa exponent)
  | .infinite negative => if negative then "-inf" else "inf"
  | .notANumber => "nan"

/-- A double written with a fixed number of places after the point. -/
def fixed (places : Nat) (x : Float) : Text := (Value.ofBits x.toBits.toNat).toFixed places

end Decimal

end ShaderProbe
