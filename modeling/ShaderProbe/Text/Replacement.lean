import ShaderProbe.Text.Numeral

/-!
# Replacement texts

A replacement text says what is put in the place of a word, and it may use escapes.  A backslash in
front of a letter or an octal number stands for a character, `\g<0>` for the replaced word, and a
doubled backslash for a single one; in front of anything that is no letter or digit the backslash
stands for itself.  A word has no numbered or named parts, so a reference to one is refused, and so
is a letter that stands for nothing.

The main statement is `expand_of_plain`: a text without a backslash stands for itself.
-/

namespace ShaderProbe

/-- Why a replacement text is refused. -/
inductive ReplacementFault where
  /-- An escape that stands for nothing. -/
  | badEscape
  /-- A reference to a named part. -/
  | unknownPart (name : Text)

/-- The wording of a fault. -/
def ReplacementFault.message : ReplacementFault → Text
  | .badEscape => "bad escape in a replacement text"
  | .unknownPart name => "unknown part " ++ name ++ " in a replacement text"

namespace Replacement

/-- The character that a letter or a backslash stands for after a backslash. -/
def escaped? : Char → Option Char
  | 'a' => some '\x07'
  | 'b' => some '\x08'
  | 'f' => some '\x0c'
  | 'n' => some '\n'
  | 'r' => some '\r'
  | 't' => some '\t'
  | 'v' => some '\x0b'
  | '\\' => some '\\'
  | _ => none

/-- A digit of an octal number. -/
def isOctalDigit (c : Char) : Bool := c.isDigit && c.toNat < '8'.toNat

/-- The number with the given octal digits. -/
def octalValue (digits : Text) : Nat :=
  digits.foldl (fun n digit => 8 * n + (digit.toNat - '0'.toNat)) 0

/-- What an octal number of one to three digits stands for, and its length. -/
def octalEscape (digits : Text) : Except ReplacementFault (Text × Nat) :=
  if octalValue digits < 0x100 then .ok ([Char.ofNat (octalValue digits)], digits.length)
  else .error .badEscape

/-- What a reference that starts after `\g` stands for, and its length.  A numeral of zero between
angle brackets is the whole word. -/
def reference (word : Text) : Text → Except ReplacementFault (Text × Nat)
  | '<' :: t =>
    let name := t.takeWhile (· ≠ '>')
    if name.length = t.length then .error .badEscape
    else if Text.isName name then .error (.unknownPart name)
    else if Text.isZero name then .ok (word, name.length + 2)
    else .error .badEscape
  | _ => .error .badEscape

/-- What the escape after a backslash stands for, and how many characters it takes. -/
def escape (word : Text) : Text → Except ReplacementFault (Text × Nat)
  | [] => .error .badEscape
  | c :: t =>
    match escaped? c with
    | some d => .ok ([d], 1)
    | none =>
      if c = 'g' then (reference word t).map fun (text, length) => (text, length + 1)
      else if c = '0' then octalEscape (c :: (t.take 2).takeWhile isOctalDigit)
      else if c.isDigit then
        let digits := (c :: t).take 3
        if digits.length = 3 && digits.all isOctalDigit then octalEscape digits
        else .error .badEscape
      else if c.isAlpha then .error .badEscape
      else .ok (['\\', c], 1)

/-- The text that a replacement text stands for in the place of a word; the first `skip` characters
belong to an escape that has been read. -/
def expandFrom (word : Text) (skip : Nat) : Text → Except ReplacementFault Text
  | [] => .ok []
  | c :: t =>
    match skip with
    | k + 1 => expandFrom word k t
    | 0 =>
      if c = '\\' then do
        let (text, length) ← escape word t
        return text ++ (← expandFrom word length t)
      else return c :: (← expandFrom word 0 t)

/-- The text that a replacement text stands for in the place of a word. -/
def expand (word t : Text) : Except ReplacementFault Text := expandFrom word 0 t

/-- A text without a backslash stands for itself. -/
theorem expand_of_plain {word t : Text} (h : '\\' ∉ t) : expand word t = .ok t := by
  unfold expand
  induction t with
  | nil => rfl
  | cons c t ih =>
    have hc : c ≠ '\\' := fun hc => h (by simp [hc])
    have ht := ih fun hm => h (List.mem_cons_of_mem _ hm)
    simp only [expandFrom, hc, if_false, ht]
    rfl

end Replacement

end ShaderProbe
