/-!
# Blank characters

The characters that separate the words of a shader text.  They are the control characters that move
the cursor, the separators `U+001C` to `U+001F`, and the space separators of Unicode together with
the line and paragraph separators.  The zero-width space `U+200B` and the byte-order mark `U+FEFF`
are ordinary characters.
-/

namespace ShaderProbe

/-- The code points of the blank characters, in increasing order. -/
def blankCodes : List Nat := [
  0x9, 0xa, 0xb, 0xc, 0xd, 0x1c, 0x1d, 0x1e, 0x1f, 0x20, 0x85, 0xa0, 0x1680, 0x2000, 0x2001,
  0x2002, 0x2003, 0x2004, 0x2005, 0x2006, 0x2007, 0x2008, 0x2009, 0x200a, 0x2028, 0x2029, 0x202f,
  0x205f, 0x3000
]

/-- A blank separates words and is trimmed from the ends of a text. -/
def isBlank (c : Char) : Bool := blankCodes.contains c.toNat

/-- A character is blank exactly if its code point is listed. -/
theorem isBlank_iff {c : Char} : isBlank c = true ↔ c.toNat ∈ blankCodes := by
  simp [isBlank]

/-- The space, the tab, the line feed and the carriage return are blanks. -/
theorem isBlank_of_isWhitespace {c : Char} (h : c.isWhitespace = true) : isBlank c = true := by
  simp only [Char.isWhitespace, Bool.or_eq_true, decide_eq_true_eq] at h
  rcases h with ((rfl | rfl) | rfl) | rfl <;> decide

end ShaderProbe
