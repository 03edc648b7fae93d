import ShaderProbe.Text.Basic
import ShaderProbe.Text.WordChar

/-!
# Identifiers and whole words

An identifier starts with an ASCII letter or an underscore and goes on as long as word characters
follow.  A whole word is an occurrence with no word character right before or right after it.
-/

namespace ShaderProbe

namespace Text

/-- A text whose first character is a word character. -/
def startsWord : Text → Bool
  | [] => false
  | c :: _ => isWordChar c

/-- The text is one identifier. -/
def isIdent : Text → Bool
  | [] => false
  | c :: t => isIdentStart c && t.all isWordChar

/-- The longest identifier the text starts with, and the text after it. -/
def readIdent? : Text → Option (Text × Text)
  | [] => none
  | c :: t =>
    if isIdentStart c then some (c :: t.takeWhile isWordChar, t.dropWhile isWordChar) else none

/-- What follows `w` if the text starts with it. -/
def readLiteral? : Text → Text → Option Text
  | [], t => some t
  | _ :: _, [] => none
  | a :: w, c :: t => if a = c then readLiteral? w t else none

/-- What follows `w` if the text starts with it and no word character comes next. -/
def readWord? (w t : Text) : Option Text :=
  (readLiteral? w t).filter fun rest => !startsWord rest

/-- The text before and after the first occurrence of `w` as a whole word.  The word `w` is not
empty and `inWord` says that a word character stands right before the text. -/
def splitAtWordFrom (w : Text) (inWord : Bool) : Text → Option (Text × Text)
  | [] => none
  | c :: t =>
    match if inWord then none else readWord? w (c :: t) with
    | some rest => some ([], rest)
    | none => (splitAtWordFrom w (isWordChar c) t).map fun (before, rest) => (c :: before, rest)

/-- The text before and after the first occurrence of `w` as a whole word. -/
def splitAtWord (w t : Text) : Option (Text × Text) := splitAtWordFrom w false t

/-- The word `w` occurs in the text as a whole word. -/
def hasWord (w t : Text) : Bool := (splitAtWord w t).isSome

/-- The text with its first whole word `w` replaced by `new`; unchanged if there is none. -/
def replaceWord (w new t : Text) : Text :=
  match splitAtWord w t with
  | some (before, rest) => before ++ new ++ rest
  | none => t

/-- An identifier and what follows it make up the text. -/
theorem append_of_readIdent? {t name rest : Text} (h : readIdent? t = some (name, rest)) :
    name ++ rest = t := by
  cases t with
  | nil => simp [readIdent?] at h
  | cons c t =>
    simp only [readIdent?] at h
    split at h
    · simp only [Option.some.injEq, Prod.mk.injEq] at h
      obtain ⟨rfl, rfl⟩ := h
      simp
    · simp at h

/-- A literal and what follows it make up the text. -/
theorem readLiteral?_eq_some_iff {w t rest : Text} :
    readLiteral? w t = some rest ↔ t = w ++ rest := by
  induction w generalizing t with
  | nil => simp [readLiteral?]
  | cons a w ih =>
    cases t with
    | nil => simp [readLiteral?]
    | cons c t =>
      simp only [readLiteral?]
      split
      · simp_all
      · simp only [reduceCtorEq, List.cons_append, List.cons.injEq, false_iff, not_and]
        rintro rfl
        contradiction

end Text

end ShaderProbe
