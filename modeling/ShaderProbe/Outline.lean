import ShaderProbe.Signature.Basic
import ShaderProbe.Text.Flat

/-!
# Outline of a source

Where the functions of a source start and end, found by counting braces.  A header at brace depth
zero that is followed by a body is a function; a prototype, whose parameter list is followed by
anything but an opening brace, is not.  The search goes on after the end of each function found.
-/

namespace ShaderProbe

namespace Outline

/-- Offset of the brace that opens the body, for a text that starts at the parenthesis of a
header. -/
def bodyBrace? (t : Text) : Option Nat := do
  let close ← Text.closingParen? t
  let after := t.drop (close + 1)
  if (Text.trimLeft after).head? = some '{' then some (close + 1 + (Text.indent after).length)
  else none

/-- The function whose header is the line of the given number, which is the first of `rest`.  All
lines of the code are `code`. -/
def functionAt? (config : Config) (code : List Text) (line : Nat) (rest : List Text) :
    Option Signature := do
  let header ← Header.read? (← rest.head?)
  if header.isFunction then
    let flat : FlatText := { lines := rest, firstLine := line }
    let body ← bodyBrace? (flat.text.drop header.parenColumn)
    let brace := header.parenColumn + body
    let close := Text.closingBrace? (flat.text.drop brace)
    Signature.ofCode? config code line (close.map fun offset => (flat.locate (brace + offset)).line)
  else none

/-- The functions that start at the line of the given number or after it.  The brace depth there is
`depth`, and the first `skip` lines belong to a function already found. -/
def functionsFrom (config : Config) (code : List Text) (line depth skip : Nat) :
    List Text → List Signature
  | [] => []
  | l :: ls =>
    match skip with
    | k + 1 => functionsFrom config code (line + 1) depth k ls
    | 0 =>
      match if depth = 0 then functionAt? config code line (l :: ls) else none with
      | none =>
        functionsFrom config code (line + 1) ((depth : Int) + Text.braceDelta l).toNat 0 ls
      | some signature =>
        match signature.endLine with
        | none => [signature]
        | some last =>
          signature :: functionsFrom config code (line + 1) depth (last - line) ls

/-- The functions of comment-free code. -/
def functionsOfCode (config : Config) (code : List Text) : List Signature :=
  functionsFrom config code 0 0 0 code

/-- The functions of a source in order.  Only the last one may lack an end. -/
def functions (config : Config) (lines : List Text) : List Signature :=
  functionsOfCode config (Comment.strip lines)

/-- The first of the functions that reaches over a line.  The search ends at the first function
that starts after it. -/
def enclosingIn? (count : Nat) (line : Int) : List Signature → Option Signature
  | [] => none
  | f :: fs =>
    if (f.startLine : Int) ≤ line ∧ line ≤ f.lastLine count then some f
    else if line < (f.startLine : Int) then none
    else enclosingIn? count line fs

/-- The function whose header or body contains a line; at global scope there is none. -/
def enclosing? (config : Config) (lines : List Text) (line : Int) : Option Signature :=
  enclosingIn? lines.length line (functions config lines)

/-- The line belongs to the header of the function, up to the brace that opens the body. -/
def inHeader (lines : List Text) (signature : Signature) (line : Int) : Bool :=
  if line < (signature.startLine : Int) then false
  else ((Comment.strip lines).take line.toNat).drop signature.startLine |>.all fun l =>
    !l.contains '{'

end Outline

end ShaderProbe
