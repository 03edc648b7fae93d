import ShaderProbe.Error
import ShaderProbe.Loop.Basic
import ShaderProbe.Text.Bracket
import ShaderProbe.Text.Comment
import ShaderProbe.Text.Word

/-!
# Finding the loops of a function

One pass over the flat code from the function's header on, counting braces and parentheses.  Loops
are numbered in the order of their keywords.  A loop with a block as its body ends at the brace that
closes the block.  A loop without one ends at the first `;` at its own brace depth, or at the brace
that closes a block nested directly in it.  The `while (...)` that ends a `do` statement is followed
by a `;` and is no loop.

The pass starts to look for loops at the first opening brace and ends where the brace depth returns
to zero, or at a loop header that never closes.
-/

namespace ShaderProbe

/-- A loop found in a flat text, by offsets. -/
structure LoopSpan where
  keyword : Nat
  parenClose : Nat
  headerText : Text
  bareBody : Bool
  brace : Option Nat := none
  bodyEnd : Option Nat := none
  deriving DecidableEq

/-- What the pass knows after some characters of the text. -/
structure LoopScan where
  /-- The loops found so far, in order. -/
  spans : List LoopSpan := []
  /-- Loops whose braces are open, innermost first, with the brace depth inside them. -/
  braced : List (Nat × Int) := []
  /-- Loops without braces that have not ended, innermost first, with the brace depth at them. -/
  braceless : List (Nat × Int) := []
  /-- The loop whose opening brace is the next character that is not blank. -/
  awaiting : Option Nat := none
  /-- The number of braces that are open. -/
  depth : Int := 0
  /-- The number of parentheses that are open. -/
  parens : Int := 0
  /-- An opening brace has been seen. -/
  started : Bool := false

/-- How the pass goes on after a character. -/
inductive LoopStep where
  /-- The pass ends. -/
  | halt (scan : LoopScan)
  /-- The pass goes on after the next `skip` characters. -/
  | resume (scan : LoopScan) (skip : Nat)

namespace LoopSpan

/-- The keywords that a loop starts with. -/
def keywords : List Text := ["for", "while"]

/-- Offset of the parenthesis that follows a loop keyword, for a text that starts with one. -/
def headerParen? (t : Text) : Option Nat :=
  keywords.findSome? fun keyword => do
    let rest ← Text.readLiteral? keyword t
    if (Text.trimLeft rest).head? = some '(' then
      some (keyword.length + (Text.indent rest).length)
    else none

/-- The text, given in reverse, ends with one of the words, and neither a word character nor a point
stands right before it. -/
def endsWithWord (words : List Text) (reversed : Text) : Bool :=
  words.any fun word =>
    match Text.readLiteral? word.reverse reversed with
    | none => false
    | some [] => true
    | some (c :: _) => !isWordChar c && c != '.'

/-- A statement that follows the text, given in reverse, is the whole body of an `if (...)`,
`for (...)`, `while (...)`, `else` or `do`. -/
def isBareBody (reversed : Text) : Bool :=
  let before := Text.trimLeft reversed
  if before.head? = some ')' then
    match Text.closingFrom ')' '(' 0 before with
    | none => false
    | some offset =>
      endsWithWord ["if", "for", "while"] (Text.trimLeft (before.drop (offset + 1)))
  else endsWithWord ["else", "do"] before

/-- A statement at the given offset of a text is the whole unbraced body of the statement before
it. -/
def isBareBodyAt (t : Text) (offset : Nat) : Except Error Bool :=
  if offset ≤ t.length then .ok (isBareBody (t.take offset).reverse)
  else .error (.outOfRange offset)

end LoopSpan

namespace LoopScan

/-- The body of the loop of the given index ends at an offset. -/
def endBody (scan : LoopScan) (index offset : Nat) : LoopScan :=
  { scan with spans := scan.spans.modify index fun span => { span with bodyEnd := some offset } }

/-- The innermost loops without braces that stand at the current depth end at an offset. -/
def endBraceless (scan : LoopScan) (offset : Nat) : LoopScan :=
  let ended := scan.braceless.takeWhile fun entry => entry.2 = scan.depth
  let scan := { scan with braceless := scan.braceless.dropWhile fun entry => entry.2 = scan.depth }
  ended.foldl (fun scan entry => scan.endBody entry.1 offset) scan

/-- An opening brace at an offset. -/
def openBrace (scan : LoopScan) (offset : Nat) : LoopScan :=
  let scan := { scan with depth := scan.depth + 1, started := true }
  match scan.awaiting with
  | none => scan
  | some index =>
    { scan with
      spans := scan.spans.modify index fun span => { span with brace := some offset }
      braced := (index, scan.depth) :: scan.braced
      awaiting := none }

/-- A closing brace at an offset: the block may be the body of a loop, and loops without braces
around it end with it. -/
def closeBrace (scan : LoopScan) (offset : Nat) : LoopScan :=
  let scan :=
    match scan.braced with
    | [] => scan
    | (index, inside) :: outer =>
      if inside = scan.depth then { scan with braced := outer }.endBody index offset else scan
  { scan with depth := scan.depth - 1 }.endBraceless offset

/-- A loop header, from its keyword at `offset` to the parenthesis `length` characters later.  The
first character after it that is not blank is `next`. -/
def addLoop (scan : LoopScan) (offset length : Nat) (headerText : Text) (bareBody : Bool)
    (next : Option Char) : LoopScan :=
  let index := scan.spans.length
  let span : LoopSpan := { keyword := offset, parenClose := offset + length, headerText, bareBody }
  let scan := { scan with spans := scan.spans ++ [span] }
  if next = some '{' then { scan with awaiting := some index }
  else { scan with braceless := (index, scan.depth) :: scan.braceless }

/-- A place where a loop may start: the text from `offset` on is `t`, and the text before it is
given in reverse. -/
def tryLoop (scan : LoopScan) (before : Text) (offset : Nat) (t : Text) : LoopStep :=
  match LoopSpan.headerParen? t with
  | none => .resume scan 0
  | some paren =>
    match Text.closingParen? (t.drop paren) with
    | none => .halt scan
    | some close =>
      let length := paren + close
      let next := (Text.trimLeft (t.drop (length + 1))).head?
      if next = some ';' then .resume scan length
      else
        .resume (scan.addLoop offset length (Text.squeeze (t.take (length + 1)))
          (LoopSpan.isBareBody before) next) length

/-- One character of the text, at `offset`, between the text before it, given in reverse, and the
text after it. -/
def step (scan : LoopScan) (before : Text) (offset : Nat) (c : Char) (rest : Text) : LoopStep :=
  if c = '{' then .resume (scan.openBrace offset) 0
  else if c = '}' then
    let scan := scan.closeBrace offset
    if scan.started ∧ scan.depth ≤ 0 then .halt scan else .resume scan 0
  else if c = '(' then .resume { scan with parens := scan.parens + 1 } 0
  else if c = ')' then .resume { scan with parens := scan.parens - 1 } 0
  else if c = ';' ∧ scan.parens = 0 then .resume (scan.endBraceless offset) 0
  else if scan.started ∧ scan.parens = 0 ∧ !Text.startsWord before then
    scan.tryLoop before offset (c :: rest)
  else .resume scan 0

/-- The pass over the text from `offset` on.  The text before it is given in reverse, and the first
`skip` characters belong to a loop header already read. -/
def run (scan : LoopScan) (before : Text) (offset skip : Nat) : Text → LoopScan
  | [] => scan
  | c :: rest =>
    match skip with
    | k + 1 => scan.run (c :: before) (offset + 1) k rest
    | 0 =>
      match scan.step before offset c rest with
      | .halt scan => scan
      | .resume scan skip => scan.run (c :: before) (offset + 1) skip rest

end LoopScan

namespace Loop

/-- The loops of a flat code text, by offsets. -/
def spans (t : Text) : List LoopSpan := ({} : LoopScan).run [] 0 0 t |>.spans

/-- A loop by positions. -/
def ofSpan (flat : FlatText) (span : LoopSpan) (index : Nat) : Loop :=
  { headerLine := (flat.locate span.keyword).line
    headerText := span.headerText
    index
    endLine := span.bodyEnd.map fun offset => (flat.locate offset).line
    parenClose := some (flat.locate span.parenClose)
    brace := span.brace.map flat.locate
    bodyEnd := span.bodyEnd.map flat.locate
    keyword := some (flat.locate span.keyword)
    bareBody := span.bareBody }

/-- The loops of the function that starts at a line of comment-free code. -/
def findInCode (code : List Text) (start : Nat) : List Loop :=
  let flat : FlatText := { lines := code.drop start, firstLine := start }
  (spans flat.text).mapIdx fun index span => ofSpan flat span index

/-- The loops of the function that starts at a line of a source. -/
def find (lines : List Text) (start : Nat) : List Loop := findInCode (Comment.strip lines) start

/-- The loops of a function whose bodies contain a line or place, outermost first. -/
def enclosing (lines : List Text) (start : Nat) (line : Int) (column : Option Int) : List Loop :=
  (find lines start).filter fun loop => loop.contains line column

end Loop

end ShaderProbe
