import Mathlib
import ShaderProbe.Loop.Scan

/-!
# Statements and their layout

The pass over a function never builds a tree.  This file gives the trees it is measured against: the
statements of a function body, together with the blanks that lie between their tokens.

A phrase is a statement or a sequence of statements.  The bodies of loops are taken from a smaller
class of statements, in which no `else` and no `do` stands outside braces: those are the statements
that end with their first `;` or with the brace that closes their first block.

`Phrase.render` is the text of a phrase.  `Phrase.spans` lists its loops in the order of their
keywords, with the offsets that the tree gives them, and `Phrase.sites` lists its expression
statements with the loops around each of them.
-/

namespace ShaderProbe

namespace Text

/-- The parentheses of a text match: none is closed before it is opened, and none stays open. -/
def isBalanced (t : Text) : Bool :=
  t.count '(' == t.count ')' && t.inits.all fun front => front.count ')' ≤ front.count '('

/-- None of the listed characters occurs in the text. -/
def isFreeOf (listed t : Text) : Bool := t.all fun c => !listed.contains c

end Text

/-! ### The pieces between tokens -/

/-- The blanks between two tokens. -/
structure Gap where
  text : Text
  isBlankOnly : Text.isBlankOnly text = true

/-- What stands between the parentheses of a header or of a parameter list. -/
structure Group where
  text : Text
  isBalanced : Text.isBalanced text = true
  isFreeOfBraces : Text.isFreeOf ['{', '}'] text = true

/-- A statement that is no control statement, without its `;`.  Blanks at its ends belong to it. -/
structure Expression where
  text : Text
  isNotBlank : Text.isBlankOnly text = false
  isBalanced : Text.isBalanced text = true
  isFreeOfEnds : Text.isFreeOf [';', '{', '}'] text = true
  isFreeOfLoops : (LoopSpan.keywords.all fun keyword => !Text.hasWord keyword text) = true

/-- The keyword of a loop. -/
inductive LoopKeyword where
  | forLoop
  | whileLoop

/-- The word that a loop starts with. -/
def LoopKeyword.text : LoopKeyword → Text
  | .forLoop => "for"
  | .whileLoop => "while"

/-! ### Phrases -/

/-- The kinds of phrases. -/
inductive PhraseKind where
  /-- One statement.  The flag says that it can be the body of a loop. -/
  | statement (isBody : Bool)
  /-- Any number of statements, one after another. -/
  | sequence

/-- A statement or a sequence of statements, with the blanks in front of the tokens. -/
inductive Phrase : PhraseKind → Type where
  /-- `E;` -/
  | expression {b : Bool} (e : Expression) : Phrase (.statement b)
  /-- `{ S* }` -/
  | block {b : Bool} (gap : Gap) (body : Phrase .sequence) (close : Gap) : Phrase (.statement b)
  /-- `if (C) S` -/
  | ifThen {b : Bool} (gap paren : Gap) (condition : Group) (body : Phrase (.statement b)) :
      Phrase (.statement b)
  /-- `if (C) S else S` -/
  | ifElse (gap paren : Gap) (condition : Group) (yes : Phrase (.statement false))
      (otherwise : Gap) (no : Phrase (.statement false)) : Phrase (.statement false)
  /-- `for (H) B` and `while (H) B` -/
  | loop {b : Bool} (gap : Gap) (keyword : LoopKeyword) (paren : Gap) (header : Group)
      (body : Phrase (.statement true)) : Phrase (.statement b)
  /-- `do S while (C);` -/
  | doWhile (gap : Gap) (body : Phrase (.statement false)) (tail paren : Gap) (condition : Group)
      (close : Gap) : Phrase (.statement false)
  /-- No statement. -/
  | nil : Phrase .sequence
  /-- A statement and the statements after it. -/
  | cons (first : Phrase (.statement false)) (rest : Phrase .sequence) : Phrase .sequence

namespace Phrase

/-- A keyword and the group in parentheses that follows it. -/
def header (word : Text) (paren : Gap) (group : Group) : Text :=
  word ++ paren.text ++ '(' :: (group.text ++ [')'])

/-- The text of a phrase. -/
def render {kind : PhraseKind} : Phrase kind → Text
  | expression e => e.text ++ [';']
  | block gap body close => gap.text ++ '{' :: (body.render ++ close.text ++ ['}'])
  | ifThen gap paren condition body => gap.text ++ header "if" paren condition ++ body.render
  | ifElse gap paren condition yes otherwise no =>
    gap.text ++ header "if" paren condition ++ yes.render ++ otherwise.text ++ "else" ++ no.render
  | loop gap keyword paren group body =>
    gap.text ++ header keyword.text paren group ++ body.render
  | doWhile gap body tail paren condition close =>
    gap.text ++ "do" ++ body.render ++ tail.text ++ header "while" paren condition ++ close.text ++
      [';']
  | nil => []
  | cons first rest => first.render ++ rest.render

/-- The words `else` and `do` do not run into the word after them. -/
def isSeparated {kind : PhraseKind} : Phrase kind → Bool
  | expression _ => true
  | block _ body _ => body.isSeparated
  | ifThen _ _ _ body => body.isSeparated
  | ifElse _ _ _ yes _ no => yes.isSeparated && no.isSeparated && !Text.startsWord no.render
  | loop _ _ _ _ body => body.isSeparated
  | doWhile _ body _ _ _ _ => body.isSeparated && !Text.startsWord body.render
  | nil => true
  | cons first rest => first.isSeparated && rest.isSeparated

/-- Offset of the brace that a statement starts with, for a statement at offset `start`. -/
def brace? {kind : PhraseKind} (start : Nat) : Phrase kind → Option Nat
  | block gap _ _ => some (start + gap.text.length)
  | _ => none

/-- The loops of a phrase at offset `start`, in the order of their keywords.  The flag `bare` says
that the phrase is the unbraced body of the statement before it. -/
def spans {kind : PhraseKind} (start : Nat) (bare : Bool) : Phrase kind → List LoopSpan
  | expression _ => []
  | block gap body _ => body.spans (start + gap.text.length + 1) false
  | ifThen gap paren condition body =>
    body.spans (start + (gap.text ++ header "if" paren condition).length) true
  | ifElse gap paren condition yes otherwise no =>
    let first := start + (gap.text ++ header "if" paren condition).length
    let second := first + (yes.render ++ otherwise.text ++ "else").length
    yes.spans first true ++ no.spans second true
  | loop gap keyword paren group body =>
    let inside := start + (gap.text ++ header keyword.text paren group).length
    { keyword := start + gap.text.length
      parenClose := inside - 1
      headerText := Text.squeeze (header keyword.text paren group)
      bareBody := bare
      brace := body.brace? inside
      bodyEnd := some (inside + body.render.length - 1) } :: body.spans inside true
  | doWhile gap body _ _ _ _ => body.spans (start + gap.text.length + 2) true
  | nil => []
  | cons first rest =>
    first.spans start false ++ rest.spans (start + first.render.length) false

/-- The expression statements of a phrase at offset `start`: the offset of the `;` of each, and the
numbers of the loops around it, outermost first.  The loops `around` the whole phrase are given, and
`count` loops start before it. -/
def sites {kind : PhraseKind} (start count : Nat) (around : List Nat) :
    Phrase kind → List (Nat × List Nat)
  | expression e => [(start + e.text.length, around)]
  | block gap body _ => body.sites (start + gap.text.length + 1) count around
  | ifThen gap paren condition body =>
    body.sites (start + (gap.text ++ header "if" paren condition).length) count around
  | ifElse gap paren condition yes otherwise no =>
    let first := start + (gap.text ++ header "if" paren condition).length
    let second := first + (yes.render ++ otherwise.text ++ "else").length
    yes.sites first count around ++
      no.sites second (count + (yes.spans first true).length) around
  | loop gap keyword paren group body =>
    let inside := start + (gap.text ++ header keyword.text paren group).length
    body.sites inside (count + 1) (around ++ [count])
  | doWhile gap body _ _ _ _ => body.sites (start + gap.text.length + 2) count around
  | nil => []
  | cons first rest =>
    first.sites start count around ++
      rest.sites (start + first.render.length) (count + (first.spans start false).length) around

end Phrase

/-! ### Functions -/

/-- A function: what stands in front of the parameter list, the parameter list and the body. -/
structure FunctionText where
  /-- Indentation, qualifiers, return type and name. -/
  head : Text
  isFreeOfEnds : Text.isFreeOf ['(', ')', '{', '}', ';'] head = true
  parameters : Group
  gap : Gap
  body : Phrase .sequence
  close : Gap

namespace FunctionText

/-- The text up to and including the brace that opens the body. -/
def opening (f : FunctionText) : Text :=
  f.head ++ '(' :: (f.parameters.text ++ ')' :: (f.gap.text ++ ['{']))

/-- The text of a function. -/
def render (f : FunctionText) : Text :=
  f.opening ++ (f.body.render ++ f.close.text ++ ['}'])

/-- The loops of a function. -/
def spans (f : FunctionText) : List LoopSpan := f.body.spans f.opening.length false

/-- The expression statements of a function with the loops around each. -/
def sites (f : FunctionText) : List (Nat × List Nat) := f.body.sites f.opening.length 0 []

end FunctionText

end ShaderProbe
