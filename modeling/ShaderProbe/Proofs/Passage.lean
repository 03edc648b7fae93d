import Mathlib
import ShaderProbe.Proofs.Phrase

/-!
# Statements with any statement as the body of a loop

A passage is a statement or a sequence of statements.  In contrast to a phrase, the body of a loop
may be any statement, also one with an `else` or a `do` outside braces.  Such a body goes on behind
its first `;`, and the pass over a function does not see that.

`Passage.reach` is the number of characters up to the place where the pass takes a statement to end,
and `Passage.spans` lists the loops of a passage with the ends that the pass gives them.
`Passage.isWhole` says of a statement that it ends there, and `Passage.else?` is the place of the
`else` that belongs to a statement or to the body that its headers lead to.  Every phrase is a
passage (`Phrase.toPassage`), and the bodies of its loops are whole.
-/

namespace ShaderProbe

/-- The kinds of passages. -/
inductive PassageKind where
  /-- One statement. -/
  | statement
  /-- Any number of statements, one after another. -/
  | sequence

/-- A statement or a sequence of statements, with the blanks in front of the tokens. -/
inductive Passage : PassageKind → Type where
  /-- `E;` -/
  | expression (e : Expression) : Passage .statement
  /-- `{ S* }` -/
  | block (gap : Gap) (body : Passage .sequence) (close : Gap) : Passage .statement
  /-- `if (C) S` -/
  | ifThen (gap paren : Gap) (condition : Group) (body : Passage .statement) : Passage .statement
  /-- `if (C) S else S` -/
  | ifElse (gap paren : Gap) (condition : Group) (yes : Passage .statement) (otherwise : Gap)
      (no : Passage .statement) : Passage .statement
  /-- `for (H) S` and `while (H) S` -/
  | loop (gap : Gap) (keyword : LoopKeyword) (paren : Gap) (header : Group)
      (body : Passage .statement) : Passage .statement
  /-- `do S while (C);` -/
  | doWhile (gap : Gap) (body : Passage .statement) (tail paren : Gap) (condition : Group)
      (close : Gap) : Passage .statement
  /-- No statement. -/
  | nil : Passage .sequence
  /-- A statement and the statements after it. -/
  | cons (first : Passage .statement) (rest : Passage .sequence) : Passage .sequence

namespace Passage

open Phrase (header)

variable {kind : PassageKind}

/-- The text of a passage. -/
def render {kind : PassageKind} : Passage kind → Text
  | expression e => e.text ++ [';']
  | block gap body close => gap.text ++ '{' :: (body.render ++ close.text ++ ['}'])
  | ifThen gap paren condition body => gap.text ++ header "if" paren condition ++ body.render
  | ifElse gap paren condition yes otherwise no =>
    gap.text ++ header "if" paren condition ++ yes.render ++ otherwise.text ++ "else" ++ no.render
  | loop gap keyword paren group body =>
    gap.text ++ header keyword.text paren group ++ body.render
  | doWhile gap body tail paren condition close =>
    gap.text ++ "do" ++ body.render ++ tail.text ++ header "while" paren condition ++ close.text ++
      [';']
  | nil => []
  | cons first rest => first.render ++ rest.render

/-- The words `else` and `do` do not run into the word after them. -/
def isSeparated {kind : PassageKind} : Passage kind → Bool
  | expression _ => true
  | block _ body _ => body.isSeparated
  | ifThen _ _ _ body => body.isSeparated
  | ifElse _ _ _ yes _ no => yes.isSeparated && no.isSeparated && !Text.startsWord no.render
  | loop _ _ _ _ body => body.isSeparated
  | doWhile _ body _ _ _ _ => body.isSeparated && !Text.startsWord body.render
  | nil => true
  | cons first rest => first.isSeparated && rest.isSeparated

/-- Offset of the brace that a statement starts with, for a statement at offset `start`. -/
def brace? {kind : PassageKind} (start : Nat) : Passage kind → Option Nat
  | block gap _ _ => some (start + gap.text.length)
  | _ => none

/-! ### Where the pass takes a statement to end -/

/-- The number of characters up to the `;` or the closing brace that ends the loops around a
statement: the headers lead to it, and of two branches the first one counts. -/
def reach {kind : PassageKind} : Passage kind → Nat
  | expression e => e.text.length + 1
  | block gap body close => (gap.text ++ '{' :: (body.render ++ close.text ++ ['}'])).length
  | ifThen gap paren condition body => (gap.text ++ header "if" paren condition).length + body.reach
  | ifElse gap paren condition yes _ _ =>
    (gap.text ++ header "if" paren condition).length + yes.reach
  | loop gap keyword paren group body =>
    (gap.text ++ header keyword.text paren group).length + body.reach
  | doWhile gap body _ _ _ _ => gap.text.length + 2 + body.reach
  | nil => 0
  | cons first _ => first.reach

/-- No `else` and no `do` stands outside the braces of a statement. -/
def isWhole {kind : PassageKind} : Passage kind → Bool
  | expression _ => true
  | block _ _ _ => true
  | ifThen _ _ _ body => body.isWhole
  | ifElse _ _ _ _ _ _ => false
  | loop _ _ _ _ body => body.isWhole
  | doWhile _ _ _ _ _ _ => false
  | nil => true
  | cons _ _ => false

/-- Where the `else` of a statement starts, if the statement is an `if` with an `else`, or if its
headers without braces lead to one. -/
def else? {kind : PassageKind} : Passage kind → Option Nat
  | ifThen gap paren condition body =>
    body.else?.map ((gap.text ++ header "if" paren condition).length + ·)
  | ifElse gap paren condition yes otherwise _ =>
    some ((gap.text ++ header "if" paren condition).length + yes.render.length +
      otherwise.text.length)
  | loop gap keyword paren group body =>
    body.else?.map ((gap.text ++ header keyword.text paren group).length + ·)
  | _ => none

/-! ### The loops of a passage -/

/-- The loops of a passage at offset `start`, in the order of their keywords, with the ends that the
pass gives them.  The flag `bare` says that the passage is the unbraced body of the statement before
it. -/
def spans {kind : PassageKind} (start : Nat) (bare : Bool) : Passage kind → List LoopSpan
  | expression _ => []
  | block gap body _ => body.spans (start + gap.text.length + 1) false
  | ifThen gap paren condition body =>
    body.spans (start + (gap.text ++ header "if" paren condition).length) true
  | ifElse gap paren condition yes otherwise no =>
    let first := start + (gap.text ++ header "if" paren condition).length
    let second := first + (yes.render ++ otherwise.text ++ "else").length
    yes.spans first true ++ no.spans second true
  | loop gap keyword paren group body =>
    let inside := start + (gap.text ++ header keyword.text paren group).length
    { keyword := start + gap.text.length
      parenClose := inside - 1
      headerText := Text.squeeze (header keyword.text paren group)
      bareBody := bare
      brace := body.brace? inside
      bodyEnd := some (inside + body.reach - 1) } :: body.spans inside true
  | doWhile gap body _ _ _ _ => body.spans (start + gap.text.length + 2) true
  | nil => []
  | cons first rest =>
    first.spans start false ++ rest.spans (start + first.render.length) false

/-- The bodies of the loops of a passage at offset `start`, each with its offset, in the order of
the keywords. -/
def bodies {kind : PassageKind} (start : Nat) : Passage kind → List (Nat × Passage .statement)
  | expression _ => []
  | block gap body _ => body.bodies (start + gap.text.length + 1)
  | ifThen gap paren condition body =>
    body.bodies (start + (gap.text ++ header "if" paren condition).length)
  | ifElse gap paren condition yes otherwise no =>
    let first := start + (gap.text ++ header "if" paren condition).length
    let second := first + (yes.render ++ otherwise.text ++ "else").length
    yes.bodies first ++ no.bodies second
  | loop gap keyword paren group body =>
    let inside := start + (gap.text ++ header keyword.text paren group).length
    (inside, body) :: body.bodies inside
  | doWhile gap body _ _ _ _ => body.bodies (start + gap.text.length + 2)
  | nil => []
  | cons first rest => first.bodies start ++ rest.bodies (start + first.render.length)

/-- What the body of a loop says about the loop. -/
lemma map_spans (s : Passage kind) (start : Nat) (bare : Bool) :
    (s.spans start bare).map (fun span => (span.parenClose, span.brace, span.bodyEnd)) =
      (s.bodies start).map fun body =>
        (body.1 - 1, body.2.brace? body.1, some (body.1 + body.2.reach - 1)) := by
  induction s generalizing start bare with
  | expression e => rfl
  | block gap body close ih => exact ih _ _
  | ifThen gap paren condition body ih => exact ih _ _
  | ifElse gap paren condition yes otherwise no ihYes ihNo =>
    simp only [spans, bodies, List.map_append, ihYes, ihNo]
  | loop gap keyword paren group body ih => simp only [spans, bodies, List.map_cons, ih]
  | doWhile gap body tail paren condition close ih => exact ih _ _
  | nil => rfl
  | cons first rest ihFirst ihRest =>
    simp only [spans, bodies, List.map_append, ihFirst, ihRest]

end Passage

/-! ### Phrases are passages -/

/-- The kind of a phrase as a passage. -/
abbrev PhraseKind.toPassage : PhraseKind → PassageKind
  | .statement _ => .statement
  | .sequence => .sequence

namespace Phrase

/-- A phrase as a passage. -/
def toPassage {kind : PhraseKind} : Phrase kind → Passage kind.toPassage
  | expression e => .expression e
  | block gap body close => .block gap body.toPassage close
  | ifThen gap paren condition body => .ifThen gap paren condition body.toPassage
  | ifElse gap paren condition yes otherwise no =>
    .ifElse gap paren condition yes.toPassage otherwise no.toPassage
  | loop gap keyword paren group body => .loop gap keyword paren group body.toPassage
  | doWhile gap body tail paren condition close =>
    .doWhile gap body.toPassage tail paren condition close
  | nil => .nil
  | cons first rest => .cons first.toPassage rest.toPassage

variable {kind : PhraseKind}

/-- A phrase has the same text as a passage. -/
@[simp] lemma render_toPassage (s : Phrase kind) : s.toPassage.render = s.render := by
  induction s with
  | expression e => rfl
  | block gap body close ih => rw [toPassage, Passage.render, render, ih]
  | ifThen gap paren condition body ih => rw [toPassage, Passage.render, render, ih]
  | ifElse gap paren condition yes otherwise no ihYes ihNo =>
    rw [toPassage, Passage.render, render, ihYes, ihNo]
  | loop gap keyword paren group body ih => rw [toPassage, Passage.render, render, ih]
  | doWhile gap body tail paren condition close ih => rw [toPassage, Passage.render, render, ih]
  | nil => rfl
  | cons first rest ihFirst ihRest => rw [toPassage, Passage.render, render, ihFirst, ihRest]

/-- The words of a phrase are kept apart as those of the passage. -/
@[simp] lemma isSeparated_toPassage (s : Phrase kind) :
    s.toPassage.isSeparated = s.isSeparated := by
  induction s with
  | expression e => rfl
  | block gap body close ih => exact ih
  | ifThen gap paren condition body ih => exact ih
  | ifElse gap paren condition yes otherwise no ihYes ihNo =>
    rw [toPassage, Passage.isSeparated, isSeparated, ihYes, ihNo, render_toPassage]
  | loop gap keyword paren group body ih => exact ih
  | doWhile gap body tail paren condition close ih =>
    rw [toPassage, Passage.isSeparated, isSeparated, ih, render_toPassage]
  | nil => rfl
  | cons first rest ihFirst ihRest =>
    rw [toPassage, Passage.isSeparated, isSeparated, ihFirst, ihRest]

/-- A phrase starts with a brace if the passage does. -/
lemma brace?_toPassage (s : Phrase kind) (start : Nat) :
    s.toPassage.brace? start = s.brace? start := by
  cases s <;> rfl

/-- The pass sees all of a statement that can be the body of a loop. -/
lemma reach_toPassage (s : Phrase (.statement true)) :
    s.toPassage.reach = s.render.length := by
  generalize hkind : PhraseKind.statement true = kind at s
  induction s with
  | expression e => simp [toPassage, Passage.reach, render]
  | block gap body close => rw [toPassage, Passage.reach, render_toPassage, render]
  | ifThen gap paren condition body ih =>
    rw [toPassage, Passage.reach, ih hkind, render, ← List.length_append]
  | loop gap keyword paren group body ih =>
    rw [toPassage, Passage.reach, ih rfl, render, ← List.length_append]
  | ifElse gap paren condition yes otherwise no => exact absurd hkind (by simp)
  | doWhile gap body tail paren condition close => exact absurd hkind (by simp)
  | nil => exact absurd hkind (by simp)
  | cons first rest => exact absurd hkind (by simp)

/-- The loops of a phrase are those of the passage. -/
lemma spans_toPassage (s : Phrase kind) (start : Nat) (bare : Bool) :
    s.toPassage.spans start bare = s.spans start bare := by
  induction s generalizing start bare with
  | expression e => rfl
  | block gap body close ih => exact ih _ _
  | ifThen gap paren condition body ih => exact ih _ _
  | ifElse gap paren condition yes otherwise no ihYes ihNo =>
    rw [toPassage, Passage.spans, spans, ihYes, ihNo, render_toPassage]
  | loop gap keyword paren group body ih =>
    simp only [toPassage, Passage.spans, spans, ih, brace?_toPassage, reach_toPassage]
  | doWhile gap body tail paren condition close ih => exact ih _ _
  | nil => rfl
  | cons first rest ihFirst ihRest =>
    rw [toPassage, Passage.spans, spans, ihFirst, ihRest, render_toPassage]

end Phrase

/-! ### Functions -/

/-- A function whose body is a passage. -/
structure FunctionPassage where
  /-- Indentation, qualifiers, return type and name. -/
  head : Text
  isFreeOfEnds : Text.isFreeOf ['(', ')', '{', '}', ';'] head = true
  parameters : Group
  gap : Gap
  body : Passage .sequence
  close : Gap

namespace FunctionPassage

/-- The text up to and including the brace that opens the body. -/
def opening (f : FunctionPassage) : Text :=
  f.head ++ '(' :: (f.parameters.text ++ ')' :: (f.gap.text ++ ['{']))

/-- The text of a function. -/
def render (f : FunctionPassage) : Text :=
  f.opening ++ (f.body.render ++ f.close.text ++ ['}'])

/-- The loops of a function, with the ends that the pass gives them. -/
def spans (f : FunctionPassage) : List LoopSpan := f.body.spans f.opening.length false

/-- The bodies of the loops of a function, each with its offset. -/
def bodies (f : FunctionPassage) : List (Nat × Passage .statement) := f.body.bodies f.opening.length

end FunctionPassage

/-- A function of phrases as one of passages. -/
def FunctionText.toPassage (f : FunctionText) : FunctionPassage where
  head := f.head
  isFreeOfEnds := f.isFreeOfEnds
  parameters := f.parameters
  gap := f.gap
  body := f.body.toPassage
  close := f.close

/-- The function has the same text. -/
lemma FunctionText.render_toPassage (f : FunctionText) : f.toPassage.render = f.render := by
  rw [FunctionPassage.render, render, toPassage, Phrase.render_toPassage]
  rfl

/-- The function has the same loops. -/
lemma FunctionText.spans_toPassage (f : FunctionText) : f.toPassage.spans = f.spans :=
  f.body.spans_toPassage _ _

end ShaderProbe
