import ShaderProbe.Statement.Basic
import ShaderProbe.Statement.TypeLookup

/-!
# What a statement does

A statement is worth showing if it declares a variable with an initializer or assigns to one.  The
assigned variable's type is looked up; without a declaration in sight there is nothing to show.
Statements that return a value are recognized separately.
-/

namespace ShaderProbe

/-- A variable to show. -/
structure Variable where
  name : Text
  type : Text
  deriving DecidableEq

/-- Why a line has nothing to show. -/
inductive NoMatch where
  | outOfRange
  | noStatement
  | otherStatement
  deriving DecidableEq

/-- The wording of a reason. -/
def NoMatch.reason : NoMatch → Text
  | .outOfRange => "line out of range"
  | .noStatement => "no terminated statement"
  | .otherStatement => "not a declaration or assignment"

/-- What a statement does. -/
inductive Classification where
  /-- Declares a variable with an initializer. -/
  | declaration (subject : Variable) (startLine endLine : Nat)
  /-- Assigns to a variable, or to a part of it, by an operator such as `+=`. -/
  | assignment (subject : Variable) (operator : Text) (startLine endLine : Nat)
  | noMatch (cause : NoMatch)
  deriving DecidableEq

/-- The variable that is written. -/
def Classification.variable? : Classification → Option Variable
  | .declaration v _ _ => some v
  | .assignment v _ _ _ => some v
  | .noMatch _ => none

namespace Statement

/-! ### Declarations -/

/-- Words that may stand in front of the type of a declaration. -/
def qualifiers : List Text := ["const", "highp", "mediump", "lowp", "uniform", "precise"]

/-- The variable of a text that reads `qualifiers type name = value;`. -/
def declared? (t : Text) : Option Variable :=
  match (Text.words (t.takeWhile (· != '='))).reverse, t.dropWhile (· != '=') with
  | name :: type :: front, _ :: value =>
    if front.all (qualifiers.contains ·) && GlslType.variableKeywords.contains type
        && Text.isIdent name && value.head? != some '=' && value.getLast? == some ';' then
      some ⟨name, type⟩
    else none
  | _, _ => none

/-! ### Assignments -/

/-- Where a text stands within the accessors that follow a variable. -/
inductive Access where
  /-- Between accessors. -/
  | between
  /-- After a point, in front of a member. -/
  | point
  /-- Inside the name of a member. -/
  | member
  /-- Inside square brackets. -/
  | index
  deriving DecidableEq

/-- The text after member and index accessors and blanks; a point without a member and an open
bracket are refused. -/
def afterAccessors? (access : Access) : Text → Option Text
  | [] => if access = .between ∨ access = .member then some [] else none
  | c :: t =>
    match access with
    | .index => afterAccessors? (if c = ']' then .between else .index) t
    | .point =>
      if isBlank c then afterAccessors? .point t
      else if isIdentStart c then afterAccessors? .member t
      else none
    | .between | .member =>
      if access = .member ∧ isWordChar c then afterAccessors? .member t
      else if isBlank c then afterAccessors? .between t
      else if c = '.' then afterAccessors? .point t
      else if c = '[' then afterAccessors? .index t
      else some (c :: t)

/-- An assignment operator at the start of a text, and the text after it. -/
def readOperator? : Text → Option (Text × Text)
  | '=' :: t => some (['='], t)
  | c :: '=' :: t => if c ∈ ['+', '-', '*', '/'] then some ([c, '='], t) else none
  | _ => none

/-- Name and operator of a text that reads `name accessors operator value;`.  Words of the language
are no variables, and a comparison is no assignment. -/
def assigned? (t : Text) : Option (Text × Text) := do
  let (name, rest) ← Text.readIdent? (Text.trimLeft t)
  let rest ← afterAccessors? .between rest
  let (operator, value) ← readOperator? rest
  if value.getLast? == some ';' && !Header.controlKeywords.contains name
      && !GlslType.variableKeywords.contains name
      && !(operator == ['='] && (Text.trimLeft value).head? == some '=') then
    some (name, operator)
  else none

/-! ### Returns -/

/-- The squeezed expression of a text that reads `return expression;`. -/
def returned? (t : Text) : Option Text := do
  let rest ← Text.readWord? "return" (Text.trimLeft t)
  if rest.getLast? == some ';' && !Text.isBlankOnly rest.dropLast then
    some (Text.squeeze rest.dropLast)
  else none

/-! ### Classification -/

/-- A kind of statement that can be shown. -/
inductive Kind where
  | declaration
  | assignment
  deriving DecidableEq

/-- The classification of a statement as one of a kind, if it is of that kind. -/
def classifyAs (code : List Text) (function : Option Signature) (statement : Statement) :
    Kind → Except Error (Option Classification)
  | .declaration =>
    .ok ((declared? statement.text).map fun v =>
      .declaration v statement.startLine statement.endLine)
  | .assignment =>
    match assigned? statement.text with
    | none => .ok none
    | some (name, operator) => do
      let type ← TypeLookup.resolve code name statement.startLine function
      return type.map fun type =>
        .assignment ⟨name, type⟩ operator statement.startLine statement.endLine

/-- The classification of a statement as the first possible of some kinds. -/
def classify (code : List Text) (function : Option Signature) (statement : Statement) :
    List Kind → Except Error Classification
  | [] => .ok (.noMatch .otherStatement)
  | kind :: kinds => do
    match ← classifyAs code function statement kind with
    | some classification => return classification
    | none => classify code function statement kinds

end Statement

/-- A statement that returns a value. -/
structure ReturnStatement where
  /-- The returned expression, blanks squeezed. -/
  expression : Text
  startLine : Nat
  endLine : Nat
  deriving DecidableEq

/-- The statement returning a value that touches a line of a source; there is none for a line out of
range. -/
def ReturnStatement.find (max : Int) (lines : List Text) (line : Int) :
    Except Error (Option ReturnStatement) :=
  if 0 ≤ line ∧ line < lines.length then do
    let statement ← Statement.find max (Comment.strip lines) line.toNat
    return statement.bind fun s =>
      (Statement.returned? s.text).map fun expression => ⟨expression, s.startLine, s.endLine⟩
  else .ok none

end ShaderProbe
