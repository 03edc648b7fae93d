import ShaderProbe.Signature.Basic

/-!
# Looking up the type of a variable

The type of a variable is read off its declaration.  From the line of its use the search goes
backwards through the enclosing blocks of the function, then to the function's parameters, then
through the lines before the function.  Closed blocks are passed over by counting braces.

A declaration is found in a line by its type keyword, followed by declarators that end in commas, by
the name, and by a character that may follow a declared name.
-/

namespace ShaderProbe

/-- Where a line declares a name. -/
structure DeclarationSite where
  /-- The declared type. -/
  type : Text
  /-- Offset of the type keyword. -/
  start : Nat
  /-- Offset after the character that follows the name. -/
  stop : Nat
  deriving DecidableEq

namespace DeclarationSite

/-- The texts after each comma. -/
def afterCommas : Text → List Text
  | [] => []
  | c :: t => if c = ',' then t :: afterCommas t else afterCommas t

/-- The text up to each comma, since the comma before. -/
def commaItems : Text → List Text
  | [] => []
  | c :: t => if c = ',' then [] :: commaItems t else
    match commaItems t with
    | [] => []
    | item :: items => (c :: item) :: items

/-- A declarator: an identifier, possibly with an initializer that has neither parentheses nor a
`;`. -/
def isDeclarator (item : Text) : Bool :=
  match Text.readIdent? (Text.trimLeft item) with
  | none => false
  | some (_, rest) =>
    match Text.trimLeft rest with
    | [] => true
    | c :: value => c = '=' && value.all fun d => d != ';' && d != '(' && d != ')'

/-- The text without some of its leading blanks, from all of them to none. -/
def blankTails : Text → List Text
  | [] => [[]]
  | c :: t => if isBlank c then blankTails t ++ [c :: t] else [c :: t]

/-- The places at which the declared name may stand, the last one first, in a text that follows a
type and starts with a blank: after that blank, and after each comma as long as only declarators
come before it.  Further blanks are skipped as far as possible. -/
def nameSites (t : Text) : List Text :=
  let later := ((commaItems t).zip (afterCommas t)).takeWhile fun entry => isDeclarator entry.1
  (t.drop 1 :: later.map Prod.snd).reverse.flatMap blankTails

/-- What is left of a text that starts with the name, after the character that follows it. -/
def afterName? (name t : Text) : Option Text := do
  let rest ← Text.readLiteral? name t
  match Text.trimLeft rest with
  | [] => some []
  | c :: t => if c ∈ ['=', ';', ',', ')', '['] then some t else none

/-- A declaration of the name by the type keyword at the start of a text, and the text after it.  Of
several places for the name the last one counts. -/
def here? (name t : Text) : Option (Text × Text) := do
  let type := t.takeWhile fun c => !isBlank c
  let rest := t.dropWhile fun c => !isBlank c
  if GlslType.variableKeywords.contains type && !rest.isEmpty then
    let after ← (nameSites rest).findSome? (afterName? name)
    some (type, after)
  else none

/-- The first declaration of the name in a text that starts at an offset.  A type keyword does not
count right after a word character or a point, which `joined` tells of the character before. -/
def findFrom? (name : Text) (joined : Bool) (offset : Nat) : Text → Option DeclarationSite
  | [] => none
  | c :: t =>
    match if joined then none else here? name (c :: t) with
    | some (type, after) => some ⟨type, offset, offset + (t.length + 1 - after.length)⟩
    | none => findFrom? name (isWordChar c || c = '.') (offset + 1) t

/-- The first declaration of a name in a text. -/
def find? (name t : Text) : Option DeclarationSite := findFrom? name false 0 t

end DeclarationSite

namespace TypeLookup

/-- The type that a line declares the name with. -/
def declaredType? (name line : Text) : Option Text :=
  (DeclarationSite.find? name line).map DeclarationSite.type

/-- The number of closed blocks around the start of a line, from the number around its end. -/
def closedBefore (depth : Nat) (line : Text) : Nat :=
  line.foldr (fun c depth => if c = '}' then depth + 1 else if c = '{' then depth - 1 else depth)
    depth

/-- The nearest declaration among lines that are given last first, the last of them inside `depth`
closed blocks at its end. -/
def backward? (name : Text) (depth : Nat) : List Text → Option Text
  | [] => none
  | l :: ls =>
    match if depth = 0 then declaredType? name l else none with
    | some type => some type
    | none => backward? name (closedBefore depth l) ls

/-- The first declaration at global scope among lines, the first of them inside `depth` open
blocks. -/
def forward? (name : Text) (depth : Nat) : List Text → Option Text
  | [] => none
  | l :: ls =>
    match if depth = 0 then declaredType? name l else none with
    | some type => some type
    | none => forward? name ((depth : Int) + Text.braceDelta l).toNat ls

/-- The type of the first parameter with the name. -/
def parameterType? (name : Text) (function : Signature) : Option Text :=
  (function.parameters.find? fun parameter => parameter.name = name).map Parameter.type

/-- The declared type of a name as seen from the start of a line of comment-free code.  A search
that has to look at a line past the end is an error. -/
def resolve (code : List Text) (name : Text) (before : Nat) (function : Option Signature) :
    Except Error (Option Text) :=
  let start := (function.map Signature.startLine).getD 0
  if start < before ∧ code.length < before then .error (.outOfRange (before - 1))
  else
    match backward? name 0 ((code.take before).drop start).reverse, function with
    | some type, _ => .ok (some type)
    | none, none => .ok none
    | none, some function =>
      match parameterType? name function <|> forward? name 0 (code.take function.startLine) with
      | some type => .ok (some type)
      | none =>
        if code.length < function.startLine then .error (.outOfRange code.length) else .ok none

end TypeLookup

end ShaderProbe
