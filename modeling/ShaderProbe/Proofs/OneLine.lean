import Mathlib
import ShaderProbe.Probe
import ShaderProbe.Proofs.Braces

/-!
# Texts on one line

Instrumentation works on lines and joins them at the end.  This file shows that the lines it makes
hold no line feeds of their own: identifiers, type names, numbers, the names of the configuration
and every statement built from them stay on one line.  The one exception is an expression that a
request gives for a parameter.  It may hold line feeds, and the lines it goes into are then tame
(`Variant.isTame_callingEntryPoint`).
-/

namespace ShaderProbe

namespace Text

/-! ### Words, identifiers and numbers -/

/-- An identifier is made of word characters. -/
lemma isWordChar_of_isIdent {t : Text} (h : isIdent t = true) : ∀ c ∈ t, isWordChar c = true := by
  cases t with
  | nil => exact fun c hc => absurd hc List.not_mem_nil
  | cons c t =>
    rw [isIdent, Bool.and_eq_true, List.all_eq_true] at h
    intro d hd
    rcases List.mem_cons.mp hd with rfl | hd
    · exact isWordChar_of_isIdentStart h.1
    · exact h.2 d hd

/-- An identifier is not empty. -/
lemma ne_nil_of_isIdent {t : Text} (h : isIdent t = true) : t ≠ [] := by
  rintro rfl
  exact absurd h (by decide)

/-- An identifier holds no blanks. -/
lemma isBlank_of_isIdent {t : Text} (h : isIdent t = true) : ∀ c ∈ t, isBlank c = false :=
  fun c hc => isBlank_eq_false_of_isWordChar (isWordChar_of_isIdent h c hc)

/-- A text of word characters holds no other character. -/
lemma not_mem_of_isWordChar {t : Text} (h : ∀ c ∈ t, isWordChar c = true) {d : Char}
    (hd : isWordChar d = false) : d ∉ t := by
  intro hmem
  rw [h d hmem] at hd
  exact absurd hd (by decide)

/-- An identifier holds no line feed. -/
lemma not_mem_of_isIdent {t : Text} (h : isIdent t = true) : '\n' ∉ t :=
  not_mem_of_isWordChar (isWordChar_of_isIdent h) (isWordChar_eq_false_of_isBlank (by decide))

/-- The words of a text hold no blanks. -/
lemma isBlank_of_mem_words {t w : Text} (h : w ∈ words t) : ∀ c ∈ w, isBlank c = false := by
  induction t generalizing w with
  | nil => exact absurd h List.not_mem_nil
  | cons d t ih =>
    rw [words] at h
    split at h
    · exact ih h
    · rename_i hd
      rw [Bool.not_eq_true] at hd
      have hsingle : ∀ c ∈ [d], isBlank c = false := by
        intro c hc
        rwa [List.mem_singleton.mp hc]
      split at h
      · rcases List.mem_cons.mp h with rfl | h
        · exact hsingle
        · exact ih h
      · cases hw : words t with
        | nil =>
          rw [hw, List.mem_singleton] at h
          rw [h]
          exact hsingle
        | cons v vs =>
          rw [hw] at h ih
          rcases List.mem_cons.mp h with rfl | h
          · intro c hc
            rcases List.mem_cons.mp hc with rfl | hc
            · exact hd
            · exact ih List.mem_cons_self c hc
          · exact ih (List.mem_cons_of_mem v h)

/-- What a joined list holds comes from the separator or from a part. -/
lemma mem_intercalate {sep : Text} {ls : List Text} {c : Char} (h : c ∈ sep.intercalate ls) :
    c ∈ sep ∨ ∃ l ∈ ls, c ∈ l := by
  induction ls with
  | nil => exact absurd h (by simp [List.intercalate])
  | cons l ls ih =>
    cases ls with
    | nil => exact .inr ⟨l, List.mem_cons_self, by simpa [List.intercalate] using h⟩
    | cons l' ls =>
      have hcons : sep.intercalate (l :: l' :: ls) = l ++ (sep ++ sep.intercalate (l' :: ls)) := by
        simp [List.intercalate]
      rw [hcons, List.mem_append, List.mem_append] at h
      rcases h with h | h | h
      · exact .inr ⟨l, List.mem_cons_self, h⟩
      · exact .inl h
      · rcases ih h with h | ⟨x, hx, hc⟩
        · exact .inl h
        · exact .inr ⟨x, List.mem_cons_of_mem l hx, hc⟩

/-- Decimal digits stay on one line. -/
@[simp] lemma not_mem_ofNat (n : Nat) : '\n' ∉ ofNat n := by
  intro h
  have hdigit := Nat.isDigit_of_mem_toDigits (by decide) (by decide) h
  exact absurd hdigit (by decide)

/-- The text of an integer stays on one line. -/
@[simp] lemma not_mem_ofInt (n : Int) : '\n' ∉ ofInt n := by
  cases n with
  | ofNat n => exact not_mem_ofNat n
  | negSucc n => simp [ofInt]

end Text

/-- A number with a fixed number of places is made of digits and a few other characters. -/
lemma Decimal.cases_of_mem_fixed {places : Nat} {x : Float} {c : Char}
    (h : c ∈ Decimal.fixed places x) : c.isDigit = true ∨ c ∈ "-.infa".toList := by
  have hdigit : ∀ {n}, c ∈ Text.ofNat n → c.isDigit = true ∨ c ∈ "-.infa".toList := fun hc =>
    .inl (Nat.isDigit_of_mem_toDigits (by decide) (by decide) hc)
  have hsub : ∀ {t : Text}, t ⊆ "-.infa".toList → c ∈ t → c.isDigit = true ∨ c ∈ "-.infa".toList :=
    fun ht hc => .inr (ht hc)
  unfold Decimal.fixed at h
  cases hvalue : Decimal.Value.ofBits x.toBits.toNat with
  | finite negative mantissa exponent =>
    rw [hvalue, Decimal.Value.toFixed, Decimal.fixedText, Decimal.padded] at h
    simp only [List.mem_append, List.mem_cons] at h
    rcases h with h | h | rfl | h | h
    · refine hsub ?_ h
      split <;> simp
    · exact hdigit h
    · exact .inr (by decide)
    · obtain rfl := List.eq_of_mem_replicate h
      exact .inl (by decide)
    · exact hdigit h
  | infinite negative =>
    rw [hvalue, Decimal.Value.toFixed] at h
    refine hsub ?_ h
    split <;> simp
  | notANumber =>
    rw [hvalue, Decimal.Value.toFixed] at h
    exact hsub (by simp) h

/-- A number with a fixed number of places stays on one line. -/
@[simp] lemma Decimal.not_mem_fixed (places : Nat) (x : Float) : '\n' ∉ Decimal.fixed places x :=
  fun h => absurd (cases_of_mem_fixed h) (by decide)

/-! ### Functions of a source -/

/-- A parameter as it is read from a header: its name is an identifier, its type stays on one line,
and the value it is fed is quiet. -/
structure Parameter.IsPlain (parameter : Parameter) : Prop where
  name : Text.isIdent parameter.name = true
  type : '\n' ∉ parameter.type
  value : ∀ value ∈ parameter.value, Comment.IsQuiet value

/-- A function as it is read from a header. -/
structure Signature.IsPlain (signature : Signature) : Prop where
  name : Text.isIdent signature.name = true
  returnType : Text.isIdent signature.returnType = true
  parameters : ∀ parameter ∈ signature.parameters, parameter.IsPlain

/-- The name and the return type of a header are identifiers. -/
lemma Header.isIdent_of_read? {line : Text} {header : Header} (h : read? line = some header) :
    Text.isIdent header.name = true ∧ Text.isIdent header.returnType = true := by
  simp only [read?] at h
  split at h
  · rename_i hparts
    simp only [Bool.and_eq_true] at hparts
    rw [Option.some.injEq] at h
    subst h
    exact ⟨hparts.1.1.1.2, hparts.1.2⟩
  · exact absurd h (by simp)

/-- What a type is fed by default is quiet. -/
lemma Parameter.isQuiet_of_mem_value (name type : Text) (qualifier : Qualifier) :
    ∀ value ∈ (Parameter.ofType {} name type qualifier).value, Comment.IsQuiet value := by
  rw [Parameter.ofType, Parameter.value]
  generalize GlslType.parse type = kind
  intro value hvalue
  refine ⟨?_, ?_⟩ <;> cases kind <;> simp [Feed.ofType, Feed.swept, Feed.absent] at hvalue <;>
    subst hvalue <;> decide

namespace Signature

/-- A parameter of identifiers and an array size on one line is plain. -/
lemma isPlain_of_item? {qualifier : Qualifier} {type name suffix : Text} {parameter : Parameter}
    (hsuffix : '\n' ∉ suffix) (h : item? {} qualifier type name suffix = some parameter) :
    parameter.IsPlain := by
  rw [item?] at h
  split at h
  · rename_i hident
    rw [Bool.and_eq_true] at hident
    rw [Option.some.injEq] at h
    subst h
    refine ⟨hident.2, ?_, Parameter.isQuiet_of_mem_value _ _ _⟩
    rw [Parameter.ofType, List.mem_append, not_or]
    exact ⟨Text.not_mem_of_isIdent hident.1, fun hmem => hsuffix (List.mem_of_mem_filter hmem)⟩
  · exact absurd h (by simp)

/-- A parameter that is read is plain. -/
lemma isPlain_of_parameter? {item : Text} {parameter : Parameter}
    (h : parameter? {} item = some parameter) : parameter.IsPlain := by
  rw [parameter?] at h
  set spoken := (Text.words item).filter fun word => !silentWords.contains word with hspoken
  have hitem : '\n' ∉ [' '].intercalate spoken := by
    intro hmem
    rcases Text.mem_intercalate hmem with hsep | ⟨word, hword, hmem⟩
    · exact absurd hsep (by decide)
    · have hblank := Text.isBlank_of_mem_words (List.mem_of_mem_filter hword) _ hmem
      exact absurd hblank (by decide)
  have hsuffix : '\n' ∉ ([' '].intercalate spoken).dropWhile (· != '[') :=
    fun hmem => hitem ((List.dropWhile_suffix _).subset hmem)
  split at h
  · unfold itemOfWords? at h
    split at h
    · exact isPlain_of_item? hsuffix h
    · obtain ⟨qualifier, -, h⟩ := Option.bind_eq_some_iff.mp h
      exact isPlain_of_item? hsuffix h
    · exact absurd h (by simp)
  · exact absurd h (by simp)

/-- The signature of a header is plain. -/
lemma isPlain_of_ofCode? {code : List Text} {line : Nat} {endLine : Option Nat}
    {signature : Signature} (h : ofCode? {} code line endLine = some signature) :
    signature.IsPlain := by
  rw [ofCode?] at h
  simp only [Option.bind_eq_bind, Option.bind_eq_some_iff] at h
  obtain ⟨text, -, header, hheader, h⟩ := h
  split at h
  · obtain ⟨list, -, h⟩ := Option.bind_eq_some_iff.mp h
    rw [Option.some.injEq] at h
    subst h
    obtain ⟨hname, htype⟩ := Header.isIdent_of_read? hheader
    refine ⟨hname, htype, fun parameter hmem => ?_⟩
    simp only [parseParameters] at hmem
    split at hmem
    · exact absurd hmem List.not_mem_nil
    · obtain ⟨item, -, hitem⟩ := List.mem_filterMap.mp hmem
      exact isPlain_of_parameter? hitem
  · exact absurd h (by simp)

/-- A signature knows its lines. -/
lemma lines_of_ofCode? {config : Config} {code : List Text} {line : Nat} {endLine : Option Nat}
    {signature : Signature} (h : ofCode? config code line endLine = some signature) :
    signature.startLine = line ∧ signature.endLine = endLine := by
  rw [ofCode?] at h
  simp only [Option.bind_eq_bind, Option.bind_eq_some_iff] at h
  obtain ⟨text, -, header, -, h⟩ := h
  split at h
  · obtain ⟨list, -, h⟩ := Option.bind_eq_some_iff.mp h
    rw [Option.some.injEq] at h
    subst h
    exact ⟨rfl, rfl⟩
  · exact absurd h (by simp)

end Signature

namespace Outline

/-- A function at a line has the signature of its header there. -/
lemma ofCode?_of_functionAt? {config : Config} {code : List Text} {line : Nat} {rest : List Text}
    {f : Signature} (h : functionAt? config code line rest = some f) :
    Signature.ofCode? config code f.startLine f.endLine = some f := by
  rw [functionAt?] at h
  simp only [Option.bind_eq_bind, Option.bind_eq_some_iff] at h
  obtain ⟨text, -, header, -, h⟩ := h
  split at h
  · obtain ⟨body, -, h⟩ := Option.bind_eq_some_iff.mp h
    obtain ⟨hstart, hend⟩ := Signature.lines_of_ofCode? h
    rw [hstart, hend]
    exact h
  · exact absurd h (by simp)

/-- Functions are found by their headers. -/
lemma ofCode?_of_mem_functionsFrom {config : Config} {code : List Text} {f : Signature}
    {rest : List Text} {line depth skip : Nat}
    (h : f ∈ functionsFrom config code line depth skip rest) :
    Signature.ofCode? config code f.startLine f.endLine = some f := by
  induction rest generalizing line depth skip with
  | nil => exact absurd h List.not_mem_nil
  | cons l ls ih =>
    cases skip with
    | succ skip => exact ih h
    | zero =>
      rw [functionsFrom] at h
      split at h
      · exact ih h
      · rename_i signature hsignature
        have hfunction : functionAt? config code line (l :: ls) = some signature := by
          split at hsignature
          · exact hsignature
          · exact absurd hsignature (by simp)
        have hcode := ofCode?_of_functionAt? hfunction
        split at h
        · rw [List.mem_singleton.mp h]
          exact hcode
        · rcases List.mem_cons.mp h with rfl | h
          · exact hcode
          · exact ih h

/-- The functions of a source are plain. -/
lemma isPlain_of_mem_functions {lines : List Text} {f : Signature} (h : f ∈ functions {} lines) :
    f.IsPlain :=
  Signature.isPlain_of_ofCode? (ofCode?_of_mem_functionsFrom h)

/-- The function around a line is one of the functions. -/
lemma mem_of_enclosingIn? {count : Nat} {line : Int} {fs : List Signature} {f : Signature}
    (h : enclosingIn? count line fs = some f) : f ∈ fs := by
  induction fs with
  | nil => exact absurd h (by simp [enclosingIn?])
  | cons g fs ih =>
    rw [enclosingIn?] at h
    split at h
    · rw [Option.some.injEq] at h
      rw [h]
      exact List.mem_cons_self
    · split at h
      · exact absurd h (by simp)
      · exact List.mem_cons_of_mem g (ih h)

/-- The function around a line is plain. -/
lemma isPlain_of_enclosing? {lines : List Text} {line : Int} {f : Signature}
    (h : enclosing? {} lines line = some f) : f.IsPlain :=
  isPlain_of_mem_functions (mem_of_enclosingIn? h)

end Outline

/-! ### Variables that are shown -/

/-- A variable whose name is an identifier and whose type stays on one line. -/
structure Variable.IsPlain (v : Variable) : Prop where
  name : Text.isIdent v.name = true
  type : '\n' ∉ v.type

/-- The keywords of types are made of word characters. -/
lemma GlslType.isWordChar_of_mem {type : Text} (h : type ∈ variableKeywords) :
    ∀ c ∈ type, isWordChar c = true := by
  have hall : ∀ type ∈ variableKeywords, type.all Char.isAlphanum = true := by decide
  intro c hc
  have hchar : c.isAlphanum = true := List.all_eq_true.mp (hall type h) c hc
  rw [isWordChar, hchar]
  rfl

/-- The keyword of a type stays on one line. -/
lemma GlslType.not_mem_of_mem {type : Text} (h : type ∈ variableKeywords) : '\n' ∉ type :=
  Text.not_mem_of_isWordChar (isWordChar_of_mem h) (isWordChar_eq_false_of_isBlank (by decide))

namespace TypeLookup

/-- A declaration that is found has a keyword for its type. -/
lemma mem_of_findFrom? {name t : Text} {joined : Bool} {offset : Nat} {site : DeclarationSite}
    (h : DeclarationSite.findFrom? name joined offset t = some site) :
    site.type ∈ GlslType.variableKeywords := by
  induction t generalizing joined offset with
  | nil => exact absurd h (by simp [DeclarationSite.findFrom?])
  | cons c t ih =>
    rw [DeclarationSite.findFrom?] at h
    split at h
    · rename_i type after hhere
      rw [Option.some.injEq] at h
      subst h
      split at hhere
      · exact absurd hhere (by simp)
      · rw [DeclarationSite.here?] at hhere
        simp only [Option.bind_eq_bind] at hhere
        split at hhere
        · rename_i hkeyword
          rw [Bool.and_eq_true, List.contains_iff_mem] at hkeyword
          obtain ⟨rest, -, hrest⟩ := Option.bind_eq_some_iff.mp hhere
          rw [Option.some.injEq, Prod.mk.injEq] at hrest
          rw [← hrest.1]
          exact hkeyword.1
        · exact absurd hhere (by simp)
    · exact ih h

/-- The type that a line declares a name with is a keyword. -/
lemma mem_of_declaredType? {name line type : Text} (h : declaredType? name line = some type) :
    type ∈ GlslType.variableKeywords := by
  obtain ⟨site, hsite, rfl⟩ := Option.map_eq_some_iff.mp h
  exact mem_of_findFrom? hsite

/-- The type that is found backwards is a keyword. -/
lemma mem_of_backward? {name type : Text} {ls : List Text} {depth : Nat}
    (h : backward? name depth ls = some type) : type ∈ GlslType.variableKeywords := by
  induction ls generalizing depth with
  | nil => exact absurd h (by simp [backward?])
  | cons l ls ih =>
    rw [backward?] at h
    split at h
    · rename_i found hfound
      rw [Option.some.injEq] at h
      subst h
      split at hfound
      · exact mem_of_declaredType? hfound
      · exact absurd hfound (by simp)
    · exact ih h

/-- The type that is found forwards is a keyword. -/
lemma mem_of_forward? {name type : Text} {ls : List Text} {depth : Nat}
    (h : forward? name depth ls = some type) : type ∈ GlslType.variableKeywords := by
  induction ls generalizing depth with
  | nil => exact absurd h (by simp [forward?])
  | cons l ls ih =>
    rw [forward?] at h
    split at h
    · rename_i found hfound
      rw [Option.some.injEq] at h
      subst h
      split at hfound
      · exact mem_of_declaredType? hfound
      · exact absurd hfound (by simp)
    · exact ih h

/-- The type of a variable is a keyword or the type of a parameter. -/
lemma cases_of_resolve {code : List Text} {name type : Text} {before : Nat}
    {function : Signature} (h : resolve code name before (some function) = .ok (some type)) :
    type ∈ GlslType.variableKeywords ∨ ∃ p ∈ function.parameters, p.type = type := by
  unfold resolve at h
  dsimp only at h
  split at h
  · exact absurd h (by simp)
  · split at h
    · rename_i found hfound
      rw [Except.ok.injEq, Option.some.injEq] at h
      rw [← h]
      exact .inl (mem_of_backward? hfound)
    · exact absurd h (by simp)
    · rename_i f hnone hsome
      rw [Option.some.injEq] at hsome
      subst hsome
      split at h
      · rename_i found hfound
        rw [Except.ok.injEq, Option.some.injEq] at h
        subst h
        cases hparameter : parameterType? name function with
        | some type =>
          obtain ⟨parameter, hfind, rfl⟩ := Option.map_eq_some_iff.mp hparameter
          rw [hparameter] at hfound
          rw [← Option.some.inj hfound]
          exact .inr ⟨parameter, List.mem_of_find?_eq_some hfind, rfl⟩
        | none =>
          rw [hparameter] at hfound
          exact .inl (mem_of_forward? hfound)
      · split at h <;> exact absurd h (by simp)

end TypeLookup

namespace Statement

/-- A declared variable has an identifier for its name and a keyword for its type. -/
lemma plain_of_declared? {t : Text} {v : Variable} (h : declared? t = some v) :
    Text.isIdent v.name = true ∧ v.type ∈ GlslType.variableKeywords := by
  unfold declared? at h
  split at h
  · split at h
    · rename_i hparts
      simp only [Bool.and_eq_true, List.contains_iff_mem] at hparts
      rw [Option.some.injEq] at h
      rw [← h]
      exact ⟨hparts.1.1.2, hparts.1.1.1.2⟩
    · exact absurd h (by simp)
  · exact absurd h (by simp)

/-- The text that starts with an identifier is read as one. -/
lemma isIdent_of_readIdent? {t name rest : Text} (h : Text.readIdent? t = some (name, rest)) :
    Text.isIdent name = true := by
  cases t with
  | nil => exact absurd h (by simp [Text.readIdent?])
  | cons c t =>
    rw [Text.readIdent?] at h
    split at h
    · rename_i hc
      rw [Option.some.injEq, Prod.mk.injEq] at h
      rw [← h.1, Text.isIdent, hc, Bool.true_and, List.all_eq_true]
      exact fun d hd => List.mem_takeWhile_imp hd
    · exact absurd h (by simp)

/-- An assigned variable has an identifier for its name, which the text starts with. -/
lemma plain_of_assigned? {t name operator : Text} (h : assigned? t = some (name, operator)) :
    Text.isIdent name = true ∧ ∃ rest, Text.trimLeft t = name ++ rest := by
  rw [assigned?] at h
  simp only [Option.bind_eq_bind, Option.bind_eq_some_iff] at h
  obtain ⟨⟨found, rest⟩, hread, after, -, ⟨sign, value⟩, -, h⟩ := h
  split at h
  · rw [Option.some.injEq, Prod.mk.injEq] at h
    obtain ⟨rfl, -⟩ := h
    exact ⟨isIdent_of_readIdent? hread, rest, (Text.append_of_readIdent? hread).symm⟩
  · exact absurd h (by simp)

end Statement

/-- Two computations in a row succeed if each of them does. -/
lemma bind_eq_ok_iff {ε α β : Type} {x : Except ε α} {f : α → Except ε β} {r : β} :
    (x >>= f) = .ok r ↔ ∃ a, x = .ok a ∧ f a = .ok r := by
  cases x with
  | error e => simp [bind, Except.bind]
  | ok a => simp [bind, Except.bind]

/-- A computation that gives a result succeeds with it. -/
lemma eq_ok_of_toOption {ε α : Type} {x : Except ε α} {a : α} (h : x.toOption = some a) :
    x = .ok a := by
  cases x with
  | error e => exact absurd h (by simp [Except.toOption])
  | ok b => exact congrArg Except.ok (Option.some.inj h)

/-- A computation whose result is there in any case. -/
lemma map_some_eq_ok_iff {ε α : Type} {x : Except ε α} {a : α} :
    some <$> x = .ok (some a) ↔ x = .ok a := by
  cases x with
  | error e => simp [Functor.map, Except.map]
  | ok b => simp [Functor.map, Except.map]

/-- The type is a keyword, or one that the header of the function names. -/
def Signature.KnowsType (function : Signature) (type : Text) : Prop :=
  type ∈ GlslType.variableKeywords ∨ type = function.returnType ∨
    ∃ p ∈ function.parameters, p.type = type

/-- Such a type stays on one line. -/
lemma Signature.KnowsType.not_mem {function : Signature} {type : Text}
    (h : function.KnowsType type) (hfunction : function.IsPlain) : '\n' ∉ type := by
  rcases h with hkeyword | rfl | ⟨p, hp, rfl⟩
  · exact GlslType.not_mem_of_mem hkeyword
  · exact Text.not_mem_of_isIdent hfunction.returnType
  · exact (hfunction.parameters p hp).type

/-- A statement that is classified as one of a kind. -/
lemma Statement.cases_of_classifyAs {code : List Text} {function : Signature}
    (hfunction : function.IsPlain) {statement : Statement} {kind : Kind} {found : Classification}
    {v : Variable} (hv : found.variable? = some v)
    (h : classifyAs code (some function) statement kind = .ok (some found)) :
    v.IsPlain ∧ function.KnowsType v.type ∧ (v.type ∈ GlslType.variableKeywords ∨
      ∃ rest, Text.trimLeft statement.text = v.name ++ rest) := by
  cases kind with
  | declaration =>
    rw [classifyAs, Except.ok.injEq] at h
    obtain ⟨w, hw, rfl⟩ := Option.map_eq_some_iff.mp h
    obtain rfl : w = v := Option.some.inj hv
    obtain ⟨hname, htype⟩ := plain_of_declared? hw
    exact ⟨⟨hname, GlslType.not_mem_of_mem htype⟩, .inl htype, .inl htype⟩
  | assignment =>
    rw [classifyAs] at h
    split at h
    · exact absurd h (by simp)
    · rename_i name operator hassigned
      obtain ⟨type, htype, h⟩ := bind_eq_ok_iff.mp h
      obtain ⟨type, rfl, rfl⟩ := Option.map_eq_some_iff.mp (Except.ok.inj h)
      obtain rfl : ⟨name, type⟩ = v := Option.some.inj hv
      obtain ⟨hname, hrest⟩ := plain_of_assigned? hassigned
      have hknown : function.KnowsType type := (TypeLookup.cases_of_resolve htype).imp_right .inr
      exact ⟨⟨hname, hknown.not_mem hfunction⟩, hknown, .inr hrest⟩

/-- A statement that is classified as one of some kinds. -/
lemma Statement.cases_of_classify {code : List Text} {function : Signature}
    (hfunction : function.IsPlain) {statement : Statement} {kinds : List Kind}
    {found : Classification} {v : Variable} (hv : found.variable? = some v)
    (h : classify code (some function) statement kinds = .ok found) :
    v.IsPlain ∧ function.KnowsType v.type ∧ (v.type ∈ GlslType.variableKeywords ∨
      ∃ rest, Text.trimLeft statement.text = v.name ++ rest) := by
  induction kinds with
  | nil =>
    rw [classify, Except.ok.injEq] at h
    rw [← h] at hv
    exact absurd hv (Option.some_ne_none v).symm
  | cons kind kinds ih =>
    rw [classify] at h
    obtain ⟨result, hresult, h⟩ := bind_eq_ok_iff.mp h
    cases result with
    | none => exact ih h
    | some result =>
      obtain rfl : result = found := Except.ok.inj h
      exact cases_of_classifyAs hfunction hv hresult

namespace Target

/-- The statement that is classified, and what follows from its classification. -/
lemma cases_of_classify {lines : List Text} {line : Nat} {function : Signature}
    (hfunction : function.IsPlain) {found : Classification} {v : Variable}
    (hv : found.variable? = some v)
    (h : classify {} Probe.shownKinds lines line none (some function) = .ok found) :
    v.IsPlain ∧ function.KnowsType v.type ∧ (v.type ∈ GlslType.variableKeywords ∨
      ∃ statement : Statement,
      Statement.find ({} : Config).maxStatementLines (Comment.strip lines) line =
        .ok (some statement) ∧ ∃ rest, Text.trimLeft statement.text = v.name ++ rest) := by
  have hnone : ∀ cause, Classification.noMatch cause ≠ found := by
    rintro cause rfl
    exact absurd hv (Option.some_ne_none v).symm
  rw [classify] at h
  split at h
  · exact absurd (Except.ok.inj h) (hnone _)
  · rename_i resolved hresolved
    obtain rfl : resolved = line := by
      simp only [resolve, Option.map_none, inRange?] at hresolved
      split at hresolved
      · exact (Option.some.inj hresolved).symm
      · exact absurd hresolved (by simp)
    obtain ⟨statement, hstatement, h⟩ := bind_eq_ok_iff.mp h
    cases statement with
    | none => exact absurd (Except.ok.inj h) (hnone _)
    | some statement =>
      obtain ⟨hplain, hknown, hcases⟩ := Statement.cases_of_classify hfunction hv h
      exact ⟨hplain, hknown, hcases.imp_right fun hrest => ⟨statement, hstatement, hrest⟩⟩

end Target

end ShaderProbe
