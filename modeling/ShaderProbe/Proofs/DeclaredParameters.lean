import Mathlib
import ShaderProbe.Proofs.Matching
import ShaderProbe.Proofs.ParameterLists
import ShaderProbe.Proofs.PassedArguments
import ShaderProbe.Proofs.TopLevelItems

/-!
# Declared parameters

The items of a list of parameters are what its commas outside brackets separate.  An item is read as
a parameter exactly if it reads `[qualifier] type name [size]` once the words that carry no meaning
are dropped (`Signature.parameter?_isSome_iff`); any other item is passed over.  So the parameters
of a signature, and the arguments of a call, are as many as the items of that form
(`Signature.length_parameters_of_parse`).  A parameter with its array size behind the type, with two
sizes or without a name is lost.

The list is squeezed before it is cut.  By `Text.map_words_splitTopLevel_squeeze` the items have the
same words as those of the list that stands in the header.
-/

namespace ShaderProbe

namespace Text

variable {t w : Text} {ws : List Text}

/-! ### Words -/

/-- Only a blank text has no words. -/
lemma words_eq_nil_iff : words t = [] ↔ isBlankOnly t = true := by
  constructor
  · intro h
    refine isBlankOnly_iff.mpr fun c hc => ?_
    by_contra hink
    rw [Bool.not_eq_true] at hink
    obtain ⟨w, hw, -⟩ := exists_mem_words hc hink
    rw [h] at hw
    exact absurd hw List.not_mem_nil
  · intro h
    have hwords := words_append_of_isBlankOnly h []
    rwa [List.append_nil] at hwords

/-- The first word of a text, with the blanks in front of it and what follows it. -/
lemma exists_of_words_cons (h : words t = w :: ws) :
    ∃ g rest, t = g ++ (w ++ rest) ∧ isBlankOnly g = true ∧ w ≠ [] ∧ startsBlank rest = true ∧
      words rest = ws := by
  induction t generalizing w with
  | nil => exact absurd h (by simp [words])
  | cons c t ih =>
    rw [words] at h
    split at h
    · rename_i hc
      obtain ⟨g, rest, rfl, hg, hrest⟩ := ih h
      refine ⟨c :: g, rest, rfl, ?_, hrest⟩
      rw [isBlankOnly, List.all_cons, hc]
      exact hg
    · split at h
      · rename_i hstart
        obtain ⟨rfl, rfl⟩ := List.cons.inj h
        exact ⟨[], t, rfl, rfl, by simp, hstart, rfl⟩
      · rename_i hstart
        split at h
        · rename_i v vs hwords
          obtain ⟨rfl, rfl⟩ := List.cons.inj h
          obtain ⟨g, rest, rfl, hg, -, hrest⟩ := ih hwords
          -- the text does not start with a blank, so there are no blanks in front
          obtain rfl : g = [] := by
            cases g with
            | nil => rfl
            | cons d g => exact absurd (isBlankOnly_iff.mp hg d List.mem_cons_self) hstart
          exact ⟨[], rest, rfl, rfl, by simp, hrest⟩
        · rename_i hwords
          obtain ⟨rfl, rfl⟩ := List.cons.inj h
          have hblank := words_eq_nil_iff.mp hwords
          exact absurd (startsBlank_gap ⟨t, hblank⟩ [] (.inr rfl)) (by simpa using hstart)

/-- The words of a text are not empty. -/
lemma ne_nil_of_mem_words (h : w ∈ words t) : w ≠ [] := by
  obtain ⟨front, back, hsplit⟩ := List.append_of_mem h
  induction front generalizing t with
  | nil =>
    obtain ⟨-, -, -, -, hne, -⟩ := exists_of_words_cons hsplit
    exact hne
  | cons v front ih =>
    obtain ⟨-, rest, -, -, -, -, hrest⟩ := exists_of_words_cons hsplit
    exact ih (by rw [hrest]; simp) hrest

/-- A text is trimmed to one word exactly if it is its only word. -/
lemma trim_eq_iff_words (hne : w ≠ []) (hink : ∀ c ∈ w, isBlank c = false) :
    trim t = w ↔ words t = [w] := by
  constructor
  · intro h
    obtain ⟨g, hg, ht⟩ := exists_trim_append t
    rw [ht, words_append_of_isBlankOnly (isBlankOnly_indent t), h, words_append_blank hne hink hg]
  · intro h
    obtain ⟨g, rest, rfl, hg, -, -, hrest⟩ := exists_of_words_cons h
    have hlast : ∀ c ∈ w.getLast?, isBlank c = false := fun c hc => hink c (List.mem_of_getLast? hc)
    obtain ⟨c, v, rfl⟩ := List.exists_cons_of_ne_nil hne
    rw [trim, trimLeft_append hg, List.cons_append, trimLeft_cons (hink c List.mem_cons_self),
      ← List.cons_append, trimRight_append (words_eq_nil_iff.mp hrest), trimRight_of_getLast? hlast]

/-- Words joined by spaces are the words of the text. -/
lemma words_intercalate (h : ∀ w ∈ ws, w ≠ [] ∧ ∀ c ∈ w, isBlank c = false) :
    words ([' '].intercalate ws) = ws := by
  induction ws with
  | nil => rfl
  | cons w ws ih =>
    obtain ⟨hne, hink⟩ := h w List.mem_cons_self
    cases ws with
    | nil => simpa using words_append_blank hne hink (g := []) rfl
    | cons v ws =>
      have hrest := ih fun x hx => h x (List.mem_cons_of_mem w hx)
      rw [List.intercalate_cons_cons, List.append_assoc, words_append hne hink rfl,
        words_append_of_isBlankOnly (by decide), hrest]

/-- Squeezing keeps the words. -/
lemma words_squeeze (t : Text) : words (squeeze t) = words t :=
  words_intercalate fun _ hw => ⟨ne_nil_of_mem_words hw, isBlank_of_mem_words hw⟩

/-- A text is its words, each with the blanks behind it, and blanks in front. -/
lemma exists_spaced_of_words (h : words t = ws ++ [w]) :
    ∃ (indent : Gap) (parts : List (Text × Gap)) (gap : Gap),
      t = indent.text ++ (spaced parts ++ (w ++ gap.text)) ∧ parts.map Prod.fst = ws ∧
      (∀ part ∈ parts, part.2.text ≠ []) ∧ (startsBlank t = true → indent.text ≠ []) := by
  -- blanks at the start stand in front of the first word
  have hindent : ∀ {u g v rest : Text}, v ∈ words u → v ≠ [] → u = g ++ (v ++ rest) →
      startsBlank u = true → g ≠ [] := by
    rintro u g v rest hv hne rfl hstart rfl
    obtain ⟨c, v, rfl⟩ := List.exists_cons_of_ne_nil hne
    have hc := isBlank_of_mem_words hv c List.mem_cons_self
    rw [List.nil_append, List.cons_append, startsBlank, hc] at hstart
    exact absurd hstart (by decide)
  induction ws generalizing t with
  | nil =>
    obtain ⟨g, rest, ht, hg, hne, -, hrest⟩ := exists_of_words_cons h
    exact ⟨⟨g, hg⟩, [], ⟨rest, words_eq_nil_iff.mp hrest⟩, ht, rfl, by simp,
      hindent (by rw [h]; simp) hne ht⟩
  | cons v ws ih =>
    obtain ⟨g, rest, ht, hg, hne, hstart, hrest⟩ := exists_of_words_cons h
    obtain ⟨space, parts, gap, rfl, rfl, hparts, hspace⟩ := ih hrest
    refine ⟨⟨g, hg⟩, (v, space) :: parts, gap, ?_, rfl, ?_, hindent (by rw [h]; simp) hne ht⟩
    · rw [ht]
      simp [spaced]
    · exact List.forall_mem_cons.mpr ⟨hspace hstart, hparts⟩

/-! ### Items of a squeezed text -/

/-- What squeezing makes of a text behind a character that is not blank: the blanks in front of a
word become a space. -/
def squeezeTail (t : Text) : Text :=
  if startsBlank t && !(words t).isEmpty then ' ' :: squeeze t else squeeze t

/-- A blank in front is squeezed away. -/
lemma squeeze_cons_of_isBlank {c : Char} (hc : isBlank c = true) (t : Text) :
    squeeze (c :: t) = squeeze t := by
  rw [squeeze, words, if_pos hc, squeeze]

/-- A character that is not blank stays. -/
lemma squeeze_cons_of_not_isBlank {c : Char} (hc : isBlank c = false) (t : Text) :
    squeeze (c :: t) = c :: squeezeTail t := by
  rw [squeeze, words, if_neg (by simp [hc]), squeezeTail, squeeze]
  cases hstart : startsBlank t with
  | true =>
    cases words t with
    | nil => rfl
    | cons w ws => simp [List.intercalate_cons_cons]
  | false =>
    cases words t with
    | nil => rfl
    | cons w ws => cases ws <;> simp [List.intercalate_cons_cons]

/-- What is left of a text if blanks count only as the ends of words. -/
def outlook (t : Text) : List Text × Bool := (words t, startsBlank t)

/-- A character in front of the first items of two lists that look the same. -/
lemma map_outlook_consFirst {items items' : List Text} (h : items.map outlook = items'.map outlook)
    (c : Char) : (consFirst c items).map outlook = (consFirst c items').map outlook := by
  have hcons : ∀ p p' : Text, outlook p = outlook p' → outlook (c :: p) = outlook (c :: p') := by
    intro p p' hp
    obtain ⟨hwords, hstart⟩ := Prod.mk.inj hp
    rw [outlook, outlook, words, words, hwords, hstart]
    rfl
  cases items with
  | nil =>
    obtain rfl : items' = [] := by simpa using h.symm
    rfl
  | cons p ps =>
    cases items' with
    | nil => exact absurd h (by simp)
    | cons p' ps' =>
      obtain ⟨hp, hps⟩ := List.cons.inj h
      rw [consFirst, consFirst, List.map_cons, List.map_cons, hcons p p' hp]
      exact congrArg _ hps

/-- One blank in front of the first item looks like another one, and like several. -/
lemma map_outlook_consFirst_blank {c d : Char} (hc : isBlank c = true) (hd : isBlank d = true)
    (items : List Text) :
    (consFirst c items).map outlook = (consFirst d items).map outlook ∧
      (consFirst d (consFirst c items)).map outlook = (consFirst d items).map outlook := by
  have hwords : ∀ {b : Char} (p : Text), isBlank b = true → outlook (b :: p) = (words p, true) := by
    intro b p hb
    rw [outlook, words, if_pos hb, startsBlank, hb]
  have hcc : outlook (d :: [c]) = outlook [d] := by
    simp [hwords [c] hd, hwords [] hd, words, hc]
  cases items with
  | nil =>
    refine ⟨?_, ?_⟩
    · rw [consFirst, consFirst, List.map_singleton, List.map_singleton, hwords [] hc, hwords [] hd]
    · rw [consFirst, consFirst, consFirst, List.map_singleton, List.map_singleton, hcc]
  | cons p ps =>
    refine ⟨?_, ?_⟩
    · rw [consFirst, consFirst, List.map_cons, List.map_cons, hwords p hc, hwords p hd]
    · rw [consFirst, consFirst, consFirst, List.map_cons, List.map_cons, hwords _ hd, hwords p hd,
        words, if_pos hc]

/-- The items of a squeezed text look like those of the text. -/
lemma map_outlook_splitTopLevelFrom (depth : Int) (t : Text) :
    (splitTopLevelFrom [','] depth (squeezeTail t)).map outlook =
        (splitTopLevelFrom [','] depth t).map outlook ∧
      (consFirst ' ' (splitTopLevelFrom [','] depth (squeeze t))).map outlook =
        (consFirst ' ' (splitTopLevelFrom [','] depth t)).map outlook := by
  have hspace : isBlank ' ' = true := by decide
  have hblank : ∀ {c : Char} (depth : Int) (u : Text), isBlank c = true →
      splitTopLevelFrom [','] depth (c :: u) = consFirst c (splitTopLevelFrom [','] depth u) := by
    intro c depth u hc
    have hcut : ¬([c] = [','] ∧ depth = 0) := fun h =>
      ne_of_isBlank hc (by decide) (List.singleton_inj.mp h.1)
    rw [splitTopLevelFrom, nesting_of_isBlank hc, add_zero, if_neg hcut]
  induction t generalizing depth with
  | nil => exact ⟨rfl, rfl⟩
  | cons c t ih =>
    by_cases hc : isBlank c = true
    · have hwhole := (ih depth).2
      rw [squeeze_cons_of_isBlank hc, hblank depth t hc,
        (map_outlook_consFirst_blank hc hspace _).2]
      refine ⟨?_, hwhole⟩
      rw [squeezeTail, squeeze_cons_of_isBlank hc, startsBlank, hc, words, if_pos hc, Bool.true_and]
      split
      · rw [hblank depth _ hspace, hwhole, (map_outlook_consFirst_blank hc hspace _).1]
      · -- no word follows, so the rest of the text is blank
        rename_i hempty
        have hnone : words t = [] := by simpa using hempty
        have hnil : squeeze t = [] := by
          rw [squeeze, hnone]
          rfl
        rw [hnil] at hwhole ⊢
        rw [(map_outlook_consFirst_blank hc hspace _).1, ← hwhole]
        rfl
    · rw [Bool.not_eq_true] at hc
      have htail : squeezeTail (c :: t) = c :: squeezeTail t := by
        rw [squeezeTail, startsBlank, hc, Bool.false_and, if_neg (by decide),
          squeeze_cons_of_not_isBlank hc]
      have hsame : (splitTopLevelFrom [','] depth (c :: squeezeTail t)).map outlook =
          (splitTopLevelFrom [','] depth (c :: t)).map outlook := by
        have hrest := (ih (depth + nesting c)).1
        rw [splitTopLevelFrom, splitTopLevelFrom]
        split
        · rw [List.map_cons, List.map_cons, hrest]
        · exact map_outlook_consFirst hrest c
      rw [htail, squeeze_cons_of_not_isBlank hc]
      exact ⟨hsame, map_outlook_consFirst hsame ' '⟩

/-- **Squeezing a list changes no words of its items.** -/
lemma map_words_splitTopLevel_squeeze (t : Text) :
    (splitTopLevel [','] (squeeze t)).map words = (splitTopLevel [','] t).map words := by
  have hlook := congrArg (List.map Prod.fst) (map_outlook_splitTopLevelFrom 0 t).2
  have hfirst : ∀ u : Text,
      ((consFirst ' ' (splitTopLevelFrom [','] 0 u)).map outlook).map Prod.fst =
      (splitTopLevel [','] u).map words := by
    intro u
    rw [List.map_map, splitTopLevel]
    have hcut : IsCutInto ',' 0 u (splitTopLevelFrom [','] 0 u) :=
      isCutInto_splitTopLevelFrom (by decide) 0 u
    have hne := hcut.ne_nil
    cases hitems : splitTopLevelFrom [','] 0 u with
    | nil => exact absurd hitems hne
    | cons p ps => rfl
  rwa [hfirst, hfirst] at hlook

end Text

/-- A call has as many arguments as there are parameters. -/
lemma CallArguments.length_args_of (config : Config) (parameters : List Parameter)
    (overrides : Overrides) : (of config parameters overrides).args.length = parameters.length := by
  rw [of]
  dsimp only
  rw [List.length_map, argumentsFrom_eq, List.length_mapIdx]

namespace Signature

/-! ### One item -/

/-- The words of an item that carry a meaning, joined by spaces. -/
def spoken (item : Text) : Text :=
  [' '].intercalate ((Text.words item).filter fun word => !silentWords.contains word)

/-- An array size in its brackets, if there is one. -/
def bracketed : Option Text → Text
  | none => []
  | some body => '[' :: (body ++ [']'])

/-- An array size holds no closing bracket but its own. -/
lemma isArraySuffix_iff {t : Text} (h : ∀ c ∈ t.head?, c = '[') :
    isArraySuffix t = true ↔ ∃ size : Option Text, (∀ body ∈ size, ']' ∉ body) ∧
      t = bracketed size := by
  unfold isArraySuffix
  rw [Bool.or_eq_true, List.isEmpty_iff, beq_iff_eq]
  constructor
  · rintro (rfl | hdrop)
    · exact ⟨none, by simp, rfl⟩
    · cases t with
      | nil => exact absurd hdrop (by simp)
      | cons c t =>
        obtain rfl : c = '[' := h c rfl
        rw [List.dropWhile_cons_of_pos (by decide)] at hdrop
        refine ⟨some (t.takeWhile (· != ']')), fun body hbody hmem => ?_, ?_⟩
        · obtain rfl := Option.some.inj hbody
          exact absurd (List.mem_takeWhile_imp hmem) (by decide)
        · rw [bracketed, ← hdrop, List.takeWhile_append_dropWhile]
  · rintro ⟨size, hsize, rfl⟩
    cases size with
    | none => exact .inl rfl
    | some body =>
      have hfree : ∀ c ∈ '[' :: body, (c != ']') = true := by
        intro c hc
        rw [bne_iff_ne]
        rintro rfl
        rcases List.mem_cons.mp hc with hc | hc
        · exact absurd hc (by decide)
        · exact hsize body rfl hc
      right
      rw [bracketed, ← List.cons_append, List.dropWhile_append_of_pos hfree]
      rfl

end Signature

/-- The parts of an item that reads `[qualifier] type name [size]`: there is one type, which is an
identifier, one name behind it, and at most one array size behind the name. -/
structure ItemText where
  indent : Gap
  /-- The qualifier with the blanks behind it. -/
  qualifier : Option (Qualifier × Gap)
  type : Text
  /-- The blanks between type and name. -/
  space : Gap
  name : Text
  /-- The blanks behind the name. -/
  gap : Gap
  /-- What stands between the brackets of the array size. -/
  size : Option Text
  isQualified : ∀ part ∈ qualifier, part.2.text ≠ []
  isType : Text.isIdent type = true
  isSpace : space.text ≠ []
  isName : Text.isIdent name = true
  isSize : ∀ body ∈ size, ']' ∉ body

namespace ItemText

variable (p : ItemText)

/-- The words in front of the name, each with the blanks behind it. -/
def parts : List (Text × Gap) :=
  p.qualifier.toList.map (fun part => (part.1.keyword, part.2)) ++ [(p.type, p.space)]

/-- The item in front of the array size. -/
def front : Text := p.indent.text ++ (Text.spaced p.parts ++ (p.name ++ p.gap.text))

/-- The item. -/
def text : Text := p.front ++ Signature.bracketed p.size

/-- The words in front of the name are made of word characters, and blanks follow each of them. -/
lemma of_mem_parts {part : Text × Gap} (h : part ∈ p.parts) :
    part.1 ≠ [] ∧ (∀ c ∈ part.1, isWordChar c = true) ∧ part.2.text ≠ [] := by
  unfold parts at h
  simp only [List.mem_append, List.mem_singleton, List.mem_map, Option.mem_toList] at h
  rcases h with ⟨q, hq, rfl⟩ | rfl
  · obtain ⟨hne, hchars⟩ := ParameterText.isWordChar_of_keyword (.inr ⟨q.1, rfl⟩)
    exact ⟨hne, hchars, p.isQualified q hq⟩
  · exact ⟨Text.ne_nil_of_isIdent p.isType, Text.isWordChar_of_isIdent p.isType, p.isSpace⟩

/-- The words in front of the array size. -/
lemma words_front : Text.words p.front = p.parts.map Prod.fst ++ [p.name] := by
  have hparts : ∀ part ∈ p.parts,
      part.1 ≠ [] ∧ (∀ c ∈ part.1, isBlank c = false) ∧ part.2.text ≠ [] := by
    intro part hpart
    obtain ⟨hne, hchars, hgap⟩ := p.of_mem_parts hpart
    exact ⟨hne, fun c hc => isBlank_eq_false_of_isWordChar (hchars c hc), hgap⟩
  rw [front, Text.words_append_of_isBlankOnly p.indent.isBlankOnly, Text.words_spaced_append hparts,
    Text.words_append_blank (Text.ne_nil_of_isIdent p.isName) (Text.isBlank_of_isIdent p.isName)
      p.gap.isBlankOnly]

/-- No bracket stands in front of the array size. -/
lemma not_mem_front : '[' ∉ p.front := by
  have hgap : ∀ g : Gap, '[' ∉ g.text := fun g hg =>
    absurd (Text.isBlankOnly_iff.mp g.isBlankOnly _ hg) (by decide)
  have hword : isWordChar '[' = false := by decide
  unfold front Text.spaced
  simp only [List.mem_append, List.mem_flatMap, not_or, not_exists, not_and]
  refine ⟨hgap _, fun part hpart => ⟨?_, hgap _⟩, ?_, hgap _⟩
  · exact Text.not_mem_of_isWordChar (p.of_mem_parts hpart).2.1 hword
  · exact Text.not_mem_of_isWordChar (Text.isWordChar_of_isIdent p.isName) hword

/-- The item is cut at the bracket of its array size. -/
lemma takeWhile_text :
    p.text.takeWhile (· != '[') = p.front ∧
      p.text.dropWhile (· != '[') = Signature.bracketed p.size := by
  have hfront : ∀ c ∈ p.front, (c != '[') = true := by
    intro c hc
    rw [bne_iff_ne]
    rintro rfl
    exact p.not_mem_front hc
  have hsuffix : ∀ size, (Signature.bracketed size).takeWhile (· != '[') = [] ∧
      (Signature.bracketed size).dropWhile (· != '[') = Signature.bracketed size := by
    rintro (_ | body)
    · exact ⟨rfl, rfl⟩
    · exact ⟨rfl, rfl⟩
  rw [text, List.takeWhile_append_of_pos hfront, List.dropWhile_append_of_pos hfront,
    (hsuffix p.size).1, (hsuffix p.size).2, List.append_nil]
  exact ⟨rfl, rfl⟩

/-- A text with the words of an item, and an array size behind it, is an item. -/
lemma exists_of_words {t : Text} {qualifier : Option Qualifier} {type name : Text}
    {size : Option Text}
    (hwords : Text.words t = qualifier.toList.map Qualifier.keyword ++ [type, name])
    (htype : Text.isIdent type = true) (hname : Text.isIdent name = true)
    (hsize : ∀ body ∈ size, ']' ∉ body) :
    ∃ p : ItemText, t ++ Signature.bracketed size = p.text := by
  have hlast : Text.words t = (qualifier.toList.map Qualifier.keyword ++ [type]) ++ [name] := by
    rw [hwords, List.append_assoc]
    rfl
  obtain ⟨indent, parts, gap, rfl, hparts, hgaps, -⟩ := Text.exists_spaced_of_words hlast
  -- the words in front of the name are the type and possibly a qualifier
  cases qualifier with
  | none =>
    obtain ⟨part, rfl, rfl⟩ := List.map_eq_singleton_iff.mp hparts
    exact ⟨{ indent, qualifier := none, type := part.1, space := part.2, name, gap, size,
             isQualified := by simp, isType := htype, isSpace := hgaps part (by simp),
             isName := hname, isSize := hsize }, rfl⟩
  | some q =>
    obtain ⟨⟨word, blanks⟩, rest, rfl, rfl, hrest⟩ := List.map_eq_cons_iff.mp hparts
    obtain ⟨part, rfl, rfl⟩ := List.map_eq_singleton_iff.mp hrest
    have hblanks : ∀ pair ∈ some (q, blanks), pair.2.text ≠ [] := by
      intro pair hpair
      obtain rfl := Option.some.inj hpair
      exact hgaps (q.keyword, blanks) (by simp)
    exact ⟨{ indent, qualifier := some (q, blanks), type := part.1, space := part.2, name, gap,
             size, isQualified := hblanks, isType := htype, isSpace := hgaps part (by simp),
             isName := hname, isSize := hsize }, rfl⟩

end ItemText

namespace Signature

variable {config : Config} {item : Text}

/-- The item declares a parameter: without the words that carry no meaning it reads
`[qualifier] type name [size]`. -/
def IsDeclared (item : Text) : Prop := ∃ p : ItemText, spoken item = p.text

/-- Identifiers are needed for the type and the name. -/
lemma item?_isSome_iff {qualifier : Qualifier} {type name suffix : Text} :
    (item? config qualifier type name suffix).isSome = true ↔
      Text.isIdent type = true ∧ Text.isIdent name = true := by
  unfold item?
  split
  · rename_i h
    simpa using h
  · rename_i h
    simpa using h

/-- The words of a parameter in front of its array size: a type and a name, and possibly a qualifier
in front of them. -/
lemma itemOfWords?_isSome_iff {suffix : Text} {ws : List Text} :
    (itemOfWords? config suffix ws).isSome = true ↔
      ∃ (qualifier : Option Qualifier) (type name : Text),
        ws = qualifier.toList.map Qualifier.keyword ++ [type, name] ∧
          Text.isIdent type = true ∧ Text.isIdent name = true := by
  constructor
  · intro h
    unfold itemOfWords? at h
    split at h
    · rename_i type name
      exact ⟨none, type, name, rfl, item?_isSome_iff.mp h⟩
    · rename_i word type name
      cases hq : Qualifier.ofKeyword? word with
      | none =>
        rw [hq] at h
        exact absurd h (by simp)
      | some q =>
        rw [hq] at h
        have hword := List.find?_some hq
        obtain rfl : q.keyword = word := by simpa using hword
        exact ⟨some q, type, name, rfl, item?_isSome_iff.mp h⟩
    · exact absurd h (by simp)
  · rintro ⟨qualifier, type, name, rfl, hident⟩
    cases qualifier with
    | none => exact item?_isSome_iff.mpr hident
    | some q =>
      simp only [Option.toList_some, List.map_cons, List.map_nil, List.cons_append, List.nil_append,
        itemOfWords?, Qualifier.ofKeyword?_keyword, Option.bind_some]
      exact item?_isSome_iff.mpr hident

/-- **An item is read exactly if it declares a parameter.** -/
theorem parameter?_isSome_iff : (parameter? config item).isSome = true ↔ IsDeclared item := by
  have hread : parameter? config item =
      if isArraySuffix ((spoken item).dropWhile (· != '[')) then
        itemOfWords? config ((spoken item).dropWhile (· != '['))
          (Text.words ((spoken item).takeWhile (· != '[')))
      else none := rfl
  have hhead : ∀ c ∈ ((spoken item).dropWhile (· != '[')).head?, c = '[' := by
    intro c hc
    have hnot := List.head?_dropWhile_not (· != '[') (spoken item)
    rw [Option.mem_def.mp hc] at hnot
    simpa using hnot
  rw [hread]
  constructor
  · intro h
    split at h
    · rename_i hsuffix
      obtain ⟨size, hsize, hbracketed⟩ := (isArraySuffix_iff hhead).mp hsuffix
      obtain ⟨qualifier, type, name, hwords, htype, hname⟩ := itemOfWords?_isSome_iff.mp h
      obtain ⟨p, hp⟩ := ItemText.exists_of_words hwords htype hname hsize
      refine ⟨p, ?_⟩
      rw [← hp, ← hbracketed, List.takeWhile_append_dropWhile]
    · exact absurd h (by simp)
  · rintro ⟨p, hp⟩
    obtain ⟨hfront, hsuffix⟩ := p.takeWhile_text
    have hsize : isArraySuffix ((spoken item).dropWhile (· != '[')) = true :=
      (isArraySuffix_iff hhead).mpr ⟨p.size, p.isSize, by rw [hp, hsuffix]⟩
    rw [if_pos hsize, hp, hfront, p.words_front]
    refine itemOfWords?_isSome_iff.mpr ⟨p.qualifier.map Prod.fst, p.type, p.name, ?_, p.isType,
      p.isName⟩
    rw [ItemText.parts]
    cases p.qualifier <;> rfl

/-- Whether an item declares a parameter is decided by reading it. -/
instance (item : Text) : Decidable (IsDeclared item) :=
  decidable_of_iff ((parameter? {} item).isSome = true) parameter?_isSome_iff

/-! ### The list -/

/-- The items of a list of parameters.  A blank list and a lone `void` have none; every other list
is cut at its commas outside brackets. -/
inductive HasItems (list : Text) : List Text → Prop
  | empty (isVoid : Text.isBlankOnly list = true ∨ Text.trim list = "void") : HasItems list []
  | listed {items : List Text} (isList : ¬(Text.isBlankOnly list = true ∨ Text.trim list = "void"))
      (cut : Text.IsCutInto ',' 0 list items) : HasItems list items

/-- The items of a list. -/
def itemsOf (list : Text) : List Text :=
  if Text.isBlankOnly list = true ∨ Text.trim list = "void" then []
  else Text.splitTopLevel [','] list

/-- A list has its items and no others. -/
lemma hasItems_iff {list : Text} {items : List Text} :
    HasItems list items ↔ items = itemsOf list := by
  have hcut : Text.IsCutInto ',' 0 list items ↔ Text.splitTopLevel [','] list = items :=
    Text.isCutInto_iff (by decide)
  unfold itemsOf
  constructor
  · intro h
    cases h with
    | empty isVoid => rw [if_pos isVoid]
    | listed isList cut => rw [if_neg isList, hcut.mp cut]
  · intro h
    split at h
    · rename_i hvoid
      rw [h]
      exact .empty hvoid
    · rename_i hlist
      exact .listed hlist (hcut.mpr h.symm)

/-- Whether an item declares a parameter depends on its words only. -/
lemma countP_isDeclared_congr {items items' : List Text}
    (h : items.map Text.words = items'.map Text.words) :
    (items.countP fun item => decide (IsDeclared item)) =
      items'.countP fun item => decide (IsDeclared item) := by
  induction items generalizing items' with
  | nil =>
    obtain rfl : items' = [] := by simpa using h.symm
    rfl
  | cons item items ih =>
    cases items' with
    | nil => exact absurd h (by simp)
    | cons item' items' =>
      obtain ⟨hwords, hrest⟩ := List.cons.inj h
      have hsame : IsDeclared item ↔ IsDeclared item' := by
        rw [IsDeclared, spoken, hwords]
        rfl
      rw [List.countP_cons, List.countP_cons, ih hrest, decide_eq_decide.mpr hsame]

/-- **Of the items of a list those are read that declare a parameter.** -/
lemma length_parseParameters (config : Config) (list : Text) :
    (parseParameters config (Text.squeeze list)).length =
      (itemsOf list).countP fun item => decide (IsDeclared item) := by
  have hvoid : (Text.trim (Text.squeeze list) = [] ∨ Text.trim (Text.squeeze list) = "void") ↔
      (Text.isBlankOnly list = true ∨ Text.trim list = "void") := by
    have hident : Text.isIdent "void" = true := by decide
    have hne := Text.ne_nil_of_isIdent hident
    have hink := Text.isBlank_of_isIdent hident
    rw [Text.trim_eq_nil_iff, ← Text.words_eq_nil_iff, ← Text.words_eq_nil_iff,
      Text.trim_eq_iff_words hne hink, Text.trim_eq_iff_words hne hink, Text.words_squeeze]
  have hread : ∀ item, (parameter? config item).isSome = decide (IsDeclared item) := fun item =>
    Bool.eq_iff_iff.mpr (parameter?_isSome_iff.trans decide_eq_true_iff.symm)
  unfold parseParameters itemsOf
  by_cases h : Text.isBlankOnly list = true ∨ Text.trim list = "void"
  · rw [if_pos h, if_pos (hvoid.mpr h)]
    rfl
  · rw [if_neg h, if_neg (mt hvoid.mp h), List.length_filterMap_eq_countP,
      ← countP_isDeclared_congr (Text.map_words_splitTopLevel_squeeze list)]
    simp only [hread]

/-! ### The header -/

variable {code : List Text}

/-- The lines of a window are the first of the lines from its start on. -/
lemma exists_window (count : Int) (first : Nat) (ls : List Text) :
    ∃ n, window count first ls = (ls.drop first).take n := by
  unfold window
  dsimp only
  rw [List.drop_take]
  exact ⟨_, rfl⟩

/-- **The list of parameters that is read stands between the first parenthesis of the header and the
one that closes it.** -/
lemma exists_list_of_ofCode? {line : Nat} {endLine : Option Nat} {signature : Signature}
    (h : ofCode? config code line endLine = some signature) :
    ∃ front list back,
      Text.ofLines (code.drop line) = front ++ '(' :: (list ++ ')' :: back) ∧ '(' ∉ front ∧
      Text.isBalanced list = true ∧
      signature.parameters = parseParameters config (Text.squeeze list) := by
  simp only [ofCode?, Option.bind_eq_bind, Option.bind_eq_some_iff] at h
  obtain ⟨l, hl, header, hread, h⟩ := h
  obtain ⟨rfl, hheader⟩ := Header.read?_eq_some_iff.mp hread
  split at h
  · obtain ⟨list, hlist, h⟩ := Option.bind_eq_some_iff.mp h
    obtain rfl := Option.some.inj h
    obtain ⟨hlt, hget⟩ := List.getElem?_eq_some_iff.mp hl
    have hdrop : code.drop line = header.text :: code.drop (line + 1) := by
      rw [List.drop_eq_getElem_cons hlt, hget]
    obtain ⟨rest, hrest⟩ : ∃ rest, header.rest = '(' :: rest :=
      List.head?_eq_some_iff.mp hheader.rest
    obtain ⟨n, hwindow⟩ := exists_window config.maxStatementLines line code
    obtain ⟨back, hback⟩ := Text.ofLines_take_isPrefix (code.drop line) n
    obtain ⟨close, hclose, rfl⟩ := Option.map_eq_some_iff.mp hlist
    rw [Header.parenColumn_eq, hwindow] at hclose ⊢
    cases n with
    | zero => exact absurd hclose (by simp [Text.ofLines, Text.closingParen?, Text.closingFrom])
    | succ n =>
      obtain ⟨u, hu⟩ : ∃ u, Text.ofLines ((code.drop line).take (n + 1)) =
          header.front ++ '(' :: u := by
        rw [hdrop, Header.text_eq, ofLines_take_front, hrest]
        exact ⟨_, congrArg _ (ofLines_take_front ['('] rest _ n)⟩
      rw [hu, List.drop_left] at hclose ⊢
      obtain ⟨group, tail, rfl, rfl, hgroup⟩ := Text.closingParen?_eq_some_iff.mp hclose
      refine ⟨header.front, group, tail ++ back, ?_, hheader.not_mem_front, hgroup, ?_⟩
      · rw [← hback, hu]
        simp
      · simp
  · exact absurd h (by simp)

/-- **A parameter is read for each item of the list that declares one**, and a call passes an
argument for each parameter that is read.  So no item is lost exactly if every item reads
`[qualifier] type name [size]` without the words that carry no meaning.  The list stands between the
first parenthesis from the header on and the one that closes it. -/
theorem length_parameters_of_parse {config : Config} {lines : List Text} {line : Int}
    {endLine : Option Nat} {signature : Signature}
    (h : parse? config lines line endLine = some signature) :
    ∃ front list back items,
      Text.ofLines ((Comment.strip lines).drop line.toNat) = front ++ '(' :: (list ++ ')' :: back) ∧
      '(' ∉ front ∧ Text.isBalanced list = true ∧
      (∀ items', HasItems list items' ↔ items' = items) ∧
      signature.parameters.length = items.countP (fun item => decide (IsDeclared item)) ∧
      (∀ overrides, (CallArguments.of config signature.parameters overrides).args.length =
        signature.parameters.length) ∧
      (signature.parameters.length = items.length ↔ ∀ item ∈ items, IsDeclared item) := by
  unfold parse? at h
  split at h
  · exact absurd h (by simp)
  · obtain ⟨front, list, back, hcode, hfront, hlist, hparameters⟩ := exists_list_of_ofCode? h
    have hcount := length_parseParameters config list
    rw [← hparameters] at hcount
    refine ⟨front, list, back, itemsOf list, hcode, hfront, hlist, fun items' => hasItems_iff,
      hcount, CallArguments.length_args_of config _, ?_⟩
    rw [hcount, List.countP_eq_length]
    simp only [decide_eq_true_eq]

/-- A header over two lines, with silent words, a qualifier, an array size and a comma in a comment.
-/
def brokenHeader : List Text :=
  ["float f(const in vec2 p, inout highp float", "  w [ N ] /* , */, Ray r) \x7b"]

/-- The three items of the list are three parameters and three arguments. -/
theorem length_parameters_of_parse_broken :
    ∃ signature, parse? {} brokenHeader 0 none = some signature ∧ signature.parameters.length = 3 ∧
      ∃ front list back items,
        Text.ofLines (Comment.strip brokenHeader) = front ++ '(' :: (list ++ ')' :: back) ∧
        '(' ∉ front ∧ Text.isBalanced list = true ∧
        (∀ items', HasItems list items' ↔ items' = items) ∧
        signature.parameters.length = items.countP (fun item => decide (IsDeclared item)) ∧
        (CallArguments.of {} signature.parameters []).args.length = 3 ∧
        (signature.parameters.length = items.length ↔ ∀ item ∈ items, IsDeclared item) := by
  have hread : (parse? {} brokenHeader 0 none).map (fun s => s.parameters.length) = some 3 := by
    decide +kernel
  obtain ⟨signature, h, hlength⟩ := Option.map_eq_some_iff.mp hread
  obtain ⟨front, list, back, items, hcode, hfront, hlist, hitems, hcount, hargs, hall⟩ :=
    length_parameters_of_parse h
  exact ⟨signature, h, hlength, front, list, back, items, hcode, hfront, hlist, hitems, hcount,
    (hargs []).trans hlength, hall⟩

/-- A header with an array size behind a type. -/
def sizedTypeHeader : List Text := ["float f(vec3[2] a, float b) \x7b"]

/-- **A parameter whose array size stands behind its type is lost**: the list has two items, and one
parameter is read and passed. -/
theorem length_parameters_sizedType :
    Text.ofLines (Comment.strip sizedTypeHeader) =
      "float f" ++ '(' :: ("vec3[2] a, float b" ++ ')' :: " \x7b") ∧
    HasItems "vec3[2] a, float b" ["vec3[2] a", " float b"] ∧
    (parse? {} sizedTypeHeader 0 none).map (fun s =>
      (s.parameters.map Parameter.name, (CallArguments.of {} s.parameters []).args)) =
        some ((["b"], ["0.5"]) : List Text × List Text) :=
  ⟨by decide +kernel, hasItems_iff.mpr (by decide +kernel), by decide +kernel⟩

end Signature

end ShaderProbe
