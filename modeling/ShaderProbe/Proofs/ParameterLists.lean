import Mathlib
import ShaderProbe.Proofs.TopLevelItems

/-!
# Lists of parameters

A parameter list is cut at its top-level commas, the words of each item that carry no meaning are
dropped, the others are joined by single spaces, and the result is read as
`[qualifier] type name [size]`.  This file reads a printed list back.

* `Text.splitTopLevel_intercalate`: texts without a comma outside brackets are what a list of them
  is cut into.
* `ParameterText.parameter?_text`: one printed parameter is read back, whatever blanks and silent
  words it holds.
* `ParameterText.parseParameters_listText`: the list is read back, in order.
-/

namespace ShaderProbe

namespace Text

variable {s t u : Text} {depth : Int}

/-! ### Top-level commas -/

/-- No comma stands outside brackets in a text that starts at the given depth of brackets. -/
def IsUncut (depth : Int) (t : Text) : Prop :=
  ∀ front back, t = front ++ ',' :: back → depth + nestingOf front ≠ 0

/-- A text without commas is not cut. -/
lemma isUncut_of_not_mem (h : ',' ∉ t) (depth : Int) : IsUncut depth t := by
  rintro front back rfl
  exact absurd (List.mem_append_right front List.mem_cons_self) h

/-- A text of two parts is not cut if neither of the parts is. -/
lemma IsUncut.append (hs : IsUncut depth s) (ht : IsUncut (depth + nestingOf s) t) :
    IsUncut depth (s ++ t) := by
  intro front back h
  rcases List.append_eq_append_iff.mp h with ⟨mid, rfl, hback⟩ | ⟨mid, hfront, hback⟩
  · rw [nestingOf_append, ← add_assoc]
    exact ht mid back hback
  · cases mid with
    | nil =>
      rw [List.append_nil] at hfront
      have hstart := ht [] back hback.symm
      rw [nestingOf_nil, add_zero, hfront] at hstart
      exact hstart
    | cons c mid =>
      obtain ⟨rfl, -⟩ := List.cons_eq_cons.mp hback
      exact hs front mid hfront

/-- A text that is not cut holds no separator outside brackets. -/
lemma IsUncut.isWhole (h : IsUncut depth t) : IsWhole ',' depth t := h

/-- **Texts without a comma outside brackets are what a list of them is cut into.** -/
theorem splitTopLevel_intercalate {ts : List Text} (hne : ts ≠ [])
    (h : ∀ t ∈ ts, IsUncut 0 t ∧ nestingOf t = 0) :
    splitTopLevel [','] ([','].intercalate ts) = ts := by
  refine (isCutInto_iff (by decide)).mp ?_
  induction ts with
  | nil => exact absurd rfl hne
  | cons t ts ih =>
    obtain ⟨huncut, hnesting⟩ := h t List.mem_cons_self
    cases ts with
    | nil => simpa using IsCutInto.last huncut.isWhole
    | cons t' ts =>
      have hrest := ih (by simp) fun x hx => h x (List.mem_cons_of_mem t hx)
      rw [List.intercalate_cons_cons, List.append_assoc, List.singleton_append]
      exact .item huncut.isWhole (by rw [hnesting]; rfl) hrest

/-! ### Words and blanks -/

/-- A word character opens and closes no bracket. -/
lemma nesting_of_isWordChar {c : Char} (h : isWordChar c = true) : nesting c = 0 := by
  have hne : ∀ d : Char, isWordChar d = false → c ≠ d := by
    rintro d hd rfl
    rw [h] at hd
    exact absurd hd (by decide)
  unfold nesting
  rw [if_neg, if_neg]
  · simp [hne ')' (by decide), hne ']' (by decide)]
  · simp [hne '(' (by decide), hne '[' (by decide)]

/-- Words and blanks open and close no brackets and hold no comma. -/
lemma nestingOf_of_words (h : ∀ c ∈ t, isWordChar c = true ∨ isBlank c = true) :
    nestingOf t = 0 ∧ ',' ∉ t := by
  refine ⟨nestingOf_eq_zero fun c hc => ?_, fun hmem => absurd (h ',' hmem) (by decide)⟩
  rcases h c hc with hword | hblank
  · exact nesting_of_isWordChar hword
  · exact nesting_of_isBlank hblank

end Text

/-! ### One parameter -/

/-- The parts of a printed parameter. -/
structure ParameterText where
  indent : Gap
  /-- Words without meaning in front of the qualifier, each with the blanks behind it. -/
  lead : List (Text × Gap)
  /-- The qualifier with the blanks behind it. -/
  qualifier : Option (Qualifier × Gap)
  /-- Words without meaning behind the qualifier. -/
  middle : List (Text × Gap)
  type : Text
  /-- The blanks between type and name. -/
  space : Gap
  name : Text
  /-- The blanks behind the name. -/
  gap : Gap
  /-- What stands between the brackets of the array size, and the blanks behind them. -/
  size : Option (Text × Gap)
  isSilent : ∀ part ∈ lead ++ middle, part.1 ∈ Signature.silentWords ∧ part.2.text ≠ []
  isQualified : ∀ part ∈ qualifier, part.2.text ≠ []
  isType : Text.isIdent type = true ∧ type ∉ Signature.silentWords
  isSpace : space.text ≠ []
  isName : Text.isIdent name = true ∧ name ∉ Signature.silentWords
  isSize : ∀ part ∈ size, ∀ c ∈ part.1, isBlank c = false ∧ c ∉ ['(', ')', '[', ']']

/-- A qualifier is known by its keyword. -/
lemma Qualifier.ofKeyword?_keyword (qualifier : Qualifier) :
    ofKeyword? qualifier.keyword = some qualifier := by
  cases qualifier <;> decide

namespace ParameterText

variable (p : ParameterText)

/-- The qualifier as a word with the blanks behind it. -/
def qualifierPart : List (Text × Gap) :=
  p.qualifier.toList.map fun part => (part.1.keyword, part.2)

/-- The words in front of the name, each with the blanks behind it. -/
def parts : List (Text × Gap) := p.lead ++ p.qualifierPart ++ p.middle ++ [(p.type, p.space)]

/-- The array size in its brackets. -/
def suffix : Text :=
  match p.size with
  | none => []
  | some part => '[' :: (part.1 ++ [']'])

/-- The blanks at the end, if there is an array size. -/
def tail : Text :=
  match p.size with
  | none => []
  | some part => part.2.text

/-- The printed parameter. -/
def text : Text :=
  p.indent.text ++ (Text.spaced p.parts ++ (p.name ++ (p.gap.text ++ (p.suffix ++ p.tail))))

/-- The parameter that is meant: its type with the array size, its qualifier, which is `in` if there
is none, and the values that its type is fed. -/
def parameter (config : Config) : Parameter :=
  let feed := Feed.ofType config (GlslType.parse (p.type ++ p.suffix))
  { name := p.name
    type := p.type ++ p.suffix
    qualifier := (p.qualifier.map Prod.fst).getD .input
    mode := feed.mode
    fixed := feed.fixed
    uv := feed.uv
    centeredUv := feed.centeredUv }

/-- The words of a parameter that carry no meaning, and its qualifiers, are made of word
characters. -/
lemma isWordChar_of_keyword {word : Text}
    (h : word ∈ Signature.silentWords ∨ ∃ qualifier : Qualifier, word = qualifier.keyword) :
    word ≠ [] ∧ ∀ c ∈ word, isWordChar c = true := by
  have hwords : ∀ word ∈ Signature.silentWords ++ [Qualifier.input, .output, .both].map
      Qualifier.keyword, word ≠ [] ∧ word.all Char.isAlphanum = true := by decide
  have hmem : word ∈ Signature.silentWords ++ [Qualifier.input, .output, .both].map
      Qualifier.keyword := by
    rcases h with h | ⟨qualifier, rfl⟩
    · exact List.mem_append_left _ h
    · refine List.mem_append_right _ (List.mem_map.mpr ⟨qualifier, ?_, rfl⟩)
      cases qualifier <;> decide
  refine ⟨(hwords word hmem).1, fun c hc => ?_⟩
  rw [isWordChar, List.all_eq_true.mp (hwords word hmem).2 c hc]
  rfl

/-- The words in front of the name are made of word characters, and blanks follow each of them. -/
lemma of_mem_parts {part : Text × Gap} (h : part ∈ p.parts) :
    part.1 ≠ [] ∧ (∀ c ∈ part.1, isWordChar c = true) ∧ part.2.text ≠ [] := by
  unfold parts qualifierPart at h
  simp only [List.mem_append, List.mem_singleton, List.mem_map, Option.mem_toList] at h
  have hsilent : part ∈ p.lead ∨ part ∈ p.middle →
      part.1 ≠ [] ∧ (∀ c ∈ part.1, isWordChar c = true) ∧ part.2.text ≠ [] := by
    intro hmem
    obtain ⟨hword, hgap⟩ := p.isSilent part (List.mem_append.mpr hmem)
    obtain ⟨hne, hchars⟩ := isWordChar_of_keyword (.inl hword)
    exact ⟨hne, hchars, hgap⟩
  rcases h with ((hlead | ⟨q, hq, rfl⟩) | hmiddle) | rfl
  · exact hsilent (.inl hlead)
  · obtain ⟨hne, hchars⟩ := isWordChar_of_keyword (.inr ⟨q.1, rfl⟩)
    exact ⟨hne, hchars, p.isQualified q hq⟩
  · exact hsilent (.inr hmiddle)
  · exact ⟨Text.ne_nil_of_isIdent p.isType.1, Text.isWordChar_of_isIdent p.isType.1, p.isSpace⟩

/-- The words of a printed parameter. -/
lemma words_text (t : Text) :
    Text.words (p.text ++ t) =
      p.parts.map Prod.fst ++ Text.words (p.name ++ (p.gap.text ++ (p.suffix ++ p.tail)) ++ t) := by
  have hparts : ∀ part ∈ p.parts,
      part.1 ≠ [] ∧ (∀ c ∈ part.1, isBlank c = false) ∧ part.2.text ≠ [] := by
    intro part hpart
    obtain ⟨hne, hchars, hgap⟩ := p.of_mem_parts hpart
    exact ⟨hne, fun c hc => isBlank_eq_false_of_isWordChar (hchars c hc), hgap⟩
  unfold text
  rw [List.append_assoc, Text.words_append_of_isBlankOnly p.indent.isBlankOnly, List.append_assoc,
    Text.words_spaced_append hparts]

/-- A word that is not silent is kept. -/
lemma filter_eq_of_spoken {ws : List Text} (h : ∀ w ∈ ws, w ∉ Signature.silentWords) :
    ws.filter (fun word => !Signature.silentWords.contains word) = ws := by
  refine List.filter_eq_self.mpr fun w hw => ?_
  rw [Bool.not_eq_true', ← Bool.not_eq_true, List.contains_iff_mem]
  exact h w hw

/-- Of the words in front of the name the qualifier and the type are kept. -/
lemma filter_parts :
    (p.parts.map Prod.fst).filter (fun word => !Signature.silentWords.contains word) =
      p.qualifier.toList.map (fun part => part.1.keyword) ++ [p.type] := by
  have hsilent : ∀ ws : List (Text × Gap), (∀ part ∈ ws, part ∈ p.lead ++ p.middle) →
      (ws.map Prod.fst).filter (fun word => !Signature.silentWords.contains word) = [] := by
    intro ws hws
    refine List.filter_eq_nil_iff.mpr fun word hword => ?_
    obtain ⟨part, hpart, rfl⟩ := List.mem_map.mp hword
    simpa using (p.isSilent part (hws part hpart)).1
  have hqualifier : ∀ q : Qualifier, q.keyword ∉ Signature.silentWords := by
    intro q
    cases q <;> decide
  have hkeywords : p.qualifierPart.map Prod.fst =
      p.qualifier.toList.map fun part => part.1.keyword := by
    unfold qualifierPart
    rw [List.map_map]
    rfl
  unfold parts
  rw [List.map_append, List.map_append, List.map_append, hkeywords, List.filter_append,
    List.filter_append, List.filter_append, hsilent p.lead fun x hx => List.mem_append_left _ hx,
    hsilent p.middle fun x hx => List.mem_append_right _ hx, filter_eq_of_spoken,
    filter_eq_of_spoken, List.nil_append, List.append_nil]
  · rfl
  · intro w hw
    obtain rfl : w = p.type := List.mem_singleton.mp hw
    exact p.isType.2
  · intro w hw
    obtain ⟨part, -, rfl⟩ := List.mem_map.mp hw
    exact hqualifier part.1

/-- A silent word holds no bracket. -/
lemma not_mem_silentWords {w : Text} (h : '[' ∈ w) : w ∉ Signature.silentWords := by
  intro hmem
  have hchars := (isWordChar_of_keyword (.inl hmem)).2 '[' h
  exact absurd hchars (by decide)

/-- The characters of an array size are not blank. -/
lemma isBlank_of_mem_suffix : ∀ c ∈ p.suffix, isBlank c = false := by
  intro c hc
  unfold suffix at hc
  split at hc
  · exact absurd hc List.not_mem_nil
  · rename_i part hpart
    simp only [List.mem_cons, List.mem_append, List.not_mem_nil, or_false] at hc
    rcases hc with rfl | hc | rfl
    · decide
    · exact (p.isSize part hpart c hc).1
    · decide

/-- The blanks at the end are blank. -/
lemma isBlankOnly_tail : Text.isBlankOnly p.tail = true := by
  unfold tail
  split
  · rfl
  · rename_i part _
    exact part.2.isBlankOnly

/-- **The words that are kept, joined by spaces**: they read as the words in front of the array
size, possibly a space, and the size. -/
lemma exists_joined :
    ∃ blank : Text, Text.isBlankOnly blank = true ∧
      [' '].intercalate ((Text.words p.text).filter
          fun word => !Signature.silentWords.contains word) =
        ([' '].intercalate (p.qualifier.toList.map (fun part => part.1.keyword) ++
          [p.type, p.name]) ++ blank) ++ p.suffix := by
  have hname := Text.ne_nil_of_isIdent p.isName.1
  have hink := Text.isBlank_of_isIdent p.isName.1
  have hwords := p.words_text []
  rw [List.append_nil, List.append_nil] at hwords
  have hjoin : ∀ last : List Text, (∀ w ∈ last, w ∉ Signature.silentWords) →
      Text.words (p.name ++ (p.gap.text ++ (p.suffix ++ p.tail))) = last →
        (Text.words p.text).filter (fun word => !Signature.silentWords.contains word) =
          p.qualifier.toList.map (fun part => part.1.keyword) ++ (p.type :: last) := by
    intro last hlast heq
    rw [hwords, List.filter_append, filter_parts, heq, filter_eq_of_spoken hlast, List.append_assoc]
    rfl
  by_cases hsuffix : p.suffix = []
  · -- there is no array size, so only blanks follow the name
    have hlast : Text.words (p.name ++ (p.gap.text ++ (p.suffix ++ p.tail))) = [p.name] := by
      refine Text.words_append_blank hname hink ?_
      rw [hsuffix, List.nil_append, Text.isBlankOnly_append, p.gap.isBlankOnly, p.isBlankOnly_tail]
      rfl
    refine ⟨[], rfl, ?_⟩
    rw [hjoin [p.name] (by simpa using p.isName.2) hlast, hsuffix, List.append_nil, List.append_nil]
  · have hbracket : '[' ∈ p.suffix := by
      unfold suffix at hsuffix ⊢
      split at hsuffix
      · exact absurd rfl hsuffix
      · exact List.mem_cons_self
    by_cases hgap : p.gap.text = []
    · -- the size is glued to the name
      have hlast : Text.words (p.name ++ (p.gap.text ++ (p.suffix ++ p.tail))) =
          [p.name ++ p.suffix] := by
        rw [hgap, List.nil_append, ← List.append_assoc]
        refine Text.words_append_blank (by simp [hname]) (fun c hc => ?_) p.isBlankOnly_tail
        rcases List.mem_append.mp hc with hc | hc
        · exact hink c hc
        · exact p.isBlank_of_mem_suffix c hc
      have hspoken : ∀ w ∈ [p.name ++ p.suffix], w ∉ Signature.silentWords := by
        intro w hw
        obtain rfl := List.mem_singleton.mp hw
        exact not_mem_silentWords (List.mem_append_right _ hbracket)
      refine ⟨[], rfl, ?_⟩
      rw [hjoin _ hspoken hlast]
      cases p.qualifier <;> simp [List.intercalate]
    · -- the size is a word of its own
      have hlast : Text.words (p.name ++ (p.gap.text ++ (p.suffix ++ p.tail))) =
          [p.name, p.suffix] := by
        rw [Text.words_append hname hink
          (Text.startsBlank_gap p.gap _ (.inl hgap)),
          Text.words_append_of_isBlankOnly p.gap.isBlankOnly,
          Text.words_append_blank hsuffix p.isBlank_of_mem_suffix p.isBlankOnly_tail]
      have hspoken : ∀ w ∈ [p.name, p.suffix], w ∉ Signature.silentWords := by
        intro w hw
        rcases List.mem_cons.mp hw with rfl | hw
        · exact p.isName.2
        · obtain rfl := List.mem_singleton.mp hw
          exact not_mem_silentWords hbracket
      refine ⟨[' '], by decide, ?_⟩
      rw [hjoin _ hspoken hlast]
      cases p.qualifier <;> simp [List.intercalate]

/-- The array size reads as one. -/
lemma isArraySuffix_suffix : Signature.isArraySuffix p.suffix = true := by
  unfold suffix Signature.isArraySuffix
  split
  · rfl
  · rename_i part hpart
    have hfree : ∀ c ∈ '[' :: part.1, (c != ']') = true := by
      intro c hc
      rw [bne_iff_ne]
      rintro rfl
      rcases List.mem_cons.mp hc with hc | hc
      · exact absurd hc (by decide)
      · exact (p.isSize part hpart _ hc).2 (by decide)
    have hdrop : ('[' :: (part.1 ++ [']'])).dropWhile (· != ']') = [']'] := by
      rw [← List.cons_append, List.dropWhile_append_of_pos hfree]
      rfl
    rw [hdrop]
    rfl

/-- The words in front of the array size, joined by spaces, are words and blanks. -/
lemma cases_of_mem_joined {c : Char}
    (h : c ∈ [' '].intercalate (p.qualifier.toList.map (fun part => part.1.keyword) ++
      [p.type, p.name])) : isWordChar c = true ∨ isBlank c = true := by
  rcases Text.mem_intercalate h with hc | ⟨w, hw, hc⟩
  · obtain rfl : c = ' ' := List.mem_singleton.mp hc
    exact .inr (by decide)
  · left
    simp only [List.mem_append, List.mem_map, List.mem_cons, List.not_mem_nil, or_false] at hw
    rcases hw with ⟨part, -, rfl⟩ | rfl | rfl
    · exact (isWordChar_of_keyword (.inr ⟨part.1, rfl⟩)).2 c hc
    · exact Text.isWordChar_of_isIdent p.isType.1 c hc
    · exact Text.isWordChar_of_isIdent p.isName.1 c hc

/-- The words in front of the array size are found again. -/
lemma words_joined {blank : Text} (hblank : Text.isBlankOnly blank = true) :
    Text.words ([' '].intercalate (p.qualifier.toList.map (fun part => part.1.keyword) ++
      [p.type, p.name]) ++ blank) =
        p.qualifier.toList.map (fun part => part.1.keyword) ++ [p.type, p.name] := by
  have hspace : Text.isBlankOnly [' '] = true := by decide
  have hink : ∀ {w : Text}, (∀ c ∈ w, isWordChar c = true) → ∀ c ∈ w, isBlank c = false :=
    fun hw c hc => isBlank_eq_false_of_isWordChar (hw c hc)
  have hword : ∀ {w : Text} (t : Text), w ≠ [] → (∀ c ∈ w, isWordChar c = true) →
      Text.words (w ++ ' ' :: t) = w :: Text.words t := by
    intro w t hne hw
    have hstart := Text.startsBlank_gap ⟨[' '], hspace⟩ t (.inl (by simp))
    have hrest := Text.words_append_of_isBlankOnly hspace t
    rw [← hrest]
    exact Text.words_append hne (hink hw) hstart
  have htype := hword (p.name ++ blank) (Text.ne_nil_of_isIdent p.isType.1)
    (Text.isWordChar_of_isIdent p.isType.1)
  have hname := Text.words_append_blank (Text.ne_nil_of_isIdent p.isName.1)
    (hink (Text.isWordChar_of_isIdent p.isName.1)) hblank
  cases hq : p.qualifier with
  | none =>
    have hjoin : [' '].intercalate ((none : Option (Qualifier × Gap)).toList.map
        (fun part => part.1.keyword) ++ [p.type, p.name]) ++ blank =
          p.type ++ ' ' :: (p.name ++ blank) := by
      simp [List.intercalate]
    rw [hjoin, htype, hname]
    rfl
  | some q =>
    have hjoin : [' '].intercalate ((some q).toList.map (fun part => part.1.keyword) ++
        [p.type, p.name]) ++ blank =
          q.1.keyword ++ ' ' :: (p.type ++ ' ' :: (p.name ++ blank)) := by
      simp [List.intercalate]
    obtain ⟨hne, hchars⟩ := isWordChar_of_keyword (.inr ⟨q.1, rfl⟩)
    rw [hjoin, hword _ hne hchars, htype, hname]
    rfl

/-- **A printed parameter is read back.** -/
theorem parameter?_text (config : Config) :
    Signature.parameter? config p.text = some (p.parameter config) := by
  obtain ⟨blank, hblank, hjoined⟩ := p.exists_joined
  set front := [' '].intercalate (p.qualifier.toList.map (fun part => part.1.keyword) ++
    [p.type, p.name]) ++ blank with hfront
  have hplain : ∀ c ∈ front, (c != '[') = true := by
    intro c hc
    rw [bne_iff_ne]
    rintro rfl
    rcases List.mem_append.mp hc with hc | hc
    · exact absurd (p.cases_of_mem_joined hc) (by decide)
    · exact absurd (Text.isBlankOnly_iff.mp hblank _ hc) (by decide)
  have hbracket : p.suffix.takeWhile (· != '[') = [] ∧
      p.suffix.dropWhile (· != '[') = p.suffix := by
    unfold suffix
    split
    · exact ⟨rfl, rfl⟩
    · exact ⟨rfl, rfl⟩
  have hspaces : p.suffix.filter (· != ' ') = p.suffix := by
    refine List.filter_eq_self.mpr fun c hc => ?_
    rw [bne_iff_ne]
    rintro rfl
    exact absurd (p.isBlank_of_mem_suffix _ hc) (by decide)
  have hitem : ∀ qualifier, Signature.item? config qualifier p.type p.name p.suffix =
      some (Parameter.ofType config p.name (p.type ++ p.suffix) qualifier) := by
    intro qualifier
    unfold Signature.item?
    rw [p.isType.1, p.isName.1, hspaces]
    rfl
  unfold Signature.parameter?
  dsimp only
  rw [hjoined, List.dropWhile_append_of_pos hplain, hbracket.2, if_pos p.isArraySuffix_suffix,
    List.takeWhile_append_of_pos hplain, hbracket.1, List.append_nil, hfront, p.words_joined hblank]
  unfold parameter
  cases p.qualifier with
  | none => exact hitem .input
  | some q =>
    simp only [Option.toList_some, List.map_cons, List.map_nil, List.cons_append, List.nil_append,
      Signature.itemOfWords?, Qualifier.ofKeyword?_keyword, Option.bind_some, hitem]
    rfl

/-! ### The list -/

/-- In front of the array size there are words and blanks. -/
lemma cases_of_mem_front {c : Char}
    (h : c ∈ p.indent.text ++ (Text.spaced p.parts ++ (p.name ++ p.gap.text))) :
    isWordChar c = true ∨ isBlank c = true := by
  have hgap : ∀ g : Gap, c ∈ g.text → isBlank c = true := fun g hg =>
    Text.isBlankOnly_iff.mp g.isBlankOnly c hg
  unfold Text.spaced at h
  simp only [List.mem_append, List.mem_flatMap] at h
  rcases h with h | ⟨part, hpart, h | h⟩ | h | h
  · exact .inr (hgap _ h)
  · exact .inl ((p.of_mem_parts hpart).2.1 c h)
  · exact .inr (hgap _ h)
  · exact .inl (Text.isWordChar_of_isIdent p.isName.1 c h)
  · exact .inr (hgap _ h)

/-- The commas of an array size stand inside its brackets. -/
lemma isUncut_suffix : Text.IsUncut 0 p.suffix ∧ Text.nestingOf p.suffix = 0 := by
  unfold suffix
  split
  · exact ⟨Text.isUncut_of_not_mem List.not_mem_nil 0, rfl⟩
  · rename_i part hpart
    have hflat : ∀ c ∈ part.1, Text.nesting c = 0 := by
      intro c hc
      have hfree := (p.isSize part hpart c hc).2
      simp only [List.mem_cons, List.not_mem_nil, or_false, not_or] at hfree
      unfold Text.nesting
      rw [if_neg (by tauto), if_neg (by tauto)]
    have hopen : Text.nesting '[' = 1 := by decide
    have hclose : Text.nestingOf [']'] = -1 := by decide
    constructor
    · intro front back h
      -- a comma is neither of the brackets, so it stands between them
      cases front with
      | nil => exact absurd (List.cons.inj h).1 (by decide)
      | cons d front =>
        rw [List.cons_append] at h
        obtain ⟨rfl, hinner⟩ := List.cons.inj h
        have hinside : ∀ c ∈ front, Text.nesting c = 0 := by
          rcases List.append_eq_append_iff.mp hinner with ⟨mid, hmid, hback⟩ | ⟨mid, hmid, -⟩
          · cases mid with
            | nil => exact absurd (List.cons.inj hback).1 (by decide)
            | cons e mid =>
              have htail := congrArg List.length hback
              simp at htail
          · intro c hc
            exact hflat c (by rw [hmid]; exact List.mem_append_left _ hc)
        rw [Text.nestingOf_cons, hopen, Text.nestingOf_eq_zero hinside]
        decide
    · rw [Text.nestingOf_cons, Text.nestingOf_append, hopen, hclose, Text.nestingOf_eq_zero hflat]
      decide

/-- No comma of a printed parameter stands outside brackets. -/
lemma isUncut_text : Text.IsUncut 0 p.text ∧ Text.nestingOf p.text = 0 := by
  obtain ⟨hnesting, hcomma⟩ := Text.nestingOf_of_words fun c => p.cases_of_mem_front
  obtain ⟨huncut, hsize⟩ := p.isUncut_suffix
  have htail := Text.isBlankOnly_iff.mp p.isBlankOnly_tail
  have hsplit : p.text = (p.indent.text ++ (Text.spaced p.parts ++ (p.name ++ p.gap.text))) ++
      (p.suffix ++ p.tail) := by
    unfold text
    simp
  obtain ⟨hblank, hfree⟩ := Text.nestingOf_of_words fun c hc => .inr (htail c hc)
  rw [hsplit]
  constructor
  · refine (Text.isUncut_of_not_mem hcomma 0).append ?_
    rw [hnesting, add_zero]
    exact huncut.append (Text.isUncut_of_not_mem hfree _)
  · rw [Text.nestingOf_append, hnesting, Text.nestingOf_append, hsize, hblank]
    rfl

/-- A printed list: the parameters separated by commas, or only blanks if there are none. -/
def listText (blank : Gap) : List ParameterText → Text
  | [] => blank.text
  | p :: ps => [','].intercalate ((p :: ps).map text)

/-- A printed list of at least one parameter is more than one word. -/
lemma trim_ne_of_words {t : Text} {w v : Text} {ws : List Text} (h : Text.words t = w :: v :: ws) :
    ¬(Text.trim t = [] ∨ Text.trim t = ("void" : Text)) := by
  obtain ⟨g, hg, hsplit⟩ := Text.exists_trim_append t
  have hindent := Text.isBlankOnly_indent t
  rintro (hnil | hvoid)
  · rw [hnil, List.nil_append] at hsplit
    have hnone := Text.words_append_of_isBlankOnly hg []
    rw [List.append_nil] at hnone
    rw [hsplit, Text.words_append_of_isBlankOnly hindent, hnone, Text.words] at h
    exact absurd h (by simp)
  · have hident : Text.isIdent "void" = true := by decide
    rw [hvoid] at hsplit
    rw [hsplit, Text.words_append_of_isBlankOnly hindent, Text.words_append_blank (by decide)
      (Text.isBlank_of_isIdent hident) hg] at h
    exact absurd h (by simp)

/-- **A printed list of parameters is read back**: one parameter for each item, in order, with its
name, its type and array size, its qualifier and the values of its type. -/
theorem parseParameters_listText (config : Config) (blank : Gap) (items : List ParameterText) :
    Signature.parseParameters config (listText blank items) =
      items.map fun p => p.parameter config := by
  unfold Signature.parseParameters
  cases items with
  | nil =>
    have hblank : Text.trim blank.text = [] := by
      rw [Text.trim, Text.trimLeft_eq_nil blank.isBlankOnly]
      rfl
    rw [listText, if_pos (.inl hblank)]
    rfl
  | cons p ps =>
    have hcut : Text.splitTopLevel [','] (listText blank (p :: ps)) = (p :: ps).map text := by
      refine Text.splitTopLevel_intercalate (by simp) fun t ht => ?_
      obtain ⟨q, -, rfl⟩ := List.mem_map.mp ht
      exact q.isUncut_text
    -- the list holds a type and, behind blanks, a name
    obtain ⟨w, v, ws, hwords⟩ :
        ∃ w v ws, Text.words (listText blank (p :: ps)) = w :: v :: ws := by
      obtain ⟨more, hmore⟩ : ∃ more, listText blank (p :: ps) = p.text ++ more := by
        cases ps with
        | nil => exact ⟨[], by simp [listText]⟩
        | cons q qs =>
          refine ⟨',' :: [','].intercalate ((q :: qs).map text), ?_⟩
          rw [listText, List.map_cons, List.map_cons, List.intercalate_cons_cons]
          simp
      obtain ⟨rest, ws, hname⟩ := Text.exists_words_append (Text.ne_nil_of_isIdent p.isName.1)
        (Text.isBlank_of_isIdent p.isName.1) (p.gap.text ++ (p.suffix ++ p.tail) ++ more)
      obtain ⟨u, us, hparts⟩ := List.exists_cons_of_ne_nil
        (show p.parts.map Prod.fst ≠ [] by simp [parts])
      rw [hmore, words_text, List.append_assoc, hname, hparts]
      cases us with
      | nil => exact ⟨_, _, _, rfl⟩
      | cons u' us => exact ⟨_, _, _, rfl⟩
    rw [if_neg (trim_ne_of_words hwords), hcut, List.filterMap_map]
    exact List.filterMap_eq_map_iff_forall_eq_some.mpr fun q _ => parameter?_text q config

lemma isBlankOnly_space : Text.isBlankOnly [' '] = true := by decide

lemma isBlankOnly_lineBreak : Text.isBlankOnly ['\n', ' '] = true := by decide

/-- Two parameters with silent words on both sides of a qualifier, a line break between them, and an
array size that holds a comma. -/
def qualifiedItems : List ParameterText :=
  [{ indent := ⟨[], Target.isBlankOnly_nil⟩
     lead := [("const", ⟨[' '], isBlankOnly_space⟩)]
     qualifier := some (.input, ⟨[' '], isBlankOnly_space⟩)
     middle := [("highp", ⟨[' '], isBlankOnly_space⟩)]
     type := "vec2"
     space := ⟨[' '], isBlankOnly_space⟩
     name := "p"
     gap := ⟨[' '], isBlankOnly_space⟩
     size := none
     isSilent := by decide
     isQualified := by decide
     isType := by decide
     isSpace := by decide
     isName := by decide
     isSize := by decide },
   { indent := ⟨['\n', ' '], isBlankOnly_lineBreak⟩
     lead := []
     qualifier := some (.both, ⟨[' '], isBlankOnly_space⟩)
     middle := []
     type := "float"
     space := ⟨['\n', ' '], isBlankOnly_lineBreak⟩
     name := "q"
     gap := ⟨[' '], isBlankOnly_space⟩
     size := some ("2,3", ⟨[], Target.isBlankOnly_nil⟩)
     isSilent := by decide
     isQualified := by decide
     isType := by decide
     isSpace := by decide
     isName := by decide
     isSize := by
       rintro part ⟨⟩ c (hc : c ∈ ['2', ',', '3'])
       fin_cases hc <;> decide }]

/-- Both parameters are read back from their text. -/
theorem parseParameters_listText_qualified :
    listText ⟨[], Target.isBlankOnly_nil⟩ qualifiedItems =
      "const in highp vec2 p ,\n inout float\n q [2,3]" ∧
    Signature.parseParameters {} "const in highp vec2 p ,\n inout float\n q [2,3]" =
      qualifiedItems.map (fun p => p.parameter {}) ∧
    qualifiedItems.map (fun p => ((p.parameter {}).name, (p.parameter {}).type,
      (p.parameter {}).qualifier)) =
        ([("p", "vec2", .input), ("q", "float[2,3]", .both)] : List (Text × Text × Qualifier)) := by
  have htext : listText ⟨[], Target.isBlankOnly_nil⟩ qualifiedItems =
      "const in highp vec2 p ,\n inout float\n q [2,3]" := by decide +kernel
  have hparsed := parseParameters_listText {} ⟨[], Target.isBlankOnly_nil⟩ qualifiedItems
  rw [htext] at hparsed
  exact ⟨htext, hparsed, by decide +kernel⟩

end ParameterText

end ShaderProbe
