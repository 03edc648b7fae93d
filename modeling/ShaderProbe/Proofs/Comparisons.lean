import Mathlib
import ShaderProbe.Proofs.StatementSpans

/-!
# Assignments and comparisons

An assignment and a comparison are written alike: a variable, accessors, an operator, a value and a
`;`.  Such a text is never read as a declaration, so no text is both a declaration and an assignment
and the order in which the kinds are tried does not matter.

A comparison is read as an assignment in one case only.  An index is read up to the first `]`, so
the `]` of an index inside of it ends it too early.  Where an assignment follows there, as in
`a[b[0] = 1] == 2;`, it is taken for one to `a`.
-/

namespace ShaderProbe

/-- No blanks. -/
def Gap.empty : Gap := ⟨[], Target.isBlankOnly_nil⟩

/-- A blank in front of some blanks. -/
def Gap.cons (c : Char) (gap : Gap) (h : isBlank c = true) : Gap where
  text := c :: gap.text
  isBlankOnly := by rw [Text.isBlankOnly, List.all_cons, h, Bool.true_and]; exact gap.isBlankOnly

namespace Text

/-- The square brackets of a text match: none is closed before it is opened, and none stays open. -/
def isBracketed (t : Text) : Bool :=
  t.count '[' == t.count ']' && t.inits.all fun front => front.count ']' ≤ front.count '['

/-- Behind a part of a text whose brackets match, every bracket that is opened is closed. -/
lemma mem_of_isBracketed {front t : Text} (h : isBracketed (front ++ t) = true) {s rest : Text}
    (ht : t = s ++ '[' :: rest) : ']' ∈ rest := by
  simp only [isBracketed, Bool.and_eq_true, beq_iff_eq, List.all_eq_true, List.mem_inits,
    decide_eq_true_eq] at h
  obtain ⟨hall, hfront⟩ := h
  have hle := hfront (front ++ s) ⟨'[' :: rest, by rw [ht, List.append_assoc]⟩
  subst ht
  simp only [List.count_append, List.count_cons_self,
    List.count_cons_of_ne (show '[' ≠ ']' by decide)] at hall hle
  exact List.count_pos_iff.mp (by omega)

/-- Behind blanks the text goes on with a character that belongs to no word. -/
def StartsSign (t : Text) : Prop :=
  ∃ (gap : Gap) (c : Char) (rest : Text), t = gap.text ++ c :: rest ∧ isWordChar c = false ∧
    isBlank c = false

/-- A text that goes on with a sign does not start with a word. -/
lemma StartsSign.startsWord {t : Text} (h : StartsSign t) : startsWord t = false := by
  obtain ⟨gap, c, rest, rfl, hc, -⟩ := h
  have hgap := isBlankOnly_iff.mp gap.isBlankOnly
  cases hg : gap.text with
  | nil => exact hc
  | cons d g => exact isWordChar_eq_false_of_isBlank (hgap d (by rw [hg]; exact List.mem_cons_self))

/-- An identifier is read up to its end. -/
lemma readIdent?_append {name rest : Text} (hname : isIdent name = true)
    (hrest : startsWord rest = false) : readIdent? (name ++ rest) = some (name, rest) := by
  cases name with
  | nil => exact absurd hname (by decide)
  | cons c w =>
    rw [isIdent, Bool.and_eq_true, List.all_eq_true] at hname
    have hend : rest.takeWhile isWordChar = [] ∧ rest.dropWhile isWordChar = rest := by
      cases rest with
      | nil => exact ⟨rfl, rfl⟩
      | cons d rest =>
        have hd : ¬isWordChar d = true := by
          rw [show isWordChar d = false from hrest]
          decide
        exact ⟨List.takeWhile_cons_of_neg hd, List.dropWhile_cons_of_neg hd⟩
    rw [List.cons_append, readIdent?, if_pos hname.1, List.takeWhile_append_of_pos hname.2,
      List.dropWhile_append_of_pos hname.2, hend.1, hend.2, List.append_nil]

end Text

namespace Statement

/-! ### Accessors -/

/-- An accessor behind a variable, with the blanks in front of its tokens. -/
inductive Accessor where
  /-- `.name` -/
  | member (gap space : Gap) (name : Text) (isName : Text.isIdent name = true)
  /-- `[content]` -/
  | index (gap : Gap) (content : Text)

namespace Accessor

/-- The text of an accessor. -/
def text : Accessor → Text
  | member gap space name _ => gap.text ++ '.' :: (space.text ++ name)
  | index gap content => gap.text ++ '[' :: (content ++ [']'])

/-- The first `]` of an index ends it. -/
def IsPlain : Accessor → Prop
  | member .. => True
  | index _ content => ']' ∉ content

/-- The brackets inside an index match. -/
def IsBracketed : Accessor → Prop
  | member .. => True
  | index _ content => Text.isBracketed content = true

instance (a : Accessor) : Decidable a.IsPlain :=
  match a with
  | member .. => inferInstanceAs (Decidable True)
  | index _ content => inferInstanceAs (Decidable (']' ∉ content))

instance (a : Accessor) : Decidable a.IsBracketed :=
  match a with
  | member .. => inferInstanceAs (Decidable True)
  | index _ content => inferInstanceAs (Decidable (Text.isBracketed content = true))

/-- The text of accessors one after another. -/
def textOf (accessors : List Accessor) : Text := accessors.flatMap text

@[simp] lemma textOf_nil : textOf [] = [] := rfl

@[simp] lemma textOf_cons (a : Accessor) (accessors : List Accessor) :
    textOf (a :: accessors) = a.text ++ textOf accessors := List.flatMap_cons

/-- A variable is followed by a sign, with or without accessors between. -/
lemma startsSign_textOf (accessors : List Accessor) {t : Text} (ht : Text.StartsSign t) :
    Text.StartsSign (textOf accessors ++ t) := by
  cases accessors with
  | nil => exact ht
  | cons a accessors =>
    cases a with
    | member gap space name h =>
      refine ⟨gap, '.', space.text ++ (name ++ (textOf accessors ++ t)), ?_, by decide, by decide⟩
      simp [text]
    | index gap content =>
      refine ⟨gap, '[', content ++ ']' :: (textOf accessors ++ t), ?_, by decide, by decide⟩
      simp [text]

end Accessor

open Accessor

/-! ### Reading accessors -/

/-- Where no member goes on, the reading is between accessors. -/
lemma afterAccessors?_place {access : Access} (h : access = .between ∨ access = .member) {c : Char}
    (hc : ¬(access = .member ∧ isWordChar c = true)) (t : Text) :
    afterAccessors? access (c :: t) =
      if isBlank c then afterAccessors? .between t
      else if c = '.' then afterAccessors? .point t
      else if c = '[' then afterAccessors? .index t
      else some (c :: t) := by
  rcases h with rfl | rfl
  all_goals rw [afterAccessors?, if_neg hc]

/-- Blanks between accessors and behind a point are passed over. -/
lemma afterAccessors?_blank {access : Access} (h : access = .between ∨ access = .point) {g : Text}
    (hg : Text.isBlankOnly g = true) (t : Text) :
    afterAccessors? access (g ++ t) = afterAccessors? access t := by
  induction g with
  | nil => rfl
  | cons c g ih =>
    rw [Text.isBlankOnly, List.all_cons, Bool.and_eq_true] at hg
    rw [← ih hg.2, List.cons_append]
    rcases h with rfl | rfl
    · rw [afterAccessors?_place (.inl rfl) (by simp), if_pos hg.1]
    · rw [afterAccessors?, if_pos hg.1]

/-- An index is read up to its first `]`. -/
lemma afterAccessors?_index {content : Text} (h : ']' ∉ content) (t : Text) :
    afterAccessors? .index (content ++ ']' :: t) = afterAccessors? .between t := by
  induction content with
  | nil => rfl
  | cons c content ih =>
    rw [List.mem_cons, not_or] at h
    rw [List.cons_append, afterAccessors?, if_neg (Ne.symm h.1), ih h.2]

/-- A member is read up to the end of its name. -/
lemma afterAccessors?_member {name t : Text} (h : ∀ c ∈ name, isWordChar c = true)
    (ht : Text.startsWord t = false) :
    afterAccessors? .member (name ++ t) = afterAccessors? .between t := by
  induction name with
  | nil =>
    cases t with
    | nil => rfl
    | cons d t =>
      have hd : isWordChar d = false := ht
      rw [List.nil_append, afterAccessors?_place (.inr rfl) (by simp [hd]),
        afterAccessors?_place (.inl rfl) (by simp)]
  | cons c name ih =>
    rw [List.cons_append, afterAccessors?, if_pos ⟨rfl, h c List.mem_cons_self⟩,
      ih fun d hd => h d (List.mem_cons_of_mem c hd)]

/-- An opening bracket and what follows it up to the first `]` are passed over. -/
lemma afterAccessors?_bracket (gap : Gap) {content : Text} (h : ']' ∉ content) (t : Text) :
    afterAccessors? .between (gap.text ++ '[' :: (content ++ ']' :: t)) =
      afterAccessors? .between t := by
  rw [afterAccessors?_blank (.inl rfl) gap.isBlankOnly, afterAccessors?_place (.inl rfl) (by simp),
    if_neg (by decide), if_neg (by decide), if_pos rfl, afterAccessors?_index h]

/-- A plain accessor is passed over. -/
lemma afterAccessors?_text {a : Accessor} (ha : a.IsPlain) {t : Text}
    (ht : Text.startsWord t = false) :
    afterAccessors? .between (a.text ++ t) = afterAccessors? .between t := by
  cases a with
  | member gap space name hname =>
    cases name with
    | nil => exact absurd hname (by decide)
    | cons c w =>
      rw [Text.isIdent, Bool.and_eq_true, List.all_eq_true] at hname
      have hblank := isBlank_eq_false_of_isWordChar (isWordChar_of_isIdentStart hname.1)
      rw [Accessor.text, List.append_assoc, List.cons_append, List.append_assoc,
        afterAccessors?_blank (.inl rfl) gap.isBlankOnly,
        afterAccessors?_place (.inl rfl) (by simp), if_neg (by decide), if_pos rfl,
        afterAccessors?_blank (.inr rfl) space.isBlankOnly, List.cons_append, afterAccessors?,
        if_neg (by simp [hblank]), if_pos hname.1, afterAccessors?_member hname.2 ht]
  | index gap content =>
    rw [Accessor.text, List.append_assoc, List.cons_append, List.append_assoc]
    exact afterAccessors?_bracket gap ha t

/-- Plain accessors and the blanks behind them are passed over. -/
lemma afterAccessors?_textOf {accessors : List Accessor} (h : ∀ a ∈ accessors, a.IsPlain)
    {t : Text} (ht : Text.StartsSign t) :
    afterAccessors? .between (textOf accessors ++ t) = afterAccessors? .between t := by
  induction accessors with
  | nil => rfl
  | cons a accessors ih =>
    rw [textOf_cons, List.append_assoc, afterAccessors?_text (h a List.mem_cons_self)
      (startsSign_textOf accessors ht).startsWord,
      ih fun b hb => h b (List.mem_cons_of_mem a hb)]

/-- A character moves the reading of accessors from one place to another. -/
inductive Moves : Access → Char → Access → Prop
  | blank {access : Access} {c : Char} (h : access = .between ∨ access = .member)
      (hc : isBlank c = true) : Moves access c .between
  | point {access : Access} (h : access = .between ∨ access = .member) : Moves access '.' .point
  | bracket {access : Access} (h : access = .between ∨ access = .member) : Moves access '[' .index
  | word {c : Char} (hc : isWordChar c = true) : Moves .member c .member
  | space {c : Char} (hc : isBlank c = true) : Moves .point c .point
  | start {c : Char} (hc : isIdentStart c = true) : Moves .point c .member
  | inside {c : Char} (hc : c ≠ ']') : Moves .index c .index
  | close : Moves .index ']' .between

/-- A character moves the reading on, is refused, or ends the reading in front of it. -/
def IsDecided (access : Access) (c : Char) : Prop :=
  (∃ next, Moves access c next ∧ ∀ t, afterAccessors? access (c :: t) = afterAccessors? next t) ∨
    (∀ t, afterAccessors? access (c :: t) = none) ∨
      ((access = .between ∨ access = .member) ∧
        ∀ t, afterAccessors? access (c :: t) = some (c :: t))

/-- Between accessors, a character moves the reading on or ends it. -/
lemma isDecided_place {access : Access} (h : access = .between ∨ access = .member)
    {c : Char} (hc : ¬(access = .member ∧ isWordChar c = true)) :
    IsDecided access c := by
  by_cases hblank : isBlank c = true
  · exact .inl ⟨.between, .blank h hblank,
      fun t => by rw [afterAccessors?_place h hc, if_pos hblank]⟩
  by_cases hpoint : c = '.'
  · exact .inl ⟨.point, hpoint ▸ .point h, fun t => by
      rw [afterAccessors?_place h hc, if_neg hblank, if_pos hpoint]⟩
  by_cases hbracket : c = '['
  · exact .inl ⟨.index, hbracket ▸ .bracket h, fun t => by
      rw [afterAccessors?_place h hc, if_neg hblank, if_neg hpoint, if_pos hbracket]⟩
  · exact .inr (.inr ⟨h, fun t => by
      rw [afterAccessors?_place h hc, if_neg hblank, if_neg hpoint, if_neg hbracket]⟩)

/-- At every place, the next character decides how the reading goes on. -/
lemma isDecided (access : Access) (c : Char) : IsDecided access c := by
  cases access with
  | index =>
    by_cases hc : c = ']'
    · exact .inl ⟨.between, hc ▸ .close, fun t => by rw [afterAccessors?, if_pos hc]⟩
    · exact .inl ⟨.index, .inside hc, fun t => by rw [afterAccessors?, if_neg hc]⟩
  | point =>
    by_cases hblank : isBlank c = true
    · exact .inl ⟨.point, .space hblank, fun t => by rw [afterAccessors?, if_pos hblank]⟩
    · by_cases hc : isIdentStart c = true
      · exact .inl ⟨.member, .start hc, fun t => by
          rw [afterAccessors?, if_neg hblank, if_pos hc]⟩
      · exact .inr (.inl fun t => by rw [afterAccessors?, if_neg hblank, if_neg hc])
  | between => exact isDecided_place (.inl rfl) (by simp)
  | member =>
    by_cases hc : isWordChar c = true
    · exact .inl ⟨.member, .word hc, fun t => by rw [afterAccessors?, if_pos ⟨rfl, hc⟩]⟩
    · exact isDecided_place (.inr rfl) (by simp [hc])

/-! ### What is read as accessors -/

/-- Plain accessors with blanks behind them. -/
def IsAccess (front : Text) : Prop :=
  ∃ (accessors : List Accessor) (gap : Gap), (∀ a ∈ accessors, a.IsPlain) ∧
    front = textOf accessors ++ gap.text

/-- What is passed over from a place within accessors on. -/
def IsPassed (front : Text) : Access → Prop
  | .between => IsAccess front
  | .point => ∃ (space : Gap) (name rest : Text), Text.isIdent name = true ∧ IsAccess rest ∧
      front = space.text ++ (name ++ rest)
  | .member => ∃ word rest : Text, (∀ c ∈ word, isWordChar c = true) ∧ IsAccess rest ∧
      front = word ++ rest
  | .index => ∃ content rest : Text, ']' ∉ content ∧ IsAccess rest ∧ front = content ++ ']' :: rest

/-- No accessors and no blanks. -/
lemma isAccess_nil : IsAccess [] := ⟨[], Gap.empty, by simp, rfl⟩

/-- A blank in front belongs to the first accessor or to the blanks. -/
lemma IsAccess.blank {front : Text} (h : IsAccess front) {c : Char} (hc : isBlank c = true) :
    IsAccess (c :: front) := by
  obtain ⟨accessors, gap, hplain, rfl⟩ := h
  cases accessors with
  | nil => exact ⟨[], Gap.cons c gap hc, by simp, rfl⟩
  | cons a accessors =>
    rw [List.forall_mem_cons] at hplain
    cases a with
    | member g space name hname =>
      exact ⟨.member (Gap.cons c g hc) space name hname :: accessors, gap,
        List.forall_mem_cons.mpr hplain, rfl⟩
    | index g content =>
      exact ⟨.index (Gap.cons c g hc) content :: accessors, gap,
        List.forall_mem_cons.mpr hplain, rfl⟩

/-- A point and what is passed over behind it. -/
lemma IsAccess.point {front : Text} (h : IsPassed front .point) : IsAccess ('.' :: front) := by
  obtain ⟨space, name, rest, hname, ⟨accessors, gap, hplain, rfl⟩, rfl⟩ := h
  refine ⟨.member Gap.empty space name hname :: accessors, gap,
    List.forall_mem_cons.mpr ⟨trivial, hplain⟩, ?_⟩
  simp [Accessor.text, Gap.empty]

/-- A bracket and what is passed over behind it. -/
lemma IsAccess.bracket {front : Text} (h : IsPassed front .index) : IsAccess ('[' :: front) := by
  obtain ⟨content, rest, hcontent, ⟨accessors, gap, hplain, rfl⟩, rfl⟩ := h
  refine ⟨.index Gap.empty content :: accessors, gap,
    List.forall_mem_cons.mpr ⟨hcontent, hplain⟩, ?_⟩
  simp [Accessor.text, Gap.empty]

/-- Accessors are passed over where a member may end. -/
lemma IsAccess.isPassed {front : Text} (h : IsAccess front) {access : Access}
    (haccess : access = .between ∨ access = .member) : IsPassed front access := by
  rcases haccess with rfl | rfl
  · exact h
  · exact ⟨[], front, by simp, h, rfl⟩

/-- A move puts its character in front of what is passed over. -/
lemma Moves.isPassed {access next : Access} {c : Char} (h : Moves access c next) {front : Text}
    (hfront : IsPassed front next) : IsPassed (c :: front) access := by
  cases h with
  | blank haccess hc => exact (IsAccess.blank hfront hc).isPassed haccess
  | point haccess => exact (IsAccess.point hfront).isPassed haccess
  | bracket haccess => exact (IsAccess.bracket hfront).isPassed haccess
  | word hc =>
    obtain ⟨word, rest, hword, hrest, rfl⟩ := hfront
    exact ⟨c :: word, rest, List.forall_mem_cons.mpr ⟨hc, hword⟩, hrest, rfl⟩
  | space hc =>
    obtain ⟨space, name, rest, hname, hrest, rfl⟩ := hfront
    exact ⟨Gap.cons c space hc, name, rest, hname, hrest, rfl⟩
  | start hc =>
    obtain ⟨word, rest, hword, hrest, rfl⟩ := hfront
    refine ⟨Gap.empty, c :: word, rest, ?_, hrest, rfl⟩
    rw [Text.isIdent, hc, Bool.true_and, List.all_eq_true]
    exact hword
  | inside hc =>
    obtain ⟨content, rest, hcontent, hrest, rfl⟩ := hfront
    refine ⟨c :: content, rest, ?_, hrest, rfl⟩
    rw [List.mem_cons, not_or]
    exact ⟨Ne.symm hc, hcontent⟩
  | close => exact ⟨[], front, by simp, hfront, rfl⟩

/-- What is left behind the accessors follows a text that is passed over. -/
lemma exists_of_afterAccessors? {access : Access} {t rest : Text}
    (h : afterAccessors? access t = some rest) :
    ∃ front, IsPassed front access ∧ t = front ++ rest := by
  induction t generalizing access with
  | nil =>
    rw [afterAccessors?] at h
    split at h
    · rename_i haccess
      exact ⟨[], isAccess_nil.isPassed haccess, Option.some.inj h⟩
    · exact absurd h (by simp)
  | cons c t ih =>
    rcases isDecided access c with ⟨next, hmove, hnext⟩ | hnone | ⟨haccess, hstop⟩
    · obtain ⟨front, hfront, rfl⟩ := ih (hnext t ▸ h)
      exact ⟨c :: front, hmove.isPassed hfront, rfl⟩
    · exact absurd (hnone t ▸ h) (by simp)
    · exact ⟨[], isAccess_nil.isPassed haccess, Option.some.inj (hstop t ▸ h)⟩

/-- A `]` that closes no bracket of the text in front of it is not passed over: whatever follows it,
the reading ends in front of it in the same way. -/
lemma afterAccessors?_closing {access : Access} {t : Text}
    (hopen : ∀ s rest, t = s ++ '[' :: rest → ']' ∈ rest) (hindex : access = .index → ']' ∈ t) :
    ∃ left : Option Text, ∀ more,
      afterAccessors? access (t ++ ']' :: more) = left.map (· ++ ']' :: more) := by
  induction t generalizing access with
  | nil =>
    cases access with
    | index => exact absurd (hindex rfl) (by simp)
    | point => exact ⟨none, fun more => rfl⟩
    | between => exact ⟨some [], fun more => rfl⟩
    | member => exact ⟨some [], fun more => rfl⟩
  | cons c t ih =>
    have hopen' : ∀ s rest, t = s ++ '[' :: rest → ']' ∈ rest := fun s rest ht =>
      hopen (c :: s) rest (by rw [ht]; rfl)
    rcases isDecided access c with ⟨next, hmove, hnext⟩ | hnone | ⟨-, hstop⟩
    · -- an index is entered by a `[`, whose `]` is still to come, or gone on with
      have hindex' : next = .index → ']' ∈ t := by
        rintro rfl
        cases hmove with
        | bracket _ => exact hopen [] t rfl
        | inside hc => exact (List.mem_cons.mp (hindex rfl)).resolve_left (Ne.symm hc)
      obtain ⟨left, hleft⟩ := ih hopen' hindex'
      exact ⟨left, fun more => (hnext _).trans (hleft more)⟩
    · exact ⟨none, fun more => hnone _⟩
    · exact ⟨some (c :: t), fun more => hstop _⟩

/-! ### Operators -/

/-- The operators of an assignment. -/
def assigning : List Text := ["=", "+=", "-=", "*=", "/="]

/-- The operators of a comparison. -/
def comparing : List Text := ["==", "!=", "<=", ">="]

/-- An operator that is read is one of an assignment. -/
lemma readOperator?_eq_some_iff {t operator value : Text} :
    readOperator? t = some (operator, value) ↔ operator ∈ assigning ∧ t = operator ++ value := by
  constructor
  · intro h
    unfold readOperator? at h
    split at h
    · obtain ⟨rfl, rfl⟩ := Prod.mk.inj (Option.some.inj h)
      exact ⟨by decide, rfl⟩
    · split at h
      · rename_i hc
        obtain ⟨rfl, rfl⟩ := Prod.mk.inj (Option.some.inj h)
        simp only [List.mem_cons, List.not_mem_nil, or_false] at hc
        rcases hc with rfl | rfl | rfl | rfl
        all_goals exact ⟨by decide, rfl⟩
      · exact absurd h (by simp)
    · exact absurd h (by simp)
  · rintro ⟨h, rfl⟩
    simp only [assigning, List.mem_cons, List.not_mem_nil, or_false] at h
    rcases h with rfl | rfl | rfl | rfl | rfl
    all_goals rfl

/-- An operator starts with a sign that is no accessor. -/
lemma exists_of_mem_operators {operator : Text} (h : operator ∈ assigning ++ comparing) :
    ∃ c rest, operator = c :: rest ∧ isWordChar c = false ∧ isBlank c = false ∧ c ≠ '.' ∧ c ≠ '[' := by
  simp only [assigning, comparing, List.cons_append, List.nil_append, List.mem_cons,
    List.not_mem_nil, or_false] at h
  rcases h with rfl | rfl | rfl | rfl | rfl | rfl | rfl | rfl | rfl
  all_goals exact ⟨_, _, rfl, by decide, by decide, by decide, by decide⟩

/-- A variable is written: its name is no word of the language. -/
def IsVariable (name : Text) : Prop :=
  name ∉ Header.controlKeywords ∧ name ∉ GlslType.variableKeywords

/-- The operator and the first sign of the value make up `==`. -/
def IsEquality (operator value : Text) : Prop :=
  operator = ['='] ∧ (Text.trimLeft value).head? = some '='

/-- An assignment operator at the start of a comparison is that of `==`. -/
lemma isEquality_of_comparing {operator sign rest value : Text} (h : operator ∈ comparing)
    (hsign : sign ∈ assigning) (hsplit : operator ++ rest = sign ++ value) :
    IsEquality sign value := by
  have hread := readOperator?_eq_some_iff.mpr ⟨hsign, hsplit⟩
  simp only [comparing, List.mem_cons, List.not_mem_nil, or_false] at h
  rcases h with rfl | rfl | rfl | rfl
  · obtain ⟨rfl, rfl⟩ := Prod.mk.inj (Option.some.inj hread)
    exact ⟨rfl, rfl⟩
  all_goals exact absurd hread (by simp [readOperator?])

/-- Name and operator of a text that follows a name and reads `accessors operator value;`. -/
def assignedTo? (name t : Text) : Option (Text × Text) := do
  let rest ← afterAccessors? .between t
  let (operator, value) ← readOperator? rest
  if value.getLast? == some ';' && !Header.controlKeywords.contains name
      && !GlslType.variableKeywords.contains name
      && !(operator == ['='] && (Text.trimLeft value).head? == some '=') then
    some (name, operator)
  else none

/-- The name is read first. -/
lemma assigned?_append (indent : Gap) {name rest : Text} (hname : Text.isIdent name = true)
    (hrest : Text.startsWord rest = false) :
    assigned? (indent.text ++ (name ++ rest)) = assignedTo? name rest := by
  have htrim : Text.trimLeft (name ++ rest) = name ++ rest := by
    obtain ⟨c, w, rfl⟩ := List.exists_cons_of_ne_nil (Text.ne_nil_of_isIdent hname)
    exact Text.trimLeft_cons (Text.isBlank_of_isIdent hname c List.mem_cons_self) _
  unfold assigned?
  rw [Text.trimLeft_append indent.isBlankOnly, htrim, Text.readIdent?_append hname hrest]
  rfl

/-- What is checked behind the name. -/
lemma assignedTo?_eq_some_iff {name t found operator : Text} :
    assignedTo? name t = some (found, operator) ↔
      found = name ∧ IsVariable name ∧
      ∃ value, afterAccessors? .between t = some (operator ++ value) ∧
        operator ∈ assigning ∧ value.getLast? = some ';' ∧ ¬IsEquality operator value := by
  have hchecks : ∀ operator value : Text,
      (value.getLast? == some ';' && !Header.controlKeywords.contains name
        && !GlslType.variableKeywords.contains name
        && !(operator == ['='] && (Text.trimLeft value).head? == some '=')) = true ↔
      value.getLast? = some ';' ∧ IsVariable name ∧ ¬IsEquality operator value := by
    intro operator value
    have hwords : ∀ l : List Text, l.contains name = false ↔ name ∉ l := by simp
    simp only [IsVariable, IsEquality, Bool.and_eq_true, beq_iff_eq, Bool.not_eq_true',
      Bool.and_eq_false_iff, beq_eq_false_iff_ne, hwords, and_assoc, not_and_or, ne_eq]
  unfold assignedTo?
  simp only [Option.bind_eq_bind, Option.bind_eq_some_iff]
  constructor
  · rintro ⟨rest, hrest, ⟨sign, value⟩, hsign, h⟩
    split at h
    · rename_i hall
      obtain ⟨hlast, hvariable, hequality⟩ := (hchecks sign value).mp hall
      obtain ⟨rfl, rfl⟩ := Prod.mk.inj (Option.some.inj h)
      obtain ⟨hmem, rfl⟩ := readOperator?_eq_some_iff.mp hsign
      exact ⟨rfl, hvariable, value, hrest, hmem, hlast, hequality⟩
    · exact absurd h (by simp)
  · rintro ⟨rfl, hvariable, value, hrest, hmem, hlast, hequality⟩
    refine ⟨_, hrest, (operator, value), readOperator?_eq_some_iff.mpr ⟨hmem, rfl⟩, ?_⟩
    rw [if_pos ((hchecks operator value).mpr ⟨hlast, hvariable, hequality⟩)]

/-- An operator ends the accessors. -/
lemma afterAccessors?_operator (gap : Gap) {operator : Text}
    (h : operator ∈ assigning ++ comparing) (t : Text) :
    Text.StartsSign (gap.text ++ (operator ++ t)) ∧
      afterAccessors? .between (gap.text ++ (operator ++ t)) = some (operator ++ t) := by
  obtain ⟨c, rest, rfl, hword, hblank, hpoint, hbracket⟩ := exists_of_mem_operators h
  refine ⟨⟨gap, c, rest ++ t, rfl, hword, hblank⟩, ?_⟩
  rw [afterAccessors?_blank (.inl rfl) gap.isBlankOnly, List.cons_append,
    afterAccessors?_place (.inl rfl) (by simp), if_neg (by simp [hblank]), if_neg hpoint,
    if_neg hbracket]

/-! ### Operations -/

/-- A variable, accessors, an operator and a value. -/
structure Operation where
  indent : Gap
  name : Text
  accessors : List Accessor
  /-- The blanks in front of the operator. -/
  gap : Gap
  operator : Text
  /-- What stands between the operator and the `;`. -/
  value : Text
  isName : Text.isIdent name = true
  isOperator : operator ∈ assigning ++ comparing

namespace Operation

/-- The operation behind the accessors. -/
def tail (o : Operation) : Text := o.gap.text ++ (o.operator ++ (o.value ++ [';']))

/-- The operation. -/
def text (o : Operation) : Text := o.indent.text ++ (o.name ++ (textOf o.accessors ++ o.tail))

/-- The operation is an assignment, and its accessors are plain. -/
def IsAssignment (o : Operation) : Prop := o.operator ∈ assigning ∧ ∀ a ∈ o.accessors, a.IsPlain

/-- The operation is a comparison, with any expressions in its accessors. -/
def IsComparison (o : Operation) : Prop :=
  o.operator ∈ comparing ∧ ∀ a ∈ o.accessors, a.IsBracketed

/-- The operation goes on with a sign behind the variable. -/
lemma startsSign (o : Operation) : Text.StartsSign (textOf o.accessors ++ o.tail) :=
  startsSign_textOf o.accessors (afterAccessors?_operator o.gap o.isOperator _).1

/-- **The texts that are read as assignments.** -/
theorem assigned?_eq_some_iff {t name operator : Text} :
    assigned? t = some (name, operator) ↔
      ∃ o : Operation, o.IsAssignment ∧ o.text = t ∧ o.name = name ∧ o.operator = operator ∧
        IsVariable name ∧ ¬IsEquality operator (o.value ++ [';']) := by
  constructor
  · intro h
    obtain ⟨⟨found, rest⟩, hread, h⟩ := Option.bind_eq_some_iff.mp h
    obtain ⟨rfl, hvariable, value, hafter, hmem, hlast, hequality⟩ := assignedTo?_eq_some_iff.mp h
    obtain ⟨front, ⟨accessors, gap, hplain, rfl⟩, rfl⟩ := exists_of_afterAccessors? hafter
    obtain ⟨value, rfl⟩ := List.getLast?_eq_some_iff.mp hlast
    refine ⟨⟨⟨Text.indent t, Text.isBlankOnly_indent t⟩, name, accessors, gap, operator, value,
      isIdent_of_readIdent? hread, List.mem_append_left _ hmem⟩, ⟨hmem, hplain⟩, ?_, rfl, rfl,
      hvariable, hequality⟩
    conv_rhs => rw [← Text.indent_append_trimLeft t, ← Text.append_of_readIdent? hread]
    simp only [text, tail, List.append_assoc]
  · rintro ⟨o, ⟨hmem, hplain⟩, rfl, rfl, rfl, hvariable, hequality⟩
    obtain ⟨hsign, hafter⟩ := afterAccessors?_operator o.gap o.isOperator (o.value ++ [';'])
    rw [text, assigned?_append o.indent o.isName o.startsSign.startsWord, assignedTo?_eq_some_iff]
    refine ⟨rfl, hvariable, o.value ++ [';'], ?_, hmem, List.getLast?_concat, hequality⟩
    exact (afterAccessors?_textOf hplain hsign).trans hafter

/-! ### Declarations -/

/-- The words of a declaration are made of word characters, and there are two or more. -/
lemma front_of_declared? {t : Text} {v : Variable} (h : declared? t = some v) :
    (∀ c ∈ t.takeWhile (· != '='), isWordChar c = true ∨ isBlank c = true) ∧
      2 ≤ (Text.words (t.takeWhile (· != '='))).length := by
  unfold declared? at h
  split at h
  · rename_i name type front sign value hwords hvalue
    split at h
    · rename_i hall
      simp only [Bool.and_eq_true, List.all_eq_true, List.contains_iff_mem] at hall
      obtain ⟨⟨⟨⟨hqualifiers, htype⟩, hname⟩, -⟩, -⟩ := hall
      rw [List.reverse_eq_iff] at hwords
      refine ⟨fun c hc => ?_, by rw [hwords]; simp⟩
      by_cases hblank : isBlank c = true
      · exact .inr hblank
      · obtain ⟨w, hw, hcw⟩ := Text.exists_mem_words hc (Bool.eq_false_iff.mpr hblank)
        rw [hwords, List.mem_reverse, List.mem_cons, List.mem_cons] at hw
        rcases hw with rfl | rfl | hw
        · exact .inl (Text.isWordChar_of_isIdent hname c hcw)
        · exact .inl (GlslType.isWordChar_of_mem htype c hcw)
        · exact .inl ((DeclarationText.isWordChar_of_mem_qualifiers (hqualifiers w hw)).2 c hcw)
    · exact absurd h (by simp)
  · exact absurd h (by simp)

/-- **An operation is no declaration.**  Behind its first word stands a sign, and it is either the
first `=` or in front of it. -/
theorem declared?_text (o : Operation) : declared? o.text = none := by
  by_contra hsome
  obtain ⟨v, hv⟩ := Option.ne_none_iff_exists'.mp hsome
  obtain ⟨hchars, hcount⟩ := front_of_declared? hv
  obtain ⟨gap, c, rest, hrest, hword, hblank⟩ := o.startsSign
  have hname := Text.isWordChar_of_isIdent o.isName
  have hlead : ∀ d ∈ o.indent.text ++ (o.name ++ gap.text), (d != '=') = true := by
    intro d hd
    rw [bne_iff_ne]
    rintro rfl
    simp only [List.mem_append] at hd
    rcases hd with hd | hd | hd
    · exact absurd (Text.isBlankOnly_iff.mp o.indent.isBlankOnly _ hd) (by decide)
    · exact absurd (hname _ hd) (by decide)
    · exact absurd (Text.isBlankOnly_iff.mp gap.isBlankOnly _ hd) (by decide)
  have htext : o.text = (o.indent.text ++ (o.name ++ gap.text)) ++ c :: rest := by
    rw [text, hrest]
    simp
  rw [htext, List.takeWhile_append_of_pos hlead] at hchars hcount
  by_cases hc : c = '='
  · -- the sign is the first `=`, and only one word stands in front of it
    rw [List.takeWhile_cons_of_neg (by simp [hc]), List.append_nil,
      Text.words_append_of_isBlankOnly o.indent.isBlankOnly,
      Text.words_append_blank (Text.ne_nil_of_isIdent o.isName) (Text.isBlank_of_isIdent o.isName)
        gap.isBlankOnly] at hcount
    exact absurd hcount (by simp)
  · rw [List.takeWhile_cons_of_pos (by simp [hc])] at hchars
    rcases hchars c (by simp) with h | h
    · exact absurd (hword ▸ h) (by decide)
    · exact absurd (hblank ▸ h) (by decide)

end Operation

/-! ### Kinds -/

variable {code : List Text} {function : Option Signature} {s : Statement}

/-- The first kind is tried first. -/
lemma classify_cons (kind : Kind) (kinds : List Kind) :
    classify code function s (kind :: kinds) =
      classifyAs code function s kind >>= fun found =>
        found.elim (classify code function s kinds) .ok := by
  rw [classify]
  cases classifyAs code function s kind with
  | error e => rfl
  | ok found => cases found <;> rfl

/-- A kind that a statement is not of is passed over. -/
lemma classify_cons_of_none {kind : Kind} (h : classifyAs code function s kind = .ok none)
    (kinds : List Kind) :
    classify code function s (kind :: kinds) = classify code function s kinds := by
  rw [classify_cons, h]
  rfl

/-- Of two kinds, one that a statement is not of may be tried first or last. -/
lemma classify_swap_of_none {kind : Kind} (h : classifyAs code function s kind = .ok none)
    (other : Kind) :
    classify code function s [kind, other] = classify code function s [other, kind] := by
  rw [classify_cons_of_none h, classify_cons other [], classify_cons other [kind],
    classify_cons_of_none h]

/-- A text that is no declaration is not of that kind. -/
lemma classifyAs_declaration (h : declared? s.text = none) :
    classifyAs code function s .declaration = .ok none := by
  rw [classifyAs, h, Option.map_none]

/-- A text that is no assignment is not of that kind. -/
lemma classifyAs_assignment (h : assigned? s.text = none) :
    classifyAs code function s .assignment = .ok none := by
  rw [classifyAs, h]

/-- A declaration is no assignment. -/
lemma assigned?_of_declared? {t : Text} (h : declared? t ≠ none) : assigned? t = none := by
  by_contra hsome
  obtain ⟨⟨name, operator⟩, hassigned⟩ := Option.ne_none_iff_exists'.mp hsome
  obtain ⟨o, -, htext, -⟩ := Operation.assigned?_eq_some_iff.mp hassigned
  exact h (htext ▸ o.declared?_text)

/-- The order of the kinds does not matter: one of the two is passed over. -/
lemma classify_swap (code : List Text) (function : Option Signature) (s : Statement) :
    classify code function s [.declaration, .assignment] =
      classify code function s [.assignment, .declaration] := by
  by_cases hdeclared : declared? s.text = none
  · exact classify_swap_of_none (classifyAs_declaration hdeclared) .assignment
  · have hassigned := assigned?_of_declared? hdeclared
    exact (classify_swap_of_none (classifyAs_assignment hassigned) .declaration).symm

/-! ### Comparisons -/

/-- The text starts like an assignment, behind the name of a variable. -/
def StartsAssignment (t : Text) : Prop :=
  ∃ (accessors : List Accessor) (gap : Gap) (operator rest : Text), (∀ a ∈ accessors, a.IsPlain) ∧
    operator ∈ assigning ∧ t = textOf accessors ++ (gap.text ++ (operator ++ rest)) ∧
      ¬IsEquality operator rest

/-- An index that holds another one, behind which an assignment follows; among the accessors in
front of it none holds another one. -/
def AssignsInside : List Accessor → Prop
  | [] => False
  | .member .. :: accessors => AssignsInside accessors
  | .index _ content :: accessors =>
    (∃ t, content.dropWhile (· != ']') = ']' :: t ∧ StartsAssignment t) ∨
      ']' ∉ content ∧ AssignsInside accessors

/-- Blanks and a bracket in front do not make an `=`. -/
lemma isEquality_closing {operator : Text} (rest more : Text) :
    IsEquality operator (rest ++ ']' :: more) ↔ IsEquality operator rest := by
  unfold IsEquality
  by_cases hblank : Text.isBlankOnly rest = true
  · rw [Text.trimLeft_append hblank, Text.trimLeft_eq_nil hblank, Text.trimLeft_cons (by decide)]
    simp
  · obtain ⟨hne, htrim⟩ := Text.trimLeft_append_of_not_blank hblank (']' :: more)
    rw [htrim, List.head?_append_of_ne_nil _ hne]

/-- An operator does not reach over a bracket. -/
lemma exists_of_append_operator {operator value rest more : Text} (h : operator ∈ assigning)
    (hrest : rest ++ ']' :: more = operator ++ value) :
    ∃ u, rest = operator ++ u ∧ value = u ++ ']' :: more := by
  have hfree : ']' ∉ operator :=
    (by decide : ∀ operator ∈ assigning, ']' ∉ operator) operator h
  rcases List.append_eq_append_iff.mp hrest with ⟨u, hu, hvalue⟩ | ⟨u, hu, hvalue⟩
  · cases u with
    | nil => exact ⟨[], by simpa using hu.symm, by simpa using hvalue.symm⟩
    | cons d u =>
      obtain ⟨rfl, -⟩ := List.cons.inj hvalue
      exact absurd (by rw [hu]; simp) hfree
  · exact ⟨u, hu, hvalue⟩

/-- A text that holds a `]` goes on with it behind the part without one. -/
lemma exists_dropWhile_closing {content : Text} (h : ']' ∈ content) :
    ∃ t, content.dropWhile (· != ']') = ']' :: t := by
  induction content with
  | nil => exact absurd h (by simp)
  | cons c content ih =>
    by_cases hc : c = ']'
    · exact ⟨content, by rw [hc, List.dropWhile_cons_of_neg (by simp)]⟩
    · obtain ⟨t, ht⟩ := ih ((List.mem_cons.mp h).resolve_left (Ne.symm hc))
      exact ⟨t, by rw [List.dropWhile_cons_of_pos (by simp [hc]), ht]⟩

/-- Where an index is left too early, an assignment is read exactly if one follows within it. -/
lemma assignedTo?_closing {name content t more : Text} (hcontent : Text.isBracketed content = true)
    (hsplit : content.dropWhile (· != ']') = ']' :: t) (hmore : more.getLast? = some ';') :
    (assignedTo? name (t ++ ']' :: more)).isSome = true ↔ IsVariable name ∧ StartsAssignment t := by
  have hopen : ∀ s rest, t = s ++ '[' :: rest → ']' ∈ rest := by
    intro s rest ht
    have hcut : (content.takeWhile (· != ']') ++ [']']) ++ t = content := by
      rw [List.append_assoc, List.singleton_append, ← hsplit, List.takeWhile_append_dropWhile]
    exact Text.mem_of_isBracketed (hcut ▸ hcontent) ht
  have hlast : ∀ rest : Text, (rest ++ ']' :: more).getLast? = some ';' := by
    intro rest
    rw [List.getLast?_append_of_ne_nil _ (by simp), List.getLast?_cons, hmore]
    rfl
  rw [Option.isSome_iff_exists]
  constructor
  · rintro ⟨⟨found, operator⟩, h⟩
    obtain ⟨rfl, hvariable, value, hafter, hmem, -, hequality⟩ := assignedTo?_eq_some_iff.mp h
    obtain ⟨left, hleft⟩ := @afterAccessors?_closing .between t hopen (by simp)
    obtain ⟨rest, rfl, hrest⟩ := Option.map_eq_some_iff.mp ((hleft more).symm.trans hafter)
    obtain ⟨front, ⟨accessors, gap, hplain, rfl⟩, hfront⟩ := exists_of_afterAccessors? (hleft [])
    obtain ⟨value, rfl, rfl⟩ := exists_of_append_operator hmem hrest
    rw [← List.append_assoc, List.append_cancel_right_eq] at hfront
    refine ⟨hvariable, accessors, gap, operator, value, hplain, hmem, ?_, ?_⟩
    · rw [hfront, List.append_assoc]
    · rwa [isEquality_closing] at hequality
  · rintro ⟨hvariable, accessors, gap, operator, rest, hplain, hmem, rfl, hequality⟩
    obtain ⟨hsign, hafter⟩ := afterAccessors?_operator gap (List.mem_append_left _ hmem)
      (rest ++ ']' :: more)
    refine ⟨(name, operator), assignedTo?_eq_some_iff.mpr
      ⟨rfl, hvariable, rest ++ ']' :: more, ?_, hmem, hlast rest, ?_⟩⟩
    · simp only [List.append_assoc]
      exact (afterAccessors?_textOf hplain hsign).trans hafter
    · rwa [isEquality_closing]

/-- A plain accessor does not matter. -/
lemma assignedTo?_text (name : Text) {a : Accessor} (ha : a.IsPlain) {t : Text}
    (ht : Text.startsWord t = false) : assignedTo? name (a.text ++ t) = assignedTo? name t := by
  unfold assignedTo?
  rw [afterAccessors?_text ha ht]

/-- An index that holds another one is left at the first `]` inside of it. -/
lemma assignedTo?_nested (name : Text) (gap : Gap) {content t : Text}
    (hsplit : content.dropWhile (· != ']') = ']' :: t) (more : Text) :
    assignedTo? name ((Accessor.index gap content).text ++ more) =
      assignedTo? name (t ++ ']' :: more) := by
  have hfree : ']' ∉ content.takeWhile (· != ']') := fun h =>
    absurd (List.mem_takeWhile_imp h) (by simp)
  have htext : (Accessor.index gap content).text ++ more =
      gap.text ++ '[' :: (content.takeWhile (· != ']') ++ ']' :: (t ++ ']' :: more)) := by
    conv_lhs => rw [Accessor.text,
      ← List.takeWhile_append_dropWhile (l := content) (p := (· != ']')), hsplit]
    simp
  unfold assignedTo?
  rw [htext, afterAccessors?_bracket gap hfree]

/-- Behind the name of a variable, a comparison is read as an assignment exactly if there is one in
an index. -/
lemma assignedTo?_comparison {name tail : Text} {accessors : List Accessor}
    (haccessors : ∀ a ∈ accessors, a.IsBracketed) (hsign : Text.StartsSign tail)
    (hlast : tail.getLast? = some ';') (htail : assignedTo? name tail = none) :
    (assignedTo? name (textOf accessors ++ tail)).isSome = true ↔
      IsVariable name ∧ AssignsInside accessors := by
  induction accessors with
  | nil => simp [htail, AssignsInside]
  | cons a accessors ih =>
    rw [List.forall_mem_cons] at haccessors
    have hstart := (startsSign_textOf accessors hsign).startsWord
    rw [textOf_cons, List.append_assoc]
    cases a with
    | member gap space member hmember =>
      have hplain : (Accessor.member gap space member hmember).IsPlain := trivial
      rw [assignedTo?_text name hplain hstart, AssignsInside]
      exact ih haccessors.2
    | index gap content =>
      rw [AssignsInside]
      by_cases hmem : ']' ∈ content
      · obtain ⟨t, hsplit⟩ := exists_dropWhile_closing hmem
        have hmore : (textOf accessors ++ tail).getLast? = some ';' := by
          rw [List.getLast?_append, hlast]
          rfl
        rw [assignedTo?_nested name gap hsplit, assignedTo?_closing haccessors.1 hsplit hmore, hsplit]
        simp [hmem]
      · have hnone : content.dropWhile (· != ']') = [] := by
          rw [List.dropWhile_eq_nil_iff]
          intro c hc
          exact bne_iff_ne.mpr fun h => hmem (h ▸ hc)
        have hplain : (Accessor.index gap content).IsPlain := hmem
        have hrest := ih haccessors.2
        rw [assignedTo?_text name hplain hstart, hnone]
        simpa [hmem] using hrest

namespace Operation

/-- **The comparisons that are read as assignments.** -/
theorem isSome_assigned?_text {o : Operation} (h : o.IsComparison) :
    (assigned? o.text).isSome = true ↔ IsVariable o.name ∧ AssignsInside o.accessors := by
  obtain ⟨hsign, hafter⟩ := afterAccessors?_operator o.gap o.isOperator (o.value ++ [';'])
  have htail : assignedTo? o.name o.tail = none := by
    by_contra hsome
    obtain ⟨⟨name, operator⟩, hfound⟩ := Option.ne_none_iff_exists'.mp hsome
    obtain ⟨-, -, value, hvalue, hmem, -, hequality⟩ := assignedTo?_eq_some_iff.mp hfound
    exact hequality (isEquality_of_comparing h.1 hmem (Option.some.inj (hafter.symm.trans hvalue)))
  rw [text, assigned?_append o.indent o.isName o.startsSign.startsWord]
  refine assignedTo?_comparison h.2 hsign ?_ htail
  rw [tail, ← List.append_assoc, ← List.append_assoc, List.getLast?_concat]

end Operation

/-- **Declarations, assignments and comparisons are told apart.**  The order in which the kinds are
tried does not matter, as no text is written as a declaration and as an assignment.  A comparison is
of no kind, unless an index of it holds another index with an assignment behind it. -/
theorem classify_comparison (config : Config) (lines : List Text) (line : Int)
    (shown : Option Text) (function : Option Signature) :
    Target.classify config [.declaration, .assignment] lines line shown function =
      Target.classify config [.assignment, .declaration] lines line shown function ∧
    (∀ t, declared? t ≠ none →
      assigned? t = none ∧ ¬∃ o : Operation, o.IsAssignment ∧ o.text = t) ∧
    ∀ o : Operation, o.IsComparison →
      declared? o.text = none ∧
      ((assigned? o.text).isSome = true ↔ IsVariable o.name ∧ AssignsInside o.accessors) ∧
      (¬(IsVariable o.name ∧ AssignsInside o.accessors) →
        ∀ (code : List Text) (s : Statement) (kinds : List Kind),
          s.text = o.text → classify code function s kinds = .ok (.noMatch .otherStatement)) := by
  refine ⟨?_, ?_, fun o ho => ⟨o.declared?_text, o.isSome_assigned?_text ho,
    fun hinside code s kinds hs => ?_⟩⟩
  · unfold Target.classify
    simp only [classify_swap]
  · refine fun t hdeclared => ⟨assigned?_of_declared? hdeclared, ?_⟩
    rintro ⟨o, -, rfl⟩
    exact hdeclared o.declared?_text
  · have hassigned : assigned? s.text = none := by
      rw [hs, ← Option.not_isSome_iff_eq_none, o.isSome_assigned?_text ho]
      exact hinside
    have hdeclared : declared? s.text = none := hs ▸ o.declared?_text
    induction kinds with
    | nil => rfl
    | cons kind kinds ih =>
      cases kind with
      | declaration => rw [classify_cons_of_none (classifyAs_declaration hdeclared), ih]
      | assignment => rw [classify_cons_of_none (classifyAs_assignment hassigned), ih]

/-- A comparison with a comparison in one index and an index in another. -/
def guarded : Operation where
  indent := Gap.empty
  name := "a"
  accessors := [.index Gap.empty "i == 0", .member Gap.empty Gap.empty "x" (by decide),
    .index Gap.empty "c[1]"]
  gap := Gap.empty
  operator := ">="
  value := " b = 1"
  isName := by decide
  isOperator := by decide

/-- The comparison is of no kind. -/
theorem classify_comparison_guarded :
    guarded.IsComparison ∧ ¬(IsVariable guarded.name ∧ AssignsInside guarded.accessors) ∧
      classify ["float a[2];"] none ⟨"a[i == 0].x[c[1]]>= b = 1;", 1, 1, 26⟩ Probe.shownKinds =
        .ok (.noMatch .otherStatement) := by
  have hcomparison : guarded.IsComparison := ⟨by decide, by decide⟩
  obtain ⟨-, hiff, hnone⟩ := (classify_comparison {} [] 0 none none).2.2 guarded hcomparison
  have hinside : ¬(IsVariable guarded.name ∧ AssignsInside guarded.accessors) := fun h =>
    absurd (hiff.mpr h) (by decide +kernel)
  exact ⟨hcomparison, hinside, hnone hinside _ _ _ (by decide +kernel)⟩

/-- A comparison whose index holds another index with an assignment behind it. -/
def misread : Operation where
  indent := Gap.empty
  name := "a"
  accessors := [.index Gap.empty "b[0] = 1"]
  gap := Gap.cons ' ' Gap.empty (by decide)
  operator := "=="
  value := " 2"
  isName := by decide
  isOperator := by decide

/-- The comparison `a[b[0] = 1] == 2;` is taken for an assignment to `a`. -/
theorem classify_misread :
    misread.IsComparison ∧ misread.text = "a[b[0] = 1] == 2;" ∧
      Target.classify {} Probe.shownKinds ["void f() \x7b", "  int a[4];", "  int b[4];",
        "  a[b[0] = 1] == 2;", "\x7d"] 3 none none = .ok (.assignment ⟨"a", "int"⟩ "=" 3 3) :=
  ⟨⟨by decide, by decide⟩, by decide +kernel, eq_ok_of_toOption (by decide +kernel)⟩

end Statement

end ShaderProbe
