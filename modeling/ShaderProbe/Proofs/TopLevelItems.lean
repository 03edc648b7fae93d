import Mathlib
import ShaderProbe.Proofs.StatementSpans

/-!
# Items between separators

A text is cut at the separators that stand outside brackets.  Brackets need not be balanced: what
counts is that as many are closed as opened in front of the separator.  `Text.IsCutInto` says what
the items are, one after the other, and `Text.isCutInto_iff` that cutting gives these items and no
others. What holds of items in general is proved about `Text.IsCutInto`: they make up the text, none
of them can be cut, and the text is cut at every separator outside brackets.
-/

namespace ShaderProbe

namespace Text

variable {sep c : Char} {depth : Int} {s t : Text} {items : List Text}

/-- No separator stands outside brackets in a text that starts at the given depth of brackets. -/
def IsWhole (sep : Char) (depth : Int) (t : Text) : Prop :=
  ∀ front back, t = front ++ sep :: back → depth + nestingOf front ≠ 0

/-- The items of a text that starts at the given depth: no separator stands outside brackets in an
item, and an item that is followed by a separator ends outside brackets. -/
inductive IsCutInto (sep : Char) : Int → Text → List Text → Prop
  | last {depth : Int} {t : Text} (whole : IsWhole sep depth t) : IsCutInto sep depth t [t]
  | item {depth : Int} {s t : Text} {items : List Text} (whole : IsWhole sep depth s)
      (level : depth + nestingOf s = 0) (next : IsCutInto sep 0 t items) :
      IsCutInto sep depth (s ++ sep :: t) (s :: items)

/-- The empty text has no separator. -/
lemma isWhole_nil : IsWhole sep depth [] := fun front back h => absurd h (by simp)

/-- The first character of a text without separators, and the rest. -/
lemma isWhole_cons :
    IsWhole sep depth (c :: t) ↔ (c = sep → depth ≠ 0) ∧ IsWhole sep (depth + nesting c) t := by
  constructor
  · intro h
    refine ⟨?_, fun front back ht => ?_⟩
    · rintro rfl
      simpa using h [] t rfl
    · have hdepth := h (c :: front) back (by rw [ht, List.cons_append])
      rwa [nestingOf_cons, ← add_assoc] at hdepth
  · rintro ⟨hfirst, hrest⟩ front back h
    cases front with
    | nil =>
      obtain ⟨rfl, -⟩ := List.cons.inj h
      simpa using hfirst rfl
    | cons d front =>
      obtain ⟨rfl, ht⟩ := List.cons.inj h
      rw [nestingOf_cons, ← add_assoc]
      exact hrest front back ht

/-- There is at least one item. -/
lemma IsCutInto.ne_nil (h : IsCutInto sep depth t items) : items ≠ [] := by
  cases h <;> simp

/-- A character that is no separator belongs to the first item. -/
lemma IsCutInto.cons (hc : ¬(c = sep ∧ depth = 0)) (h : IsCutInto sep (depth + nesting c) t items) :
    IsCutInto sep depth (c :: t) (consFirst c items) := by
  have hfirst : c = sep → depth ≠ 0 := fun heq hzero => hc ⟨heq, hzero⟩
  cases h with
  | last whole => exact .last (isWhole_cons.mpr ⟨hfirst, whole⟩)
  | item whole level next =>
    refine .item (s := c :: _) (isWhole_cons.mpr ⟨hfirst, whole⟩) ?_ next
    rw [nestingOf_cons, ← add_assoc, level]

/-- What a text is cut into are its items.  The separator is no bracket. -/
lemma isCutInto_splitTopLevelFrom (hsep : nesting sep = 0) (depth : Int) (t : Text) :
    IsCutInto sep depth t (splitTopLevelFrom [sep] depth t) := by
  induction t generalizing depth with
  | nil => exact .last isWhole_nil
  | cons c t ih =>
    have ih := ih (depth + nesting c)
    rw [splitTopLevelFrom]
    split
    · rename_i hcut
      obtain rfl : c = sep := List.singleton_inj.mp hcut.1
      rw [hsep, add_zero] at hcut ih ⊢
      rw [hcut.2] at ih ⊢
      exact .item isWhole_nil rfl ih
    · rename_i hcut
      refine IsCutInto.cons (fun h => hcut ⟨by rw [h.1], ?_⟩) ih
      rw [h.1, hsep, h.2]
      rfl

/-- A front without separators belongs to the first item. -/
lemma IsWhole.splitTopLevelFrom_append (hsep : nesting sep = 0) {p : Text} {ps : List Text}
    (hs : IsWhole sep depth s) (ht : splitTopLevelFrom [sep] (depth + nestingOf s) t = p :: ps) :
    splitTopLevelFrom [sep] depth (s ++ t) = (s ++ p) :: ps := by
  induction s generalizing depth with
  | nil =>
    rw [nestingOf_nil, add_zero] at ht
    exact ht
  | cons c s ih =>
    obtain ⟨hfirst, hrest⟩ := isWhole_cons.mp hs
    rw [nestingOf_cons, ← add_assoc] at ht
    have hcut : ¬([c] = [sep] ∧ depth + nesting c = 0) := by
      rintro ⟨hc, hdepth⟩
      obtain rfl : c = sep := List.singleton_inj.mp hc
      rw [hsep, add_zero] at hdepth
      exact hfirst rfl hdepth
    rw [List.cons_append, splitTopLevelFrom, if_neg hcut, ih hrest ht]
    rfl

/-- **A text is cut into its items.**  The separator is no bracket. -/
lemma isCutInto_iff (hsep : nesting sep = 0) :
    IsCutInto sep depth t items ↔ splitTopLevelFrom [sep] depth t = items := by
  constructor
  · intro h
    induction h with
    | last whole =>
      have hcut := whole.splitTopLevelFrom_append (t := []) hsep rfl
      rwa [List.append_nil] at hcut
    | @item depth s t items whole level next ih =>
      have hnext : splitTopLevelFrom [sep] (depth + nestingOf s) (sep :: t) = [] :: items := by
        rw [level, splitTopLevelFrom, hsep, if_pos ⟨rfl, rfl⟩]
        exact congrArg _ ih
      rw [whole.splitTopLevelFrom_append hsep hnext, List.append_nil]
  · rintro rfl
    exact isCutInto_splitTopLevelFrom hsep depth t

/-! ### What items make up -/

/-- Joining an item with the ones that follow it. -/
lemma intercalate_item (sep : Char) (s : Text) (hne : items ≠ []) :
    [sep].intercalate (s :: items) = s ++ sep :: [sep].intercalate items := by
  rw [List.intercalate_cons_of_ne_nil hne, List.append_assoc, List.singleton_append]

/-- The items of a text make up the text. -/
lemma IsCutInto.intercalate_eq (h : IsCutInto sep depth t items) : [sep].intercalate items = t := by
  induction h with
  | last whole => exact List.intercalate_singleton
  | item whole level next ih => rw [intercalate_item sep _ next.ne_nil, ih]

/-- An item cannot be cut, also if it stands alone: every item starts outside brackets. -/
lemma IsCutInto.isWhole_of_mem (h : IsCutInto sep depth t items) (hdepth : depth = 0) :
    ∀ p ∈ items, IsWhole sep 0 p := by
  induction h with
  | last whole =>
    rw [hdepth] at whole
    intro p hp
    rwa [List.mem_singleton.mp hp]
  | item whole level next ih =>
    rw [hdepth] at whole
    intro p hp
    rcases List.mem_cons.mp hp with rfl | hp
    · exact whole
    · exact ih rfl p hp

/-! ### Where a text is cut -/

/-- A separator with the given texts on either side stands between two items: the items in front of
it make up the one text and the items behind it the other. -/
def IsCut (sep : Char) (items : List Text) (front back : Text) : Prop :=
  ∃ before after, items = before ++ after ∧ before ≠ [] ∧ after ≠ [] ∧
    front = [sep].intercalate before ∧ back = [sep].intercalate after

/-- A separator between items stands behind the first of them or between the others. -/
lemma isCut_cons {front back : Text} :
    IsCut sep (s :: items) front back ↔
      (front = s ∧ items ≠ [] ∧ back = [sep].intercalate items) ∨
        ∃ front', front = s ++ sep :: front' ∧ IsCut sep items front' back := by
  constructor
  · rintro ⟨before, after, happend, hbefore, hafter, rfl, rfl⟩
    cases before with
    | nil => exact absurd rfl hbefore
    | cons p before =>
      obtain ⟨rfl, rfl⟩ := List.cons.inj happend
      by_cases hne : before = []
      · subst hne
        exact .inl ⟨List.intercalate_singleton, hafter, rfl⟩
      · exact .inr ⟨_, intercalate_item sep s hne, before, after, rfl, hne, hafter, rfl, rfl⟩
  · rintro (⟨rfl, hne, rfl⟩ | ⟨front', rfl, before, after, rfl, hbefore, hafter, rfl, rfl⟩)
    · exact ⟨[front], items, rfl, by simp, hne, List.intercalate_singleton.symm, rfl⟩
    · exact ⟨s :: before, after, rfl, by simp, hafter, (intercalate_item sep s hbefore).symm, rfl⟩

/-- Two separators of a text are the same, or one of them stands behind the other. -/
lemma append_cons_cases {front back : Text} (h : s ++ sep :: t = front ++ sep :: back) :
    (front = s ∧ back = t) ∨ (∃ more, front = s ++ sep :: more ∧ t = more ++ sep :: back) ∨
      ∃ rest, s = front ++ sep :: rest := by
  rcases List.append_eq_append_iff.mp h with ⟨more, hfront, hback⟩ | ⟨rest, hs, hback⟩
  · cases more with
    | nil => exact .inl ⟨by rw [hfront, List.append_nil], (List.cons.inj hback).2.symm⟩
    | cons c more =>
      obtain ⟨rfl, ht⟩ := List.cons.inj hback
      exact .inr (.inl ⟨more, hfront, ht⟩)
  · cases rest with
    | nil => exact .inl ⟨by rw [hs, List.append_nil], (List.cons.inj hback).2⟩
    | cons c rest =>
      obtain ⟨rfl, -⟩ := List.cons.inj hback
      exact .inr (.inr ⟨rest, hs⟩)

/-- **A text is cut at the separators outside brackets.**  The separator is no bracket. -/
lemma IsCutInto.isCut_iff (hsep : nesting sep = 0) (h : IsCutInto sep depth t items)
    {front back : Text} (ht : t = front ++ sep :: back) :
    IsCut sep items front back ↔ depth + nestingOf front = 0 := by
  induction h generalizing front with
  | last whole =>
    refine iff_of_false ?_ (whole front back ht)
    rw [isCut_cons]
    rintro (⟨-, hne, -⟩ | ⟨-, -, before, after, hnil, hbefore, -⟩)
    · exact hne rfl
    · exact hbefore (List.append_eq_nil_iff.mp hnil.symm).1
  | @item depth s t items whole level next ih =>
    rw [isCut_cons]
    rcases append_cons_cases ht with ⟨rfl, rfl⟩ | ⟨more, rfl, hmore⟩ | ⟨rest, rfl⟩
    · exact iff_of_true (.inl ⟨rfl, next.ne_nil, next.intercalate_eq.symm⟩) level
    · -- The item and its separator end outside brackets, so the depth is the one in what follows.
      have hdepth : depth + nestingOf (s ++ sep :: more) = 0 + nestingOf more := by
        rw [nestingOf_append, nestingOf_cons, hsep, ← add_assoc, level, zero_add]
      rw [hdepth, ← ih hmore]
      simp
    · refine iff_of_false ?_ (whole front rest rfl)
      rintro (⟨heq, -, -⟩ | ⟨front', heq, -⟩)
      · simpa using congrArg List.length heq
      · have := congrArg List.length heq
        simp only [List.length_append, List.length_cons] at this
        omega

/-- The depth at the end of a text, by the brackets that are opened and closed in it. -/
lemma nestingOf_eq_count (t : Text) :
    nestingOf t = ((t.count '(' + t.count '[' : Nat) : Int) - (t.count ')' + t.count ']' : Nat) := by
  induction t with
  | nil => rfl
  | cons c t ih =>
    rw [nestingOf_cons, ih]
    by_cases hc : c ∈ ['(', '[', ')', ']']
    · simp only [List.mem_cons, List.not_mem_nil, or_false] at hc
      rcases hc with rfl | rfl | rfl | rfl <;> simp [nesting] <;> omega
    · simp only [List.mem_cons, List.not_mem_nil, or_false, not_or] at hc
      obtain ⟨h₁, h₂, h₃, h₄⟩ := hc
      rw [List.count_cons_of_ne h₁, List.count_cons_of_ne h₂, List.count_cons_of_ne h₃,
        List.count_cons_of_ne h₄]
      simp [nesting, h₁, h₂, h₃, h₄]

/-- **Cutting a text loses nothing and cuts wherever it may.**  Joining the items with the separator
gives the text back, and no item can be cut further.  A separator of the text stands between two
items exactly if as many brackets are closed as opened in front of it.  The brackets of the text
need not be balanced: the count may be negative on the way. -/
theorem intercalate_splitTopLevel_and_isCut_iff (sep : Char) (hsep : sep ∉ ['(', ')', '[', ']'])
    (t : Text) :
    [sep].intercalate (splitTopLevel [sep] t) = t ∧
      (∀ p ∈ splitTopLevel [sep] t, splitTopLevel [sep] p = [p]) ∧
      ∀ front back, t = front ++ sep :: back →
        (IsCut sep (splitTopLevel [sep] t) front back ↔
          ((front.count '(' + front.count '[' : Nat) : Int) -
            (front.count ')' + front.count ']' : Nat) = 0) := by
  have hflat : nesting sep = 0 := by
    simp only [List.mem_cons, List.not_mem_nil, or_false, not_or] at hsep
    simp [nesting, hsep]
  have hcut : IsCutInto sep 0 t (splitTopLevel [sep] t) := isCutInto_splitTopLevelFrom hflat 0 t
  refine ⟨hcut.intercalate_eq, fun p hp => ?_, fun front back ht => ?_⟩
  · exact (isCutInto_iff hflat).mp (.last (hcut.isWhole_of_mem rfl p hp))
  · rw [hcut.isCut_iff hflat ht, zero_add, nestingOf_eq_count]

/-- A bracket that is closed and was never opened keeps the last two items together. -/
theorem intercalate_splitTopLevel_and_isCut_iff_unopened :
    ',' ∉ ['(', ')', '[', ']'] ∧
      splitTopLevel [','] "vec2 p, f(a, b)], c" = ["vec2 p".toList, " f(a, b)], c".toList] ∧
      splitTopLevel [','] " f(a, b)], c" = [" f(a, b)], c".toList] ∧
      ¬ IsCut ',' (splitTopLevel [','] "vec2 p, f(a, b)], c") "vec2 p, f(a, b)]" " c" := by
  have hsep : ',' ∉ ['(', ')', '[', ']'] := by decide
  obtain ⟨-, hparts, hcuts⟩ :=
    intercalate_splitTopLevel_and_isCut_iff ',' hsep "vec2 p, f(a, b)], c"
  refine ⟨hsep, by decide, hparts _ (by decide), ?_⟩
  rw [hcuts _ _ (by decide)]
  decide

end Text

end ShaderProbe
