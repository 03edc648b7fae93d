import Mathlib
import ShaderProbe.Proofs.StrayBraces

/-!
# The scope of a declaration that is looked up

The type of a variable is looked up line by line.  A block may be opened or closed in the middle of
a line, so the line that declares the name can lie in scope although the declaration does not.

A text keeps the blocks around its start open if no front of it closes more blocks than it opens
(`Text.KeepsOpen`).  Going backwards through such a text, the count of closed blocks comes back to
zero (`TypeLookup.closedBefore_eq_zero_iff`), so the search looks at the lines whose ends are still
in scope and takes the nearest one that declares the name (`TypeLookup.exists_of_backward?`).  In
front of the function it takes the first such line that starts outside of all blocks
(`TypeLookup.exists_of_forward?`).

`TypeLookup.origin_of_resolve` says which declaration the type is read from, and when this
declaration can be seen: inside the function, exactly if the rest of its line closes no block around
it; in front of the function, exactly if its line opens no block in front of it and it stands in no
parameter list.
-/

namespace ShaderProbe

namespace Text

/-! ### Blocks that stay open -/

/-- The blocks around the start of the text are still open at its end: no front of the text closes
more blocks than it opens. -/
def KeepsOpen (t : Text) : Prop := ∀ front, front <+: t → 0 ≤ braceDelta front

instance (t : Text) : Decidable (KeepsOpen t) :=
  decidable_of_iff (∀ front ∈ t.inits, 0 ≤ braceDelta front)
    (forall_congr' fun front => by rw [List.mem_inits])

/-- The first character of a text counts on its own. -/
lemma braceDelta_cons (c : Char) (t : Text) : braceDelta (c :: t) = braceDelta [c] + braceDelta t :=
  braceDelta_append [c] t

/-- The front of two texts is a front of the first one, or goes on in the second one. -/
lemma isPrefix_append_iff {front s t : Text} :
    front <+: s ++ t ↔ front <+: s ∨ ∃ front', front' <+: t ∧ front = s ++ front' := by
  constructor
  · intro h
    rcases List.prefix_or_prefix_of_prefix h (List.prefix_append s t) with hle | ⟨front', rfl⟩
    · exact .inl hle
    · exact .inr ⟨front', (List.prefix_append_right_inj s).mp h, rfl⟩
  · rintro (h | ⟨front', h, rfl⟩)
    · exact h.trans (List.prefix_append s t)
    · exact (List.prefix_append_right_inj s).mpr h

/-- In front of a text that keeps its blocks open, only the first text matters. -/
lemma KeepsOpen.append_iff {t : Text} (ht : KeepsOpen t) (s : Text) :
    KeepsOpen (s ++ t) ↔ KeepsOpen s := by
  constructor
  · exact fun h front hfront => h front (hfront.trans (List.prefix_append s t))
  · intro hs front hfront
    rcases isPrefix_append_iff.mp hfront with hle | ⟨front', hfront', rfl⟩
    · exact hs front hle
    · have := hs s (List.prefix_refl s)
      have := ht front' hfront'
      rw [braceDelta_append]
      omega

end Text

/-- The code from a place up to the start of a line. -/
def Position.textTo (code : List Text) (place : Position) (before : Nat) : Text :=
  (Text.ofLines ((code.take before).drop place.line)).drop place.column

namespace TypeLookup

open Text

variable {code : List Text} {name type : Text} {before start : Nat}

/-! ### Counting closed blocks backwards -/

/-- The lines from a number on up to another one, each behind a line feed. -/
def linesBetween (code : List Text) (n before : Nat) : Text :=
  (((code.take before).drop n).map fun l => '\n' :: l).flatten

/-- The first of the lines. -/
lemma linesBetween_eq {n : Nat} {l : Text} (hl : code[n]? = some l) (hn : n < before) :
    linesBetween code n before = '\n' :: (l ++ linesBetween code (n + 1) before) := by
  obtain ⟨hlt, rfl⟩ := List.getElem?_eq_some_iff.mp hl
  have hlt' : n < (code.take before).length := by
    rw [List.length_take]
    omega
  rw [linesBetween, List.drop_eq_getElem_cons hlt', List.getElem_take]
  rfl

/-- The code from a place on is the rest of its line and the lines behind it. -/
lemma textTo_eq {i column : Nat} {l : Text} (hl : code[i]? = some l) (hi : i < before)
    (hcolumn : column ≤ l.length) :
    Position.textTo code ⟨i, column⟩ before =
      l.drop column ++ linesBetween code (i + 1) before := by
  obtain ⟨hlt, rfl⟩ := List.getElem?_eq_some_iff.mp hl
  have hlt' : i < (code.take before).length := by
    rw [List.length_take]
    omega
  have hjoin := Text.ofLines_around [] code[i] ((code.take before).drop (i + 1))
  rw [List.map_nil, List.flatten_nil, List.nil_append, List.nil_append] at hjoin
  rw [Position.textTo, List.drop_eq_getElem_cons hlt', List.getElem_take, hjoin,
    List.drop_append_of_le_length hcolumn]
  rfl

/-- Few blocks are closed around the start of a text exactly if no front of the text closes more,
and the blocks around its end are not more either. -/
lemma closedBefore_le_iff (depth n : Nat) (t : Text) :
    closedBefore depth t ≤ n ↔
      (∀ front, front <+: t → 0 ≤ (n : Int) + braceDelta front) ∧
        (depth : Int) ≤ n + braceDelta t := by
  induction t generalizing n with
  | nil => simp [closedBefore]
  | cons c t ih =>
    -- a front of the text is empty or starts with the first character
    have hfronts : ∀ m : Int, (∀ front, front <+: c :: t → 0 ≤ m + braceDelta front) ↔
        0 ≤ m ∧ ∀ front, front <+: t → 0 ≤ m + braceDelta [c] + braceDelta front := by
      intro m
      constructor
      · intro h
        refine ⟨by simpa using h [] List.nil_prefix, fun front hfront => ?_⟩
        have := h (c :: front) (List.cons_prefix_cons.mpr ⟨rfl, hfront⟩)
        rwa [braceDelta_cons, ← Int.add_assoc] at this
      · rintro ⟨hm, h⟩ front hfront
        rcases List.prefix_cons_iff.mp hfront with rfl | ⟨front', rfl, hfront'⟩
        · simpa using hm
        · rw [braceDelta_cons, ← Int.add_assoc]
          exact h front' hfront'
    have hstep : closedBefore depth (c :: t) = if c = '}' then closedBefore depth t + 1
        else if c = '{' then closedBefore depth t - 1 else closedBefore depth t := rfl
    rw [hstep, hfronts, braceDelta_cons c t]
    by_cases hclose : c = '}'
    · have hc : braceDelta [c] = -1 := by rw [hclose]; rfl
      rw [if_pos hclose, hc]
      cases n with
      | zero =>
        refine ⟨fun h => absurd h (by omega), fun h => ?_⟩
        exact absurd (h.1.2 [] List.nil_prefix) (by simp)
      | succ n =>
        have hcast : ((n + 1 : Nat) : Int) + -1 = n := by omega
        rw [Nat.add_le_add_iff_right, ih, ← Int.add_assoc, hcast]
        exact ⟨fun h => ⟨⟨by omega, h.1⟩, h.2⟩, fun h => ⟨h.1.2, h.2⟩⟩
    · by_cases hopen : c = '{'
      · have hc : braceDelta [c] = 1 := by rw [hopen]; rfl
        have hcast : (n : Int) + 1 = (n + 1 : Nat) := by omega
        rw [if_neg hclose, if_pos hopen, hc, ← Int.add_assoc, hcast, Nat.sub_le_iff_le_add, ih]
        exact ⟨fun h => ⟨⟨by omega, h.1⟩, h.2⟩, fun h => ⟨h.1.2, h.2⟩⟩
      · have hc : braceDelta [c] = 0 := by simp [braceDelta, hclose, hopen]
        rw [if_neg hclose, if_neg hopen, hc, ih, Int.zero_add, Int.add_zero]
        exact ⟨fun h => ⟨⟨by omega, h.1⟩, h.2⟩, fun h => ⟨h.1.2, h.2⟩⟩

/-- No block is closed around the start of a text that keeps its blocks open. -/
lemma closedBefore_eq_zero_iff {t : Text} : closedBefore 0 t = 0 ↔ KeepsOpen t := by
  rw [← Nat.le_zero, closedBefore_le_iff]
  simp only [Nat.cast_zero, Int.zero_add]
  exact ⟨fun h => h.1, fun h => ⟨h, h t (List.prefix_refl t)⟩⟩

/-- Blocks are counted piece by piece. -/
lemma closedBefore_append (depth : Nat) (s t : Text) :
    closedBefore depth (s ++ t) = closedBefore (closedBefore depth t) s :=
  List.foldr_append

/-! ### The lines that are searched -/

/-- The line declares the name, and the blocks around the end of the line are still open at the
start of another one. -/
def IsSeen (code : List Text) (name : Text) (before i : Nat) (site : DeclarationSite) : Prop :=
  ∃ l, code[i]? = some l ∧ DeclarationSite.find? name l = some site ∧
    KeepsOpen (Position.textTo code ⟨i, l.length⟩ before)

/-- A type is declared at a place. -/
lemma declaredType?_eq_some_iff {line : Text} :
    declaredType? name line = some type ↔
      ∃ site, DeclarationSite.find? name line = some site ∧ site.type = type := by
  rw [declaredType?, Option.map_eq_some_iff]

/-- Whether the end of a line is in scope is read off the count of closed blocks. -/
lemma closedBefore_eq_zero_iff_textTo {i : Nat} {l : Text} (hl : code[i]? = some l)
    (hi : i < before) :
    closedBefore 0 (linesBetween code (i + 1) before) = 0 ↔
      KeepsOpen (Position.textTo code ⟨i, l.length⟩ before) := by
  rw [textTo_eq hl hi le_rfl, List.drop_length, List.nil_append]
  exact closedBefore_eq_zero_iff

/-- **The nearest declaration is found**, among the lines whose ends are in scope. -/
theorem exists_of_backward? (hbefore : before ≤ code.length) (n : Nat) (hn : n ≤ before) :
    match backward? name (closedBefore 0 (linesBetween code n before))
        ((code.take n).drop start).reverse with
    | some type => ∃ i site, start ≤ i ∧ i < n ∧ IsSeen code name before i site ∧ site.type = type ∧
        ∀ j site', i < j → j < n → ¬IsSeen code name before j site'
    | none => ∀ i site, start ≤ i → i < n → ¬IsSeen code name before i site := by
  induction n with
  | zero => simp [backward?]
  | succ n ih =>
    by_cases hstart : n < start
    · have hnil : (code.take (n + 1)).drop start = [] :=
        List.drop_eq_nil_of_le ((List.length_take_le _ _).trans hstart)
      rw [hnil]
      intro i site hi hlt
      omega
    · have hlt : n < code.length := by omega
      have hl : code[n]? = some code[n] := List.getElem?_eq_getElem hlt
      have hlast : ((code.take (n + 1)).drop start).reverse =
          code[n] :: ((code.take n).drop start).reverse := by
        rw [← List.take_concat_get' code n hlt, List.drop_append_of_le_length
          (by rw [List.length_take]; omega), List.reverse_append]
        rfl
      have hcount : closedBefore (closedBefore 0 (linesBetween code (n + 1) before)) code[n] =
          closedBefore 0 (linesBetween code n before) := by
        rw [linesBetween_eq hl (by omega), ← closedBefore_append]
        rfl
      have hscope := closedBefore_eq_zero_iff_textTo hl (show n < before by omega)
      specialize ih (by omega)
      rw [hlast, backward?]
      by_cases hseen : ∃ site, IsSeen code name before n site
      · -- the line itself is taken
        obtain ⟨site, l, hl', hsite, hkeeps⟩ := hseen
        obtain rfl : code[n] = l := Option.some.inj (hl.symm.trans hl')
        rw [if_pos (hscope.mpr hkeeps), declaredType?, hsite]
        refine ⟨n, site, by omega, by omega, ⟨_, hl, hsite, hkeeps⟩, rfl, fun j _ hj hj' => ?_⟩
        omega
      · -- the search goes on in front of the line
        have hnone : (if closedBefore 0 (linesBetween code (n + 1) before) = 0 then
            declaredType? name code[n] else none) = none := by
          split
          · rename_i hzero
            by_contra hsome
            obtain ⟨found, hfound⟩ := Option.ne_none_iff_exists'.mp hsome
            obtain ⟨site, hsite, -⟩ := declaredType?_eq_some_iff.mp hfound
            exact hseen ⟨site, _, hl, hsite, hscope.mp hzero⟩
          · rfl
        rw [hnone]
        dsimp only
        rw [hcount]
        cases hback : backward? name (closedBefore 0 (linesBetween code n before))
          ((code.take n).drop start).reverse with
        | some type =>
          rw [hback] at ih
          obtain ⟨i, site, hi, hin, hsite, htype, hnext⟩ := ih
          refine ⟨i, site, hi, by omega, hsite, htype, fun j site' hj hjn => ?_⟩
          rcases Nat.lt_succ_iff_lt_or_eq.mp hjn with hjn | rfl
          · exact hnext j site' hj hjn
          · exact fun h => hseen ⟨site', h⟩
        | none =>
          rw [hback] at ih
          intro i site hi hin
          rcases Nat.lt_succ_iff_lt_or_eq.mp hin with hin | rfl
          · exact ih i site hi hin
          · exact fun h => hseen ⟨site, h⟩

/-- What the search for the nearest declaration comes to. -/
lemma exists_of_backward?_reverse (hrange : ¬(start < before ∧ code.length < before)) :
    match backward? name 0 ((code.take before).drop start).reverse with
    | some type => ∃ i site, start ≤ i ∧ i < before ∧ IsSeen code name before i site ∧
        site.type = type ∧ ∀ j site', i < j → j < before → ¬IsSeen code name before j site'
    | none => ∀ i site, start ≤ i → i < before → ¬IsSeen code name before i site := by
  by_cases hbefore : before ≤ code.length
  · have hnil : linesBetween code before before = [] := by
      rw [linesBetween, List.drop_eq_nil_of_le (List.length_take_le _ _)]
      rfl
    have h := @exists_of_backward? code name before start hbefore before le_rfl
    rwa [hnil] at h
  · have hnil : (code.take before).drop start = [] :=
      List.drop_eq_nil_of_le ((List.length_take_le _ _).trans (by omega))
    rw [hnil]
    intro i site hi hlt
    omega

/-- **The first declaration is found**, among the lines that start outside of all blocks. -/
theorem exists_of_forward? {ls : List Text} {depth : Nat}
    (hdepth : ∀ n, 0 ≤ (depth : Int) + bracesOf (ls.take n))
    (h : forward? name depth ls = some type) :
    ∃ i l site, ls[i]? = some l ∧ DeclarationSite.find? name l = some site ∧ site.type = type ∧
      (depth : Int) + bracesOf (ls.take i) = 0 ∧
      ∀ j l', j < i → ls[j]? = some l' → (depth : Int) + bracesOf (ls.take j) = 0 →
        DeclarationSite.find? name l' = none := by
  induction ls generalizing depth with
  | nil => simp [forward?] at h
  | cons l ls ih =>
    rw [forward?] at h
    split at h
    · -- the first line is taken
      rename_i found hfound
      obtain ⟨hzero, hfound⟩ := Option.ite_none_right_eq_some.mp hfound
      obtain rfl := Option.some.inj h
      obtain ⟨site, hsite, htype⟩ := declaredType?_eq_some_iff.mp hfound
      refine ⟨0, l, site, rfl, hsite, htype, by simpa using hzero, fun j _ hj => ?_⟩
      omega
    · rename_i hnone
      -- no count falls below zero, so the depth behind the line is exact
      have hline : (((depth : Int) + braceDelta l).toNat : Int) = depth + braceDelta l := by
        have := hdepth 1
        simp only [List.take_succ_cons, List.take_zero, bracesOf_cons, bracesOf_nil] at this
        omega
      have hsum : ∀ n, (((depth : Int) + braceDelta l).toNat : Int) + bracesOf (ls.take n) =
          depth + bracesOf ((l :: ls).take (n + 1)) := by
        intro n
        rw [List.take_succ_cons, bracesOf_cons, hline, Int.add_assoc]
      obtain ⟨i, l', site, hl', hsite, htype, hi, hfirst⟩ := ih (fun n => hsum n ▸ hdepth (n + 1)) h
      refine ⟨i + 1, l', site, hl', hsite, htype, hsum i ▸ hi, fun j t hj ht hzero => ?_⟩
      cases j with
      | zero =>
        obtain rfl : l = t := Option.some.inj ht
        by_contra hsome
        obtain ⟨other, hother⟩ := Option.ne_none_iff_exists'.mp hsome
        rw [if_pos (by simpa using hzero), declaredType?, hother] at hnone
        exact absurd hnone (by simp)
      | succ j => exact hfirst j t (by omega) ht ((hsum j).trans hzero)

/-! ### The declaration that is used -/

/-- A declaration starts with a character of its line. -/
lemma lt_of_find? {line : Text} {site : DeclarationSite}
    (h : DeclarationSite.find? name line = some site) : site.start < line.length := by
  have hbounds : ∀ {t : Text} {joined : Bool} {offset : Nat},
      DeclarationSite.findFrom? name joined offset t = some site →
        offset ≤ site.start ∧ site.start < offset + t.length := by
    intro t
    induction t with
    | nil => exact fun h => absurd h (by simp [DeclarationSite.findFrom?])
    | cons c t ih =>
      intro joined offset h
      rw [DeclarationSite.findFrom?] at h
      split at h
      · obtain rfl := Option.some.inj h
        exact ⟨le_rfl, by simp⟩
      · obtain ⟨hle, hlt⟩ := ih h
        rw [List.length_cons]
        omega
  obtain ⟨-, hlt⟩ := hbounds h
  rwa [Nat.zero_add] at hlt

/-- The place lies outside of all blocks and of all parentheses. -/
def IsGlobal (code : List Text) (place : Position) : Prop :=
  braceDelta (place.textInFront code) = 0 ∧ parenDelta (place.textInFront code) = 0

instance (code : List Text) (place : Position) : Decidable (IsGlobal code place) :=
  inferInstanceAs (Decidable (_ ∧ _))

/-- The depth of a place is the depth of the line and what the line opens in front of the place. -/
lemma braceDelta_textInFront {i column : Nat} {l : Text} (hl : code[i]? = some l) :
    braceDelta (Position.textInFront code ⟨i, column⟩) =
      bracesOf (code.take i) + braceDelta (l.take column) := by
  rw [Position.textInFront, braceDelta_ofLines, bracesOf_append, bracesOf_cons, bracesOf_nil,
    Int.add_zero, List.getD_eq_getElem?_getD, hl, Option.getD_some]

/-- **Where a type that is looked up is declared, and whether the declaration is visible.**  Of the
lines of the function whose ends are in scope the nearest one that declares the name is used; all
blocks around its declaration are still open exactly if the rest of the line closes none of them.
Without such a line a parameter is used, then the first line in front of the function that starts
outside of all blocks; its declaration stands at global scope exactly if the line opens no block in
front of it and no parenthesis is open there. -/
theorem origin_of_resolve {function : Signature} (hcode : KeepsOpen (ofLines code))
    (h : resolve code name before (some function) = .ok (some type)) :
    (∃ i l site, function.startLine ≤ i ∧ i < before ∧ code[i]? = some l ∧
        DeclarationSite.find? name l = some site ∧ site.type = type ∧
        (∀ j site', i < j → j < before → ¬IsSeen code name before j site') ∧
        (KeepsOpen (Position.textTo code ⟨i, site.start⟩ before) ↔ KeepsOpen (l.drop site.start))) ∨
      (∀ i site, function.startLine ≤ i → i < before → ¬IsSeen code name before i site) ∧
        (parameterType? name function = some type ∨
          parameterType? name function = none ∧
          ∃ i l site, i < function.startLine ∧ code[i]? = some l ∧
            DeclarationSite.find? name l = some site ∧ site.type = type ∧
            (∀ j l', j < i → code[j]? = some l' → bracesOf (code.take j) = 0 →
              DeclarationSite.find? name l' = none) ∧
            (IsGlobal code ⟨i, site.start⟩ ↔ braceDelta (l.take site.start) = 0 ∧
              parenDelta (Position.textInFront code ⟨i, site.start⟩) = 0)) := by
  unfold resolve at h
  simp only [Option.map_some, Option.getD_some] at h
  split at h
  · exact absurd h (by simp)
  rename_i hrange
  have hback := @exists_of_backward?_reverse code name before function.startLine hrange
  cases hfound : backward? name 0 ((code.take before).drop function.startLine).reverse with
  | some found =>
    rw [hfound] at h hback
    obtain rfl : found = type := Option.some.inj (Except.ok.inj h)
    obtain ⟨i, site, hi, hlt, ⟨l, hl, hsite, hscope⟩, htype, hnext⟩ := hback
    refine .inl ⟨i, l, site, hi, hlt, hl, hsite, htype, hnext, ?_⟩
    rw [textTo_eq hl hlt (lt_of_find? hsite).le]
    rw [textTo_eq hl hlt le_rfl, List.drop_length, List.nil_append] at hscope
    exact hscope.append_iff _
  | none =>
    rw [hfound] at h hback
    refine .inr ⟨hback, ?_⟩
    dsimp only at h
    cases hparameter : parameterType? name function with
    | some found =>
      rw [hparameter] at h
      exact .inl (congrArg some (Option.some.inj (Except.ok.inj h)))
    | none =>
      rw [hparameter] at h
      refine .inr ⟨rfl, ?_⟩
      cases hglobal : forward? name 0 (code.take function.startLine) with
      | none =>
        rw [hglobal, Option.orElse_eq_orElse] at h
        simp only [Option.orElse_none] at h
        split at h <;> exact absurd h (by simp)
      | some found =>
        rw [hglobal] at h
        obtain rfl : found = type := Option.some.inj (Except.ok.inj h)
        have hdepth : ∀ n,
            0 ≤ ((0 : Nat) : Int) + bracesOf ((code.take function.startLine).take n) := by
          intro n
          have := hcode _ (ofLines_take_isPrefix code (min n function.startLine))
          rwa [braceDelta_ofLines, ← List.take_take, ← Int.zero_add (bracesOf _)] at this
        obtain ⟨i, l, site, hl, hsite, htype, hzero, hfirst⟩ := exists_of_forward? hdepth hglobal
        obtain ⟨hlt, -⟩ := List.getElem?_eq_some_iff.mp hl
        have hi : i < function.startLine := hlt.trans_le (List.length_take_le _ _)
        have htake : ∀ j ≤ i, (code.take function.startLine).take j = code.take j := by
          intro j hj
          rw [List.take_take, Nat.min_eq_left (by omega)]
        rw [List.getElem?_take_of_lt hi] at hl
        rw [htake i le_rfl, Nat.cast_zero, Int.zero_add] at hzero
        refine ⟨i, l, site, hi, hl, hsite, htype, fun j l' hj hl' hj' => ?_, ?_⟩
        · refine hfirst j l' hj ?_ ?_
          · rwa [List.getElem?_take_of_lt (hj.trans hi)]
          · rwa [htake j hj.le, Nat.cast_zero, Int.zero_add]
        · rw [IsGlobal, braceDelta_textInFront hl, hzero, Int.zero_add]

/-- A global variable, and a function that declares a variable of the same name in its body and in a
block. -/
def shadowedCode : List Text :=
  ["vec3 c;", "void f(float x) \x7b", "  float c = 0.5;", "  if (x > c) \x7b",
    "    vec3 c = vec3(x);", "  \x7d", "  c = x;", "\x7d"]

/-- The function, as it is read from its header. -/
def shadowedFunction : Signature :=
  { name := "f"
    returnType := "void"
    parameters := [.ofType {} "x" "float" .input]
    startLine := 1
    endLine := some 7 }

/-- The declaration in the closed block is passed over, and the one in the body is visible. -/
theorem origin_of_resolve_shadowed :
    KeepsOpen (ofLines shadowedCode) ∧
      Outline.enclosing? {} shadowedCode 6 = some shadowedFunction ∧
      resolve shadowedCode "c" 6 (some shadowedFunction) = .ok (some "float") ∧
      KeepsOpen (Position.textTo shadowedCode ⟨2, 2⟩ 6) := by
  have hcode : KeepsOpen (ofLines shadowedCode) := by decide +kernel
  have hresolve : resolve shadowedCode "c" 6 (some shadowedFunction) = .ok (some "float") :=
    eq_ok_of_toOption (by decide +kernel)
  refine ⟨hcode, by decide +kernel, hresolve, ?_⟩
  have hsites : ∀ i < 6, 1 ≤ i → ∀ l ∈ shadowedCode[i]?, ∀ site ∈ DeclarationSite.find? "c" l,
      site.type = "float" → i = 2 ∧ site.start = 2 ∧ KeepsOpen (l.drop site.start) := by
    decide +kernel
  rcases origin_of_resolve hcode hresolve with
    ⟨i, l, site, hi, hlt, hl, hsite, htype, -, hvisible⟩ | ⟨hnothing, -⟩
  · obtain ⟨rfl, hstart, hrest⟩ := hsites i hlt hi l hl site hsite htype
    exact hstart ▸ hvisible.mpr hrest
  · exact absurd ⟨_, rfl, rfl, by decide +kernel⟩
      (hnothing 2 ⟨"float", 2, 11⟩ (by decide) (by decide))

/-- A function that declares a variable in a block of one line. -/
def closedBlockCode : List Text :=
  ["void f() \x7b", "  \x7b float a = 1.0; \x7d", "  a = 2.0;", "\x7d"]

/-- A function behind another one with a parameter. -/
def otherParameterCode : List Text :=
  ["float g(float x) \x7b", "  return x;", "\x7d", "void f() \x7b", "  x = 2.0;", "\x7d"]

/-- A type is read from a block that has been closed on its own line, and from the parameter list of
another function.  There is no other declaration of the name. -/
theorem resolve_out_of_scope :
    (KeepsOpen (ofLines closedBlockCode) ∧
      ∃ f, Outline.enclosing? {} closedBlockCode 2 = some f ∧ f.parameters = [] ∧
        resolve closedBlockCode "a" 2 (some f) = .ok (some "float") ∧
        ∀ i < 4, ∀ l ∈ closedBlockCode[i]?, ∀ site ∈ DeclarationSite.find? "a" l,
          i = 1 ∧ ¬KeepsOpen (Position.textTo closedBlockCode ⟨i, site.start⟩ 2)) ∧
    KeepsOpen (ofLines otherParameterCode) ∧
      ∃ f, Outline.enclosing? {} otherParameterCode 4 = some f ∧ f.parameters = [] ∧
        resolve otherParameterCode "x" 4 (some f) = .ok (some "float") ∧
        ∀ i < 6, ∀ l ∈ otherParameterCode[i]?, ∀ site ∈ DeclarationSite.find? "x" l,
          i = 0 ∧ ¬IsGlobal otherParameterCode ⟨i, site.start⟩ := by
  refine ⟨⟨by decide +kernel, ⟨"f", "void", [], 0, some 3⟩, by decide +kernel, rfl,
    eq_ok_of_toOption (by decide +kernel), by decide +kernel⟩, by decide +kernel,
    ⟨"f", "void", [], 3, some 5⟩, by decide +kernel, rfl, eq_ok_of_toOption (by decide +kernel),
    by decide +kernel⟩

end TypeLookup

end ShaderProbe
