import Mathlib
import ShaderProbe.Proofs.Moves

/-!
# Loops of the front of a text

The pass looks ahead: at a keyword it looks for the parenthesis that closes the header, and for the
first character behind it.  It never looks past a `;` or a brace for anything else than the end of a
header, so what it has found up to there does not depend on the text behind it
(`LoopScan.goesOn_front`).  The loops whose headers end in front of a `;` are therefore loops of
every text that starts in the same way (`Loop.exists_cores_front`).
-/

namespace ShaderProbe

/-- A list without a letter in front of that letter. -/
lemma exists_eq_append_of_not_mem {α : Type*} {a b u r : List α} {x : α} (hx : x ∉ a)
    (h : a ++ b = u ++ x :: r) : ∃ v, u = a ++ v := by
  rcases List.append_eq_append_iff.mp h with ⟨v, hu, -⟩ | ⟨v, ha, hv⟩
  · exact ⟨v, hu⟩
  · cases v with
    | nil => exact ⟨[], by simpa using ha.symm⟩
    | cons y v =>
      obtain rfl : x = y := (List.cons.inj hv).1
      exact absurd (by rw [ha]; simp) hx

/-- Of two letters of a list, the first one stands in front of the second one. -/
lemma exists_eq_append_cons {α : Type*} {a u r v : List α} {x y : α} (h : u ++ x :: r = a ++ y :: v)
    (hne : x ≠ y) (hle : a.length ≤ u.length) :
    ∃ back, u = a ++ y :: back ∧ v = back ++ x :: r := by
  rcases List.append_eq_append_iff.mp h with ⟨b, rfl, hb⟩ | ⟨b, rfl, hb⟩
  · obtain rfl : b = [] := List.length_eq_zero_iff.mp (by rw [List.length_append] at hle; omega)
    exact absurd (List.cons.inj hb).1 hne
  · cases b with
    | nil => exact absurd (List.cons.inj hb).1.symm hne
    | cons z back =>
      obtain ⟨rfl, hv⟩ := List.cons.inj hb
      exact ⟨back, rfl, hv⟩

/-! ### What is read in front of the end of a statement

A character `x` ends a statement or bounds a block: it is a `;` or a brace. -/

/-- Such a character is neither blank nor a parenthesis. -/
lemma ends_cases {x : Char} (hx : x ∈ [';', '{', '}']) :
    isBlank x = false ∧ x ≠ '(' ∧ x ≠ ')' := by
  simp only [List.mem_cons, List.not_mem_nil, or_false] at hx
  rcases hx with rfl | rfl | rfl <;> decide

/-- A header starts in front of such a character or not, whatever stands behind it. -/
lemma LoopSpan.headerParen?_front {x : Char} (hx : x ∈ [';', '{', '}']) (u r r' : Text) :
    headerParen? (u ++ x :: r) = headerParen? (u ++ x :: r') := by
  have hread : ∀ (r r' : Text) (n : Nat), headerParen? (u ++ x :: r) = some n →
      headerParen? (u ++ x :: r') = some n := by
    intro r r' n hn
    obtain ⟨keyword, hmem, gap, rest, hgap, ht, rfl⟩ := headerParen?_eq_some_iff.mp hn
    have hsplit : keyword ++ gap ++ ['('] ++ rest = u ++ x :: r := by simp [ht]
    obtain ⟨hblank, hparen, -⟩ := ends_cases hx
    have hkeyword : x ∉ keyword := by
      have hcases : keyword = "for".toList ∨ keyword = "while".toList := by
        simpa [keywords] using hmem
      simp only [List.mem_cons, List.not_mem_nil, or_false] at hx
      rcases hx with rfl | rfl | rfl <;> rcases hcases with rfl | rfl <;> decide
    have hgapFree : x ∉ gap := fun h =>
      absurd (Text.isBlankOnly_iff.mp hgap x h) (by simp [hblank])
    obtain ⟨v, rfl⟩ := exists_eq_append_of_not_mem (by simp [hkeyword, hgapFree, hparen]) hsplit
    exact headerParen?_eq_some_iff.mpr ⟨keyword, hmem, gap, v ++ x :: r', hgap, by simp, rfl⟩
  exact Option.ext fun n => ⟨hread r r' n, hread r' r n⟩

/-- The first character that is not blank, in front of such a character or at it. -/
lemma Text.head?_trimLeft_front {x : Char} (hx : x ∈ [';', '{', '}']) (u r r' : Text) :
    (trimLeft (u ++ x :: r)).head? = (trimLeft (u ++ x :: r')).head? := by
  induction u with
  | nil =>
    obtain ⟨hblank, -⟩ := ends_cases hx
    rw [List.nil_append, List.nil_append, trimLeft_cons hblank, trimLeft_cons hblank]
    rfl
  | cons c u ih =>
    rw [List.cons_append, List.cons_append]
    cases hc : isBlank c with
    | false =>
      rw [trimLeft_cons hc, trimLeft_cons hc]
      rfl
    | true =>
      have hgap : isBlankOnly [c] = true := by simp [isBlankOnly, hc]
      rw [← List.singleton_append, trimLeft_append hgap, ← List.singleton_append (l := u ++ _),
        trimLeft_append hgap, ih]

namespace LoopScan

/-- The pass goes on from a state behind an offset.  It may first find one more loop, whose header
has started in front of the offset and ends behind it. -/
def GoesOn (n : Nat) (mid last : LoopScan) : Prop :=
  ∃ next before offset t, n ≤ offset ∧ Runs next before offset t last ∧
    (next = mid ∨ ∃ o length headerText bareBody first, n ≤ o + length ∧
      next = mid.addLoop o length headerText bareBody first)

/-- The pass may end at once. -/
lemma GoesOn.refl (n : Nat) (mid : LoopScan) : GoesOn n mid mid :=
  ⟨mid, [], n, [], le_rfl, .nil mid [] n, .inl rfl⟩

/-- The pass reads on. -/
lemma GoesOn.of_run (mid : LoopScan) (before : Text) (n : Nat) (t : Text) :
    GoesOn n mid (mid.run before n 0 t) :=
  ⟨mid, before, n, t, le_rfl, runs_run t mid before n, .inl rfl⟩

/-- Loops that are found later have headers that end later. -/
lemma GoesOn.exists_cores {n : Nat} {mid last : LoopScan} (h : GoesOn n mid last) :
    ∃ new, last.cores = mid.cores ++ new ∧ ∀ core ∈ new, n ≤ core.2.1 := by
  obtain ⟨next, before, offset, t, hle, hruns, hnext⟩ := h
  obtain ⟨new, hnew, hlater⟩ := hruns.exists_cores
  have hlast : ∀ core ∈ new, n ≤ core.2.1 := fun core hcore =>
    hle.trans ((hlater core hcore).1.trans (hlater core hcore).2)
  rcases hnext with rfl | ⟨o, length, headerText, bareBody, first, hclose, rfl⟩
  · exact ⟨new, hnew, hlast⟩
  · rw [cores_addLoop, List.append_assoc] at hnew
    refine ⟨_, hnew, fun core hcore => ?_⟩
    rcases List.mem_append.mp hcore with hcore | hcore
    · rw [List.mem_singleton.mp hcore]
      exact hclose
    · exact hlast core hcore

/-- A header that does not close in front of such a character closes behind it or not at all. -/
lemma goesOn_header {x : Char} (hx : x ∈ [';', '{', '}']) {scan : LoopScan} {before front : Text}
    {paren : Nat} (hstarted : scan.started = true) (hparens : scan.parens = 0)
    (hbefore : Text.startsWord before = false)
    (hparen : ∀ rest, LoopSpan.headerParen? (front ++ x :: rest) = some paren)
    (hclose : Text.closingParen? ((front ++ [x]).drop paren) = none) (offset : Nat)
    (rest : Text) :
    GoesOn (offset + (front.length + 1)) scan (scan.run before offset 0 (front ++ x :: rest)) := by
  cases hclosing : Text.closingParen? ((front ++ x :: rest).drop paren) with
  | none =>
    obtain ⟨c, t, hcons⟩ := List.exists_cons_of_ne_nil (l := front ++ x :: rest) (by simp)
    have hread := hparen rest
    rw [hcons] at hread hclosing ⊢
    rw [run_unclosed hstarted hparens hbefore hread hclosing]
    exact .refl _ _
  | some close =>
    obtain ⟨a, u, hsplit, hheader, hlength⟩ := LoopSpan.exists_isHeader (hparen rest) hclosing
    -- otherwise the header would close in front
    have hlong : front.length + 1 ≤ a.length := by
      by_contra hlt
      obtain ⟨back, rfl, -⟩ := exists_eq_append_cons hsplit (ends_cases hx).2.2 (by omega)
      obtain ⟨paren', close', hread, hcloses, -⟩ := hheader.read (back ++ [x])
      rw [← List.cons_append, ← List.append_assoc] at hread hcloses
      obtain rfl : paren = paren' := Option.some.inj ((hparen []).symm.trans hread)
      rw [hclose] at hcloses
      exact absurd hcloses (by simp)
    have hread := hparen rest
    rw [hsplit] at hread hclosing ⊢
    rw [run_closed hstarted hparens hbefore hread hclosing hlength.symm]
    refine ⟨_, _, _, u, ?_, runs_run u _ _ _, ?_⟩
    · rw [List.length_append, List.length_singleton]
      omega
    · split
      · exact .inl rfl
      · exact .inr ⟨offset, a.length, _, _, _, by omega, rfl⟩

/-- At such a character the pass makes one move, whatever follows it. -/
lemma goesOn_end {x : Char} (hx : x ∈ [';', '{', '}']) (rest : Text) (scan : LoopScan)
    (before : Text) (offset : Nat) :
    GoesOn (offset + 1) (scan.run before offset 0 [x]) (scan.run before offset 0 (x :: rest)) := by
  simp only [List.mem_cons, List.not_mem_nil, or_false] at hx
  rcases hx with rfl | rfl | rfl
  · by_cases hparens : scan.parens = 0
    · rw [run_semicolon scan hparens, run_semicolon scan hparens]
      exact .of_run _ _ _ _
    · have hquiet : ∀ t, scan.run before offset 0 (';' :: t) =
          { scan with parens := scan.parens + Text.parenDelta [';'] }.run (';' :: before)
            (offset + 1) 0 t := fun t => run_cons_quiet scan (by decide) (by decide)
        (fun h => absurd h hparens) (fun _ h => absurd h hparens) offset
      rw [hquiet, hquiet]
      exact .of_run _ _ _ _
  · rw [run_openBrace, run_openBrace]
    exact .of_run _ _ _ _
  · rw [run_closeBrace, run_closeBrace]
    split
    · exact .refl _ _
    · exact .of_run _ _ _ _

/-- A header that closes in front of such a character is read alike whatever follows the
character. -/
lemma run_header_front {x : Char} (hx : x ∈ [';', '{', '}']) {scan : LoopScan} {before a : Text}
    (hstarted : scan.started = true) (hparens : scan.parens = 0)
    (hbefore : Text.startsWord before = false) (hheader : LoopSpan.IsHeader a) (offset : Nat)
    (back rest : Text) :
    scan.run before offset 0 (a ++ ')' :: (back ++ x :: rest)) =
      (scan.behindHeader before offset a (Text.trimLeft (back ++ [x])).head?).run
        ((a ++ [')']).reverse ++ before) (offset + (a ++ [')']).length) 0 (back ++ x :: rest) := by
  rw [run_isHeader hstarted hparens hbefore hheader, Text.head?_trimLeft_front hx back rest []]

/-- **What the pass has found up to a `;` or a brace does not depend on the text behind it.** -/
theorem goesOn_front {x : Char} (hx : x ∈ [';', '{', '}']) (rest front : Text) :
    ∀ (scan : LoopScan) (before : Text) (offset : Nat),
      GoesOn (offset + (front.length + 1)) (scan.run before offset 0 (front ++ [x]))
        (scan.run before offset 0 (front ++ x :: rest)) := by
  -- a header is read at once, so the rest of the front is any shorter text
  induction hn : front.length using Nat.strong_induction_on generalizing front with
  | _ n ih =>
    subst hn
    intro scan before offset
    cases front with
    | nil => exact goesOn_end hx rest scan before offset
    | cons c front =>
      have hnext : ∀ (scan : LoopScan) (before : Text),
          GoesOn (offset + ((c :: front).length + 1))
            (scan.run before (offset + 1) 0 (front ++ [x]))
            (scan.run before (offset + 1) 0 (front ++ x :: rest)) := by
        intro scan before
        have hgoes := ih front.length (by simp) front rfl scan before (offset + 1)
        rw [List.length_cons, Nat.add_right_comm, ← Nat.add_assoc]
        rw [Nat.add_right_comm] at hgoes
        exact hgoes
      by_cases hopen : c = '{'
      · subst hopen
        rw [List.cons_append, List.cons_append, run_openBrace, run_openBrace]
        exact hnext _ _
      by_cases hclose : c = '}'
      · subst hclose
        rw [List.cons_append, List.cons_append, run_closeBrace, run_closeBrace]
        split
        · exact .refl _ _
        · exact hnext _ _
      by_cases hsemi : c = ';' ∧ scan.parens = 0
      · obtain ⟨rfl, hparens⟩ := hsemi
        rw [List.cons_append, List.cons_append, run_semicolon scan hparens,
          run_semicolon scan hparens]
        exact hnext _ _
      by_cases hloop : (scan.started = true ∧ scan.parens = 0 ∧ Text.startsWord before = false) ∧
          LoopSpan.headerParen? (c :: front ++ [x]) ≠ none
      · obtain ⟨⟨hstarted, hparens, hbefore⟩, hheader⟩ := hloop
        obtain ⟨paren, hparen⟩ := Option.ne_none_iff_exists'.mp hheader
        cases hclosing : Text.closingParen? ((c :: front ++ [x]).drop paren) with
        | none =>
          have hread : ∀ rest, LoopSpan.headerParen? (c :: front ++ x :: rest) = some paren :=
            fun rest => (LoopSpan.headerParen?_front hx (c :: front) rest []).trans hparen
          rw [List.cons_append] at hparen hclosing
          conv => arg 2; rw [List.cons_append,
            run_unclosed hstarted hparens hbefore hparen hclosing]
          rw [← List.cons_append] at hclosing
          exact goesOn_header hx hstarted hparens hbefore hread hclosing offset rest
        | some close =>
          obtain ⟨a, u, hsplit, hisHeader, hlength⟩ := LoopSpan.exists_isHeader hparen hclosing
          -- the header ends in front, and what follows it is read in front as well
          obtain ⟨back, hfront, -⟩ := exists_eq_append_cons hsplit (ends_cases hx).2.2 (by
            have := congrArg List.length hsplit
            simp only [List.length_append, List.length_cons, List.length_nil] at this ⊢
            omega)
          have hlong : (c :: front).length = (a ++ [')']).length + back.length := by
            rw [hfront]
            simp only [List.length_append, List.length_cons, List.length_nil]
            omega
          have hgoes := ih back.length (by rw [hlong, List.length_append]; simp) back rfl
            (scan.behindHeader before offset a (Text.trimLeft (back ++ [x])).head?)
            ((a ++ [')']).reverse ++ before) (offset + (a ++ [')']).length)
          rw [hlong, hfront, List.append_assoc, List.append_assoc, List.cons_append,
            List.cons_append, run_header_front hx hstarted hparens hbefore hisHeader,
            run_header_front hx hstarted hparens hbefore hisHeader,
            Nat.add_assoc (a ++ [')']).length, ← Nat.add_assoc offset]
          exact hgoes
      · have hquiet : ∀ rest, scan.run before offset 0 (c :: front ++ x :: rest) =
            { scan with parens := scan.parens + Text.parenDelta [c] }.run (c :: before)
              (offset + 1) 0 (front ++ x :: rest) := by
          intro rest
          refine run_cons_quiet scan hopen hclose (fun hparens hc => hsemi ⟨hc, hparens⟩)
            (fun hstarted hparens hbefore => ?_) offset
          by_contra hne
          refine hloop ⟨⟨hstarted, hparens, hbefore⟩, ?_⟩
          rwa [LoopSpan.headerParen?_front hx (c :: front) [] rest]
        rw [hquiet, hquiet]
        exact hnext _ _

end LoopScan

namespace Loop

/-- **The loops in front of a `;` are loops of every text that starts in the same way.** -/
theorem exists_cores_front (front : Text) :
    ∃ common, ∀ rest, ∃ new,
      (spans (front ++ ';' :: rest)).map LoopSpan.core = common ++ new ∧
        ∀ core ∈ new, front.length < core.2.1 := by
  have hsemi : ';' ∈ [';', '{', '}'] := by decide
  refine ⟨(({} : LoopScan).run [] 0 0 (front ++ [';'])).cores, fun rest => ?_⟩
  obtain ⟨new, hnew, hlater⟩ := (LoopScan.goesOn_front hsemi rest front {} [] 0).exists_cores
  exact ⟨new, hnew, fun core hcore => by have := hlater core hcore; omega⟩

end Loop

end ShaderProbe
