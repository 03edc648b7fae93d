import Mathlib
import ShaderProbe.Proofs.Growth

/-!
# Statements without loops

What is put next to a loop is made of blanks, braces and simple statements.  Each of these holds no
loop (`LoopScan.IsInert`), and neither does a sequence of them that closes no block it has not
opened (`LoopScan.IsInert.append`).
-/

namespace ShaderProbe

namespace LoopScan

/-- A text without loops behind another one that leaves no block to close. -/
lemma IsInert.append {a b : Text} (ha : IsInert a) (hb : IsInert b) (hopen : 0 ≤ Text.braceDelta a)
    (hrest : 0 ≤ Text.braceDelta b ∨ Text.braceDelta a = 0) : IsInert (a ++ b) := by
  have hword : ∀ before, Text.startsWord before = false →
      Text.startsWord (a.reverse ++ before) = false := by
    intro before hbefore
    have hends := ha.ends
    cases hrev : a.reverse with
    | nil => exact hbefore
    | cons c r =>
      rw [hrev] at hends
      exact hends
  refine ⟨fun scan before offset hstarted hbefore hdepth => ?_, ?_, ?_⟩
  · rw [Text.braceDelta_append] at hdepth
    obtain ⟨mid, hrun, hcores, hparens, hmid, hdelta⟩ :=
      ha.passes scan before offset hstarted hbefore (.inl hopen)
    have hmore : 0 ≤ Text.braceDelta b ∨ 1 ≤ mid.depth + Text.braceDelta b := by
      rcases hrest with hrest | hrest
      · exact .inl hrest
      · omega
    obtain ⟨next, hrun', hcores', hparens', hnext, hdelta'⟩ :=
      hb.passes mid (a.reverse ++ before) (offset + a.length) hmid (hword before hbefore) hmore
    refine ⟨next, fun rest => ?_, hcores'.trans hcores, hparens'.trans hparens, hnext, ?_⟩
    · rw [List.append_assoc, hrun, hrun', List.reverse_append, List.append_assoc,
        List.length_append, Nat.add_assoc]
    · rw [hdelta', hdelta, Text.braceDelta_append, add_assoc]
  · have hends := hb.ends
    rw [List.reverse_append]
    cases hrev : b.reverse with
    | nil => exact ha.ends
    | cons c r =>
      rw [hrev] at hends
      exact hends
  · cases hblank : Text.isBlankOnly a with
    | true =>
      rw [Text.trimLeft_append hblank]
      exact hb.starts
    | false =>
      obtain ⟨c, r, htrim, hc, -⟩ := Text.exists_trimLeft_eq_cons hblank
      have hhead : Text.trimLeft (a ++ b) = c :: (r ++ b) := by
        rw [← Text.indent_append_trimLeft a, htrim, List.append_assoc,
          Text.trimLeft_append (Text.isBlankOnly_indent a), List.cons_append, Text.trimLeft_cons hc]
      have hstarts := ha.starts
      rw [htrim] at hstarts
      rw [hhead]
      exact hstarts

/-- Blanks open and close no blocks. -/
lemma braceDelta_of_isBlankOnly {g : Text} (h : Text.isBlankOnly g = true) :
    Text.braceDelta g = 0 := by
  have hnone : ∀ c : Char, isBlank c = false → g.count c = 0 := fun c hc =>
    List.count_eq_zero.mpr fun hmem => by
      rw [Text.isBlankOnly_iff.mp h c hmem] at hc
      exact absurd hc (by simp)
  rw [Text.braceDelta, hnone '{' (by decide), hnone '}' (by decide)]
  rfl

/-- Blanks hold no loop. -/
lemma isInert_blank {g : Text} (h : Text.isBlankOnly g = true) : IsInert g := by
  refine ⟨fun scan before offset hstarted hbefore _ =>
    ⟨scan, fun rest => ?_, rfl, rfl, hstarted, ?_⟩, ?_, ?_⟩
  · exact run_gap scan ⟨g, h⟩ before rest offset
  · rw [braceDelta_of_isBlankOnly h, add_zero]
  · cases hrev : g.reverse with
    | nil => rfl
    | cons c r =>
      have hc : isBlank c = true := Text.isBlankOnly_iff.mp h c (by
        rw [← List.mem_reverse, hrev]
        exact List.mem_cons_self)
      exact isWordChar_eq_false_of_isBlank hc
  · rw [Text.trimLeft_eq_nil h]
    simp

/-- An opening brace holds no loop. -/
lemma isInert_openBrace : IsInert ['{'] := by
  refine ⟨fun scan before offset hstarted hbefore _ => ⟨scan.openBrace offset, fun rest => ?_,
    cores_openBrace _ _, ?_, ?_, ?_⟩, by decide, by decide⟩
  · exact run_openBrace scan before rest offset
  all_goals
    rw [openBrace]
    split <;> rfl

/-- A closing brace holds no loop. -/
lemma isInert_closeBrace : IsInert ['}'] := by
  refine ⟨fun scan before offset hstarted hbefore hdepth => ?_, by decide, by decide⟩
  obtain ⟨hdelta, hstarted', hparens, -⟩ := closeBrace_fields scan offset
  have hminus : Text.braceDelta ['}'] = -1 := by decide
  rw [hminus] at hdepth
  refine ⟨scan.closeBrace offset, fun rest => ?_, cores_closeBrace _ _, hparens,
    hstarted'.trans hstarted, by rw [hdelta, hminus]; rfl⟩
  have hgoes : ¬((scan.closeBrace offset).started = true ∧ (scan.closeBrace offset).depth ≤ 0) := by
    rw [hdelta]
    omega
  rw [List.singleton_append, run_closeBrace, if_neg hgoes]
  rfl

/-- A keyword and blanks in front of the end of a statement are no header. -/
lemma headerParen?_of_not_mem {c : Char} {b t : Text} (hc : c ≠ '(') (hb : '(' ∉ b) :
    LoopSpan.headerParen? (c :: (b ++ ';' :: t)) = none := by
  by_contra hne
  obtain ⟨paren, hparen⟩ := Option.ne_none_iff_exists'.mp hne
  obtain ⟨keyword, hmem, gap, rest, hgap, heq, -⟩ := LoopSpan.headerParen?_eq_some_iff.mp hparen
  have hfront : ';' ∉ keyword ++ gap := by
    rw [List.mem_append]
    rintro (hk | hg)
    · have hcases : keyword = "for".toList ∨ keyword = "while".toList := by
        simpa [LoopSpan.keywords] using hmem
      rcases hcases with rfl | rfl <;> exact absurd hk (by decide)
    · exact absurd (Text.isBlankOnly_iff.mp hgap _ hg) (by decide)
  rw [← List.append_assoc, ← List.cons_append] at heq
  rcases List.append_eq_append_iff.mp heq with ⟨x, hx, hrest⟩ | ⟨x, hx, hrest⟩
  · cases x with
    | nil => exact absurd (List.cons.inj hrest).1 (by decide)
    | cons d x =>
      rw [hx, (List.cons.inj hrest).1.symm] at hfront
      exact hfront (by simp)
  · cases x with
    | nil => exact absurd (List.cons.inj hrest).1 (by decide)
    | cons d x =>
      have hparen : '(' ∈ c :: b := by
        rw [hx, (List.cons.inj hrest).1]
        simp
      rcases List.mem_cons.mp hparen with hparen | hparen
      · exact hc hparen.symm
      · exact hb hparen

/-- A simple statement holds no loop, if no word of it that may be a keyword stands in front of a
parenthesis. -/
lemma isInert_statement {u : Text} (hplain : ∀ c ∈ u, c ≠ '{' ∧ c ≠ '}' ∧ c ≠ ';')
    (hparens : Text.parenDelta u = 0)
    (hwords : ∀ a c b, u = a ++ c :: b → c = 'f' ∨ c = 'w' →
      Text.startsWord a.reverse = true ∨ '(' ∉ b)
    (hstart : (Text.trimLeft (u ++ [';'])).head? ≠ some '(' ∧
      (Text.trimLeft (u ++ [';'])).head? ≠ some ';') : IsInert (u ++ [';']) := by
  have hdelta : Text.braceDelta (u ++ [';']) = 0 := by
    rw [Text.braceDelta, List.count_eq_zero.mpr, List.count_eq_zero.mpr]
    · rfl
    · simp only [List.mem_append, List.mem_singleton]
      rintro (hc | hc)
      · exact (hplain _ hc).2.1 rfl
      · exact absurd hc (by decide)
    · simp only [List.mem_append, List.mem_singleton]
      rintro (hc | hc)
      · exact (hplain _ hc).1 rfl
      · exact absurd hc (by decide)
  refine ⟨fun scan before offset hstarted hbefore _ => ?_, by simp [Text.startsWord]; decide, hstart⟩
  have hquiet : ∀ rest, scan.run before offset 0 (u ++ ';' :: rest) =
      scan.run (u.reverse ++ before) (offset + u.length) 0 (';' :: rest) := by
    intro rest
    rw [run_quiet, hparens, add_zero]
    intro a c b hsplit
    obtain ⟨hopen, hclose, hsemi⟩ := hplain c (by rw [hsplit]; simp)
    refine ⟨hopen, hclose, fun _ => ⟨hsemi, fun _ hword => ?_⟩⟩
    by_cases hc : c = 'f' ∨ c = 'w'
    · rcases hwords a c b hsplit hc with hinside | hb
      · cases hrev : a.reverse with
        | nil =>
          rw [hrev] at hinside
          exact absurd hinside (by decide)
        | cons d r =>
          rw [hrev] at hinside hword
          exact absurd (hinside.symm.trans hword) (by simp)
      · exact headerParen?_of_not_mem (by rcases hc with rfl | rfl <;> decide) hb
    · rw [not_or] at hc
      exact LoopSpan.headerParen?_eq_none hc.1 hc.2
  by_cases hzero : scan.parens = 0
  · refine ⟨scan.endBraceless (offset + u.length), fun rest => ?_, cores_endBraceless _ _, ?_, ?_, ?_⟩
    · rw [List.append_assoc, List.singleton_append, hquiet, run_semicolon scan hzero]
      simp [Nat.add_assoc]
    · rw [endBraceless_eq]
    · rw [endBraceless_eq]
      exact hstarted
    · rw [endBraceless_eq, hdelta, add_zero]
  · refine ⟨scan, fun rest => ?_, rfl, rfl, hstarted, by rw [hdelta, add_zero]⟩
    rw [List.append_assoc, List.singleton_append, hquiet,
      run_cons_quiet scan (by decide) (by decide) (fun h => absurd h hzero)
        (fun _ h => absurd h hzero)]
    have hnone : Text.parenDelta [';'] = 0 := by decide
    rw [hnone, add_zero]
    simp [Nat.add_assoc]

end LoopScan

end ShaderProbe
