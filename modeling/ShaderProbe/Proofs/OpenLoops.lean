import Mathlib
import ShaderProbe.Proofs.LoopFront
import ShaderProbe.Proofs.Stretch

/-!
# Loops that have ended

The pass keeps the numbers of the loops whose bodies have not ended.  Each of them is waited for
once and has no end yet (`LoopScan.Waits`), so an end that has been recorded stays, and an end that
is recorded later lies later in the text (`LoopScan.Runs.continues`).

What the pass knows at a `;` or a brace outside of parentheses does not depend on the text behind
it. If every loop in front of such a place has ended there in one text, the same loops have ended
there in every text that starts in the same way (`Loop.ended_of_front`).
-/

namespace ShaderProbe

namespace LoopScan

/-! ### Loops that wait for their end -/

/-- The numbers of the loops whose bodies have not ended. -/
def openLoops (scan : LoopScan) : List Nat :=
  scan.awaiting.toList ++ (scan.braced ++ scan.braceless).map Prod.fst

/-- Every loop that waits for its end does so once, and has no end yet. -/
structure Waits (scan : LoopScan) : Prop where
  nodup : scan.openLoops.Nodup
  unended : ∀ i ∈ scan.openLoops, ∃ span, scan.spans[i]? = some span ∧ span.bodyEnd = none

/-- The loops of a state are those of a later one.  Ends stay, and the ends that have been added lie
at `o` or behind it. -/
def Continues (o : Nat) (scan next : LoopScan) : Prop :=
  ∀ (i : Nat) (span : LoopSpan), scan.spans[i]? = some span → ∃ span', next.spans[i]? = some span' ∧
    span'.keyword = span.keyword ∧ (span'.bodyEnd = span.bodyEnd ∨
      span.bodyEnd = none ∧ ∃ e, span'.bodyEnd = some e ∧ o ≤ e)

variable {scan next last : LoopScan} {o : Nat}

/-- A change that leaves the ends of the loops as they are. -/
lemma Continues.of_getElem? (h : ∀ (i : Nat) (span : LoopSpan), scan.spans[i]? = some span →
    ∃ span', next.spans[i]? = some span' ∧ span'.keyword = span.keyword ∧
      span'.bodyEnd = span.bodyEnd) : Continues o scan next := by
  intro i span hspan
  obtain ⟨span', hspan', hkeyword, hend⟩ := h i span hspan
  exact ⟨span', hspan', hkeyword, .inl hend⟩

/-- Nothing has to change. -/
lemma Continues.refl (o : Nat) (scan : LoopScan) : Continues o scan scan :=
  .of_getElem? fun _ span hspan => ⟨span, hspan, rfl, rfl⟩

/-- Going on for some time and then for some more. -/
lemma Continues.trans {o' : Nat} (h : Continues o scan next) (h' : Continues o' next last)
    (hle : o ≤ o') : Continues o scan last := by
  intro i span hspan
  obtain ⟨span', hspan', hkeyword, hend⟩ := h i span hspan
  obtain ⟨span'', hspan'', hkeyword', hend'⟩ := h' i span' hspan'
  refine ⟨span'', hspan'', hkeyword'.trans hkeyword, ?_⟩
  rcases hend' with hsame | ⟨hnone, e, he, hle'⟩
  · rw [hsame]
    exact hend
  · rcases hend with hsame | ⟨-, e', he', -⟩
    · exact .inr ⟨hsame.symm.trans hnone, e, he, hle.trans hle'⟩
    · rw [hnone] at he'
      exact absurd he' (by simp)

/-- Some of the loops that wait end at an offset, and the others go on waiting. -/
lemma Waits.endLoops (h : scan.Waits) (ended : List Nat)
    (hopen : scan.openLoops.Perm (ended ++ next.openLoops))
    (hspans : ∀ i, next.spans[i]? = scan.spans[i]?.map fun span =>
      if i ∈ ended then { span with bodyEnd := some o } else span) :
    next.Waits ∧ Continues o scan next := by
  have hnodup : (ended ++ next.openLoops).Nodup := hopen.nodup_iff.mp h.nodup
  have hmem : ∀ i, i ∈ ended ∨ i ∈ next.openLoops → i ∈ scan.openLoops := fun i hi =>
    hopen.mem_iff.mpr (List.mem_append.mpr hi)
  constructor
  · refine ⟨(List.nodup_append.mp hnodup).2.1, fun i hi => ?_⟩
    obtain ⟨span, hspan, hnone⟩ := h.unended i (hmem i (.inr hi))
    have hother : i ∉ ended := fun hi' => (List.nodup_append.mp hnodup).2.2 i hi' i hi rfl
    refine ⟨span, ?_, hnone⟩
    rw [hspans, hspan, Option.map_some, if_neg hother]
  · intro i span hspan
    by_cases hi : i ∈ ended
    · obtain ⟨span', hspan', hnone⟩ := h.unended i (hmem i (.inl hi))
      obtain rfl : span' = span := Option.some.inj (hspan'.symm.trans hspan)
      refine ⟨{ span' with bodyEnd := some o }, ?_, rfl, .inr ⟨hnone, o, rfl, le_rfl⟩⟩
      rw [hspans, hspan, Option.map_some, if_pos hi]
    · refine ⟨span, ?_, rfl, .inl rfl⟩
      rw [hspans, hspan, Option.map_some, if_neg hi]

/-- A loop after some loops have ended. -/
lemma getElem?_endAll (entries : List (Nat × Int)) (o : Nat) (spans : List LoopSpan) (i : Nat) :
    (endAll entries o spans)[i]? = spans[i]?.map fun span =>
      if i ∈ entries.map Prod.fst then { span with bodyEnd := some o } else span := by
  induction entries generalizing spans with
  | nil => simp [endAll]
  | cons entry entries ih =>
    rw [endAll, List.foldl_cons, ← endAll, ih, List.getElem?_modify, Option.map_eq_map,
      Option.map_map]
    congr 1
    funext span
    by_cases hentry : entry.1 = i <;> by_cases hmem : i ∈ entries.map Prod.fst <;>
      simp_all [eq_comm]

/-- The end of a statement. -/
lemma Waits.endBraceless (h : scan.Waits) (o : Nat) :
    (scan.endBraceless o).Waits ∧ Continues o scan (scan.endBraceless o) := by
  rw [endBraceless_eq]
  refine h.endLoops ((scan.braceless.takeWhile fun entry =>
    entry.2 = scan.depth).map Prod.fst) ?_ fun i => getElem?_endAll _ _ _ _
  rw [List.perm_iff_count]
  intro i
  unfold openLoops
  conv_lhs => rw [← List.takeWhile_append_dropWhile (l := scan.braceless)
    (p := fun entry => decide (entry.2 = scan.depth))]
  simp only [List.map_append, List.count_append]
  omega

/-- The end of a block. -/
lemma Waits.closeBrace (h : scan.Waits) (o : Nat) :
    (scan.closeBrace o).Waits ∧ Continues o scan (scan.closeBrace o) := by
  -- a state that differs in its depth only waits for the same loops
  have hdepth : ∀ {s : LoopScan}, s.Waits ∧ Continues o scan s →
      ({ s with depth := s.depth - 1 }.endBraceless o).Waits ∧
        Continues o scan ({ s with depth := s.depth - 1 }.endBraceless o) := by
    intro s hs
    have hwaits : { s with depth := s.depth - 1 }.Waits := ⟨hs.1.nodup, hs.1.unended⟩
    obtain ⟨hnext, hcontinues⟩ := hwaits.endBraceless o
    exact ⟨hnext, hs.2.trans hcontinues le_rfl⟩
  have hsame : scan.Waits ∧ Continues o scan scan :=
    ⟨h, .of_getElem? fun i span hspan => ⟨span, hspan, rfl, rfl⟩⟩
  unfold LoopScan.closeBrace
  split
  · exact hdepth hsame
  · rename_i index inside outer hbraced
    split
    · refine hdepth (h.endLoops [index] ?_ fun i => ?_)
      · rw [List.perm_iff_count]
        intro i
        unfold openLoops endBody
        rw [hbraced]
        simp only [List.map_append, List.map_cons, List.count_append, List.count_cons,
          List.count_nil]
        omega
      · unfold endBody
        rw [List.getElem?_modify, Option.map_eq_map]
        simp only [List.mem_singleton, eq_comm (a := i)]
    · exact hdepth hsame

/-- The start of a block. -/
lemma Waits.openBrace (h : scan.Waits) (o : Nat) :
    (scan.openBrace o).Waits ∧ Continues o scan (scan.openBrace o) := by
  unfold LoopScan.openBrace
  dsimp only
  split
  · exact ⟨⟨h.nodup, h.unended⟩, .of_getElem? fun i span hspan => ⟨span, hspan, rfl, rfl⟩⟩
  · rename_i index hindex
    have hspans : ∀ (i : Nat) (span : LoopSpan), scan.spans[i]? = some span → ∃ span',
        (scan.spans.modify index fun span => { span with brace := some o })[i]? = some span' ∧
          span'.keyword = span.keyword ∧ span'.bodyEnd = span.bodyEnd := by
      intro i span hspan
      rw [List.getElem?_modify, hspan]
      split
      · exact ⟨_, rfl, rfl, rfl⟩
      · exact ⟨_, rfl, rfl, rfl⟩
    have hopen : scan.openLoops = index :: (scan.braced ++ scan.braceless).map Prod.fst := by
      rw [openLoops, hindex]
      rfl
    refine ⟨⟨?_, fun i hi => ?_⟩, .of_getElem? hspans⟩
    · have hnodup := h.nodup
      rwa [hopen] at hnodup
    · obtain ⟨span, hspan, hnone⟩ := h.unended i (by rwa [hopen])
      obtain ⟨span', hspan', -, hend⟩ := hspans i span hspan
      exact ⟨span', hspan', hend.trans hnone⟩

/-- A loop that is found waits for its end. -/
lemma Waits.addLoop (h : scan.Waits) (o offset length : Nat) (headerText : Text) (bareBody : Bool)
    (first : Option Char) :
    (scan.addLoop offset length headerText bareBody first).Waits ∧
      Continues o scan (scan.addLoop offset length headerText bareBody first) := by
  set span : LoopSpan := { keyword := offset, parenClose := offset + length, headerText, bareBody }
    with hspan
  have hold : ∀ (i : Nat) (old : LoopSpan), scan.spans[i]? = some old →
      (scan.spans ++ [span])[i]? = some old := by
    intro i old hi
    rw [List.getElem?_append_left (List.getElem?_eq_some_iff.mp hi).1, hi]
  -- the number of the loop is new
  have hfresh : scan.spans.length ∉ scan.openLoops := by
    intro hmem
    obtain ⟨old, hi, -⟩ := h.unended _ hmem
    exact absurd (List.getElem?_eq_some_iff.mp hi).1 (Nat.lt_irrefl _)
  have hunended : ∀ i, i = scan.spans.length ∨ i ∈ scan.openLoops →
      ∃ old, (scan.spans ++ [span])[i]? = some old ∧ old.bodyEnd = none := by
    rintro i (rfl | hi)
    · exact ⟨span, by simp, rfl⟩
    · obtain ⟨old, hi, hnone⟩ := h.unended i hi
      exact ⟨old, hold i old hi, hnone⟩
  have hnodup := h.nodup
  unfold openLoops at hnodup hfresh hunended
  rw [List.mem_append] at hfresh
  push Not at hfresh
  unfold LoopScan.addLoop
  dsimp only
  split
  · refine ⟨⟨?_, fun i hi => hunended i ?_⟩,
      .of_getElem? fun i old hi => ⟨old, hold i old hi, rfl, rfl⟩⟩
    · exact List.nodup_cons.mpr ⟨hfresh.2, (List.nodup_append.mp hnodup).2.1⟩
    · exact (List.mem_cons.mp hi).imp_right (List.mem_append_right _)
  · refine ⟨⟨?_, fun i hi => hunended i ?_⟩,
      .of_getElem? fun i old hi => ⟨old, hold i old hi, rfl, rfl⟩⟩
    · have hperm : (scan.awaiting.toList ++
          (scan.braced ++ (scan.spans.length, scan.depth) :: scan.braceless).map Prod.fst).Perm
          (scan.spans.length :: (scan.awaiting.toList ++
            (scan.braced ++ scan.braceless).map Prod.fst)) := by
        rw [List.map_append, List.map_cons, List.map_append, ← List.append_assoc,
          ← List.append_assoc]
        exact List.perm_middle
      have hnew : scan.spans.length ∉ scan.awaiting.toList ++
          (scan.braced ++ scan.braceless).map Prod.fst := fun hmem =>
        (List.mem_append.mp hmem).elim hfresh.1 hfresh.2
      exact hperm.nodup_iff.mpr (List.nodup_cons.mpr ⟨hnew, hnodup⟩)
    · unfold openLoops at hi
      simp only [List.map_append, List.map_cons, List.mem_append, List.mem_cons] at hi ⊢
      tauto

/-- At the start nothing is waited for. -/
lemma waits_nil : ({} : LoopScan).Waits :=
  ⟨List.nodup_nil, fun _ hi => absurd hi List.not_mem_nil⟩

/-- **The ends of loops stay, and ends that a run adds lie in the text that is read.** -/
theorem Runs.continues {before t : Text} (h : Runs scan before o t last) (hwaits : scan.Waits) :
    last.Waits ∧ Continues o scan last := by
  -- a step and what follows it
  have hstep : ∀ {scan next last : LoopScan} {o o' : Nat},
      (next.Waits → last.Waits ∧ Continues o' next last) → o ≤ o' →
      next.Waits ∧ Continues o scan next → last.Waits ∧ Continues o scan last := by
    intro scan next last o o' hlast hle hnext
    exact ⟨(hlast hnext.1).1, hnext.2.trans (hlast hnext.1).2 hle⟩
  induction h with
  | nil scan before offset => exact ⟨hwaits, .refl offset scan⟩
  | openBrace next ih => exact hstep ih (Nat.le_succ _) (hwaits.openBrace _)
  | closeBrace hopen next ih => exact hstep ih (Nat.le_succ _) (hwaits.closeBrace _)
  | lastBrace hstarted hdepth => exact hwaits.closeBrace _
  | semicolon hparens next ih => exact hstep ih (Nat.le_succ _) (hwaits.endBraceless _)
  | quiet hopen hclose hsemi hloop next ih =>
    exact hstep ih (Nat.le_succ _) ⟨⟨hwaits.nodup, hwaits.unended⟩,
      .of_getElem? fun _ span hspan => ⟨span, hspan, rfl, rfl⟩⟩
  | unclosed hstarted hparens hbefore hparen hclose => exact ⟨hwaits, .refl _ _⟩
  | doWhile hstarted hparens hbefore hheader hsemi next ih =>
    exact hstep ih (Nat.le_add_right _ _) ⟨hwaits, .refl _ _⟩
  | loop hstarted hparens hbefore hheader hsemi next ih =>
    exact hstep ih (Nat.le_add_right _ _) (hwaits.addLoop _ _ _ _ _ _)

/-- **What the pass goes on to find leaves the ends of the loops as they are.** -/
lemma GoesOn.continues {n : Nat} {mid : LoopScan} (h : GoesOn n mid last) (hwaits : mid.Waits) :
    Continues n mid last := by
  obtain ⟨next, before, offset, t, hle, hruns, hnext⟩ := h
  rcases hnext with rfl | ⟨o, length, headerText, bareBody, first, -, rfl⟩
  · exact (Continues.refl _ _).trans (hruns.continues hwaits).2 hle
  · obtain ⟨hwaits', hcontinues⟩ := hwaits.addLoop n o length headerText bareBody first
    exact hcontinues.trans (hruns.continues hwaits').2 hle

end LoopScan

/-! ### Parentheses in front of a loop -/

namespace LoopSpan

/-- The parenthesis of a header stays open as far as its end, and is closed there. -/
lemma IsHeader.parenDelta {a : Text} (h : IsHeader a) :
    Text.parenDelta (a ++ [')']) = 0 ∧ ∀ u x, u <+: a → x ∈ [';', '{', '}'] → x ∈ u →
      1 ≤ Text.parenDelta u := by
  obtain ⟨keyword, hkeyword, gap, group, hgap, rfl, hclose⟩ := h
  have hcases : keyword = "for".toList ∨ keyword = "while".toList := by
    simpa [keywords] using hkeyword
  have hword : Text.parenDelta keyword = 0 := by
    rcases hcases with rfl | rfl <;> decide
  have hblank : Text.parenDelta gap = 0 := LoopScan.parenDelta_gap ⟨gap, hgap⟩
  obtain ⟨hopen, hlast⟩ := Text.depth_of_closingFrom (by decide) hclose
  rw [List.take_left] at hlast
  have hsplit : keyword ++ (gap ++ '(' :: group) = (keyword ++ gap ++ ['(']) ++ group := by simp
  have hfront : Text.parenDelta (keyword ++ gap ++ ['(']) = 1 := by
    rw [Text.parenDelta_append, Text.parenDelta_append, hword, hblank]
    rfl
  rw [hsplit]
  constructor
  · have hclosing : Text.parenDelta [')'] = -1 := rfl
    rw [Text.parenDelta_append, Text.parenDelta_append, hfront, hclosing]
    omega
  · intro u x hu hx hmem
    rcases List.prefix_or_prefix_of_prefix hu (List.prefix_append _ group) with hle | ⟨v, rfl⟩
    · -- the front ends in the keyword, the blanks or the parenthesis
      rcases List.mem_append.mp (hle.subset hmem) with hmem | hmem
      · rcases List.mem_append.mp hmem with hmem | hmem
        · have hchar := Text.isWordChar_of_isIdent (Text.isIdent_keyword hkeyword).1 x hmem
          simp only [List.mem_cons, List.not_mem_nil, or_false] at hx
          rcases hx with rfl | rfl | rfl <;> exact absurd hchar (by decide)
        · exact absurd (Text.isBlankOnly_iff.mp hgap x hmem) (by simp [(ends_cases hx).1])
      · exact absurd (List.mem_singleton.mp hmem) (ends_cases hx).2.1
    · have hv : v <+: group := (List.prefix_append_right_inj _).mp hu
      have hdepth := hopen v.length hv.length_le
      rw [← List.prefix_iff_eq_take.mp (hv.trans (List.prefix_append group [')']))] at hdepth
      rw [Text.parenDelta_append, hfront]
      exact hdepth

end LoopSpan

namespace LoopScan

/-- The parentheses that are open as far as a text has been read. -/
lemma parenDelta_take_of_isReadTo {text before u rest : Text} {o : Nat}
    (h : text.IsReadTo before o (u ++ rest)) :
    Text.parenDelta (text.take (o + u.length)) =
      Text.parenDelta (text.take o) + Text.parenDelta u := by
  rw [List.take_add, h.drop_eq, List.take_left, Text.parenDelta_append]

/-- **A loop is found outside of parentheses.** -/
lemma Runs.parenDelta_cores {text before t : Text} {o : Nat} {scan last : LoopScan}
    (h : Runs scan before o t last) (hread : text.IsReadTo before o t)
    (hparens : scan.parens = Text.parenDelta (text.take o))
    (hold : ∀ core ∈ scan.cores, Text.parenDelta (text.take core.1) = 0) :
    ∀ core ∈ last.cores, Text.parenDelta (text.take core.1) = 0 := by
  -- a character that is no parenthesis
  have hchar : ∀ {before t : Text} {o : Nat} {c : Char}, text.IsReadTo before o (c :: t) →
      Text.parenDelta [c] = 0 →
        Text.parenDelta (text.take (o + 1)) = Text.parenDelta (text.take o) := by
    intro before t o c hread hc
    have htake := parenDelta_take_of_isReadTo (u := [c]) hread
    rwa [hc, Int.add_zero] at htake
  induction h with
  | nil scan before offset => exact hold
  | @openBrace scan last before t offset next ih =>
    have hfield : (scan.openBrace offset).parens = scan.parens := by
      unfold LoopScan.openBrace
      dsimp only
      split <;> rfl
    refine ih hread.cons ?_ (by simpa using hold)
    rw [hfield, hparens, hchar hread rfl]
  | @closeBrace scan last before t offset hopen next ih =>
    refine ih hread.cons ?_ (by simpa using hold)
    rw [(closeBrace_fields scan offset).2.2.1, hparens, hchar hread rfl]
  | lastBrace hstarted hdepth => simpa using hold
  | semicolon hzero next ih =>
    refine ih hread.cons ?_ (by simpa using hold)
    rw [endBraceless_eq, hparens, hchar hread rfl]
  | @quiet scan last before t offset c hopen hclose hsemi hloop next ih =>
    refine ih hread.cons ?_ hold
    rw [hparens, ← parenDelta_take_of_isReadTo (u := [c]) hread, List.length_singleton]
  | unclosed hstarted hzero hbefore hparen hclose => exact hold
  | @doWhile scan last before t offset a hstarted hzero hbefore hheader hsemi next ih =>
    have hheaderRead : text.IsReadTo before offset ((a ++ [')']) ++ t) := by
      rwa [List.append_assoc, List.singleton_append]
    refine ih hread.concat ?_ hold
    rw [parenDelta_take_of_isReadTo hheaderRead, hheader.parenDelta.1, Int.add_zero, hparens]
  | @loop scan last before t offset a hstarted hzero hbefore hheader hsemi next ih =>
    have hheaderRead : text.IsReadTo before offset ((a ++ [')']) ++ t) := by
      rwa [List.append_assoc, List.singleton_append]
    refine ih hread.concat ?_ fun core hcore => ?_
    · have hfield : (scan.addLoop offset a.length (Text.squeeze (a ++ [')']))
          (LoopSpan.isBareBody before) (Text.trimLeft t).head?).parens = scan.parens := by
        unfold LoopScan.addLoop
        dsimp only
        split <;> rfl
      rw [hfield, parenDelta_take_of_isReadTo hheaderRead, hheader.parenDelta.1, Int.add_zero,
        hparens]
    · rw [cores_addLoop] at hcore
      rcases List.mem_append.mp hcore with hcore | hcore
      · exact hold core hcore
      · rw [List.mem_singleton.mp hcore, ← hparens, hzero]

end LoopScan

namespace Loop

/-- **Loops that have ended.**  If every loop that starts in front of a `;` or a brace outside of
parentheses has ended there, then so it is in every text that starts in the same way. -/
theorem ended_of_front {x : Char} (hx : x ∈ [';', '{', '}']) {front r w : Text}
    (hparens : Text.parenDelta (front ++ [x]) = 0)
    (hends : ∀ span ∈ spans (front ++ x :: r), span.keyword < front.length →
      ∃ e ∈ span.bodyEnd, e ≤ front.length) {span : LoopSpan}
    (h : span ∈ spans (front ++ x :: w)) (hlt : span.keyword < front.length) :
    ∃ e ∈ span.bodyEnd, e ≤ front.length := by
  have hwaits := ((LoopScan.runs_run (front ++ [x]) {} [] 0).continues LoopScan.waits_nil).1
  have hgoes := LoopScan.goesOn_front hx w front {} [] 0
  rw [Nat.zero_add] at hgoes
  obtain ⟨i, hi⟩ := List.mem_iff_getElem?.mp h
  obtain ⟨new, hnew, hlater⟩ := hgoes.exists_cores
  rcases Nat.lt_or_ge i (LoopScan.run {} [] 0 0 (front ++ [x])).spans.length with hold | hold
  · -- the loop is known at the place, and has an end there
    obtain ⟨known, hknown⟩ : ∃ known, (LoopScan.run {} [] 0 0 (front ++ [x])).spans[i]? =
        some known := ⟨_, List.getElem?_eq_getElem hold⟩
    obtain ⟨span', hspan', hkeyword, hend⟩ := hgoes.continues hwaits i known hknown
    obtain rfl : span' = span := Option.some.inj (hspan'.symm.trans hi)
    obtain ⟨other, hother, hkeyword', hend'⟩ :=
      (LoopScan.goesOn_front hx r front {} [] 0).continues hwaits i known hknown
    obtain ⟨e, he, hle⟩ := hends other (List.mem_of_getElem? hother) (by omega)
    rw [Option.mem_def] at he
    rcases hend' with hsame | ⟨-, e', he', hle'⟩
    · rcases hend with hsame' | ⟨hnone, -⟩
      · exact ⟨e, by rw [Option.mem_def, hsame', ← hsame, he], hle⟩
      · rw [← hsame, he] at hnone
        exact absurd hnone (by simp)
    · obtain rfl : e' = e := Option.some.inj (he'.symm.trans he)
      omega
  · -- the header of the loop would hold the place between its parentheses
    exfalso
    have hcore : span.core ∈ new := by
      have hget : (LoopScan.run {} [] 0 0 (front ++ x :: w)).cores[i]? = some span.core := by
        rw [LoopScan.cores, List.getElem?_map]
        exact congrArg (Option.map LoopSpan.core) hi
      rw [hnew, List.getElem?_append_right (by rwa [LoopScan.cores, List.length_map])] at hget
      exact List.mem_of_getElem? hget
    have hclose : front.length + 1 ≤ span.parenClose := hlater _ hcore
    have htrue := (isTrue_of_mem_spans h).1
    obtain ⟨a, t, hdrop, hheader, hparenClose, -⟩ := htrue.header
    have hzero : Text.parenDelta ((front ++ x :: w).take span.keyword) = 0 := by
      refine (LoopScan.runs_run (front ++ x :: w) {} [] 0).parenDelta_cores (.start _) rfl
        (fun core hcore => absurd hcore List.not_mem_nil) span.core ?_
      exact List.mem_map_of_mem h
    set header := a.take (front.length + 1 - span.keyword) with hset
    have hsplit : front ++ [x] = (front ++ x :: w).take span.keyword ++ header := by
      have htake : front ++ [x] = (front ++ x :: w).take (front.length + 1) := by
        rw [show front ++ x :: w = (front ++ [x]) ++ w by simp, List.take_left' (by simp)]
      have hlong : front.length + 1 = span.keyword + (front.length + 1 - span.keyword) := by omega
      have hshort : front.length + 1 - span.keyword ≤ a.length := by omega
      rw [htake, hlong, List.take_add, hdrop, List.take_append_of_le_length hshort]
    have hmem : x ∈ header := by
      have hne : header ≠ [] := List.ne_nil_of_length_pos (by rw [hset, List.length_take]; omega)
      have hlast := congrArg List.getLast? hsplit
      rw [List.getLast?_append_of_ne_nil _ hne, List.getLast?_concat] at hlast
      exact List.mem_of_getLast? hlast.symm
    have hopen := hheader.parenDelta.2 header x (List.take_prefix _ _) hx hmem
    rw [hsplit, Text.parenDelta_append, hzero] at hparens
    omega

end Loop

end ShaderProbe
