import Mathlib
import ShaderProbe.Proofs.CappedLoops
import ShaderProbe.Proofs.Preserved

/-!
# Capping takes effect on the selected loops

`Cap.find_of_apply` puts together what capping does to a text, in terms of the loops that are found
in it: no loop appears or vanishes, the selected loops count their iterations and break, and no
counter is put in anywhere else.

It asks that the code in front of the first opening brace closes no block.  A parameter list may
hold a closing brace, and the pass over the function counts it; a block that is closed again then
ends the function for the pass, and the loops behind it are lost (`Cap.find_of_apply_stray_brace`).
-/

namespace ShaderProbe

/-! ### The code around a place -/

namespace Position

/-- The code of the lines behind a place. -/
def codeBehind (lines : List Text) (place : Position) : Text :=
  (Text.ofLines ((Comment.strip lines).drop place.line)).drop (place.column + 1)

/-- The code of the lines in front of a place. -/
def codeInFront (lines : List Text) (place : Position) : Text :=
  place.textInFront (Comment.strip lines)

end Position

/-- The code on both sides of a character that is not blank. -/
lemma Loop.code_around {lines : List Text} {start m : Nat} {c : Char}
    (hc : (flatCode lines start)[m]? = some c) (hblank : isBlank c = false) :
    (∃ front, (FlatText.locate ⟨codeFrom lines start, start⟩ m).codeInFront lines =
        front ++ (flatCode lines start).take m) ∧
      (FlatText.locate ⟨codeFrom lines start, start⟩ m).codeBehind lines =
        (flatCode lines start).drop (m + 1) := by
  obtain ⟨n, l, column, hl, hcolumn, rfl, hlocate⟩ := FlatText.exists_locate_of_ink hc hblank start
  have hle : column ≤ l.length := (List.getElem?_eq_some_iff.mp hcolumn).1.le
  obtain ⟨htake, hdrop⟩ := FlatText.take_drop_ofLines hl hle
  rw [hlocate]
  constructor
  · have hline : (Comment.strip lines).getD (start + n) [] = l := by
      rw [List.getD_eq_getElem?_getD, ← List.getElem?_drop]
      exact congrArg (Option.getD · []) hl
    have hfirst : (Comment.strip lines).take (start + n) =
        (Comment.strip lines).take start ++ (codeFrom lines start).take n := by
      rw [codeFrom, List.take_add]
    rw [Position.codeInFront, Position.textInFront, hline, hfirst, flatCode, htake,
      List.append_assoc]
    cases hstart : (Comment.strip lines).take start with
    | nil => exact ⟨[], rfl⟩
    | cons first others =>
      exact ⟨Text.ofLines (first :: others) ++ ['\n'], by
        rw [Text.ofLines_append (by simp) (by simp), List.append_assoc, List.singleton_append]⟩
  · have hlater : (Comment.strip lines).drop (start + n) = (codeFrom lines start).drop n := by
      rw [codeFrom, List.drop_drop]
    rw [Position.codeBehind, hlater, ← hdrop, List.drop_drop, Nat.add_assoc]
    rfl

/-! ### Counters -/

namespace Text

/-- Characters around a text that belong to no word add no words. -/
lemma countWord_around {w front t back : Text} {c : Char} (hw : c ∈ w) (hc : isWordChar c = true)
    (hfront : ∀ x ∈ front, isWordChar x = false) (hback : ∀ x ∈ back, isWordChar x = false) :
    countWord w (front ++ (t ++ back)) = countWord w t := by
  have hne : w ≠ [] := List.ne_nil_of_mem hw
  have hnot : ∀ s : Text, (∀ x ∈ s, isWordChar x = false) → c ∉ s := fun s hs hmem =>
    absurd (hc.symm.trans (hs c hmem)) (by simp)
  have hstart : ∀ s : Text, (∀ x ∈ s, isWordChar x = false) → startsWord s = false := by
    intro s hs
    cases s with
    | nil => rfl
    | cons d s => exact hs d List.mem_cons_self
  rw [countWord_append_left hne (hstart _ fun x hx => hfront x (List.mem_reverse.mp hx)),
    countWord_append_right hne t (hstart back hback), countWord_eq_zero hw (hnot front hfront),
    countWord_eq_zero hw (hnot back hback), Nat.zero_add, Nat.add_zero]

/-- Blanks belong to no word. -/
lemma isWordChar_of_isBlankOnly {g : Text} (h : isBlankOnly g = true) :
    ∀ x ∈ g, isWordChar x = false := by
  intro x hx
  by_contra hword
  rw [Bool.not_eq_false] at hword
  have hblank := isBlank_eq_false_of_isWordChar hword
  rw [isBlankOnly_iff.mp h x hx] at hblank
  exact absurd hblank (by simp)

end Text

namespace Cap

variable {lines : List Text} {start : Nat} {caps : Caps} {index : Nat} {span : LoopSpan} {cap : Int}

/-- The group of a capped loop names the loop's counter twice, and no other counter. -/
lemma IsGroup.sum_countWord {loop : Loop} {es : List Edit} (hcap : 0 ≤ cap)
    (h : IsGroup lines start span (declaration {} loop) (guard {} loop cap) es) :
    (es.map fun e => Text.countWord (counterName index)
        (e.flat (Loop.codeFrom lines start) start).2).sum =
      if loop.index = index then 2 else 0 := by
  obtain ⟨d, g, last, closer, hd, hg, hlast, hcloser, rfl⟩ := h
  have hmem := underscore_mem_counterName index
  have hbrace : ∀ x ∈ " \x7b ".toList, isWordChar x = false := by
    intro x hx
    simp at hx
    rcases hx with rfl | rfl | rfl <;> decide
  have hdeclares : Text.countWord (counterName index) (d.flat (Loop.codeFrom lines start) start).2 =
      if loop.index = index then 1 else 0 := by
    obtain ⟨front, back, htext, hback, hfront⟩ := hd.text
    rw [htext, Text.countWord_around hmem (by decide) _ (Text.isWordChar_of_isBlankOnly hback),
      countWord_declaration]
    split at hfront
    · rw [hfront]
      exact fun x hx => hbrace x (List.mem_cons_of_mem ' ' hx)
    · exact Text.isWordChar_of_isBlankOnly hfront
  have hguards : Text.countWord (counterName index) (g.flat (Loop.codeFrom lines start) start).2 =
      if loop.index = index then 1 else 0 := by
    obtain ⟨front, htext, hfront⟩ := hg.text
    rw [htext, ← List.append_nil (guard {} loop cap), Text.countWord_around hmem (by decide) _
      (fun x hx => absurd hx List.not_mem_nil), countWord_guard loop hcap]
    split at hfront
    · rw [hfront]
      exact hbrace
    · exact Text.isWordChar_of_isBlankOnly hfront
  have hclosers : ∀ (p : Prop) [Decidable p], ((if p then [closer] else []).map fun e =>
      Text.countWord (counterName index) (e.flat (Loop.codeFrom lines start) start).2).sum = 0 := by
    intro p _
    split
    · rw [List.map_singleton, List.sum_singleton, hcloser.flat]
      exact Text.countWord_eq_zero hmem (by decide : '_' ∉ " \x7d".toList)
    · rfl
  rw [List.map_append, List.sum_append, List.map_cons, List.sum_cons, List.map_cons, List.sum_cons,
    hdeclares, hguards, hclosers, hclosers]
  split <;> rfl

/-- A sum over the loops that only counts the loop of an index. -/
lemma sum_find (lines : List Text) (start index : Nat) (f : Loop → Nat) :
    ((Loop.find lines start).map fun loop => if loop.index = index then f loop else 0).sum =
      ((Loop.find lines start)[index]?.map f).getD 0 := by
  have hsum : ∀ (spans : List LoopSpan) (index : Nat) (g : Nat → LoopSpan → Nat),
      (spans.mapIdx fun i span => if i = index then g i span else 0).sum =
        (spans[index]?.map (g index)).getD 0 := by
    intro spans
    induction spans with
    | nil => exact fun index g => rfl
    | cons span spans ih =>
      intro index g
      rw [List.mapIdx_cons, List.sum_cons]
      cases index with
      | zero =>
        rw [if_pos rfl, List.sum_eq_zero fun x hx => ?_]
        · rfl
        · obtain ⟨i, hi, rfl⟩ := List.mem_mapIdx.mp hx
          exact if_neg (Nat.succ_ne_zero i)
      | succ index =>
        rw [if_neg (Nat.succ_ne_zero index).symm, Nat.zero_add, List.getElem?_cons_succ,
          ← ih index fun i => g (i + 1)]
        simp only [Nat.add_right_cancel_iff]
  rw [getElem?_find, Option.map_map]
  refine Eq.trans ?_ (hsum _ index fun i span => f (loopAt lines start span i))
  refine congrArg List.sum (List.ext_getElem? fun i => ?_)
  rw [List.getElem?_map, getElem?_find, List.getElem?_mapIdx, Option.map_map]
  rfl

/-- **The words of the capped code**: each capped loop adds its counter twice. -/
theorem IsCappable.countWord_capped (h : IsCappable lines start caps)
    (hclean : Edit.IsClean (Loop.flatCode lines start)) (index : Nat) :
    Text.countWord (counterName index) (Loop.flatCode (capped lines start caps) start) =
      Text.countWord (counterName index) (Loop.flatCode lines start) +
        if ((Loop.find lines start)[index]?.bind (capOf? caps)).isSome then 2 else 0 := by
  obtain ⟨hgrows, -⟩ := h.grows hclean
  rw [h.flatCode_capped, Text.countWord_weave (counterName_ne_nil index) hgrows.bound
    (fun insert hinsert => (hgrows.inert insert hinsert).ends) hgrows.isWordStart,
    ((inserts_perm lines start caps).map _).sum_eq, List.map_flatMap, List.flatMap_def,
    List.sum_flatten, List.map_map]
  have hgroups : ∀ loop ∈ Loop.find lines start,
      (((group lines caps loop).map (Edit.flat (Loop.codeFrom lines start) start)).map
        fun insert => Text.countWord (counterName index) insert.2).sum =
      if loop.index = index then (if (capOf? caps loop).isSome then 2 else 0) else 0 := by
    intro loop hloop
    obtain ⟨i, hi⟩ := List.mem_iff_getElem?.mp hloop
    rw [getElem?_find, Option.map_eq_some_iff] at hi
    obtain ⟨span, hspan, rfl⟩ := hi
    cases hcap : capOf? caps (loopAt lines start span i) with
    | none =>
      rw [group, hcap]
      simp
    | some cap =>
      obtain ⟨hnonneg, hgroup⟩ := h.isGroup hspan hcap
      rw [List.map_map]
      exact hgroup.sum_countWord hnonneg
  rw [Function.comp_def, List.map_congr_left hgroups, sum_find]
  congr 1
  cases (Loop.find lines start)[index]? with
  | none => rfl
  | some loop => rfl

/-! ### The effect of capping -/

/-- The loop `loop` of the lines is capped in `result`: the loop of its index has braces, its guard
is the first statement behind the opening one, and its counter is declared right in front of it. -/
def IsCapped (result : List Text) (start : Nat) (loop : Loop) (cap : Int) : Prop :=
  ∃ loop' brace keyword, (Loop.find result start)[loop.index]? = some loop' ∧
    loop'.brace = some brace ∧ loop'.keyword = some keyword ∧
    (∃ gap rest, Text.isBlankOnly gap = true ∧
      brace.codeBehind result = gap ++ (guard {} loop cap ++ rest)) ∧
    ∃ front gap, Text.isBlankOnly gap = true ∧
      keyword.codeInFront result = front ++ (declaration {} loop ++ gap)

/-- A capped loop of the text. -/
lemma IsCappable.isCapped (h : IsCappable lines start caps)
    (hclean : Edit.IsClean (Loop.flatCode lines start))
    (hspan : (Loop.spans (Loop.flatCode lines start))[index]? = some span)
    (hcap : capOf? caps (loopAt lines start span index) = some cap) :
    IsCapped (capped lines start caps) start (loopAt lines start span index) cap := by
  obtain ⟨span', hspan', hkeyword, hclose⟩ := h.exists_span hclean hspan
  obtain ⟨b, gap, rest, hopens, hgap, hguard⟩ := h.exists_guard hclean hspan hcap hclose
  obtain ⟨front, gap', hgap', hdeclaration⟩ := h.exists_declaration hspan hcap
  obtain ⟨htrue, hcomplete⟩ := Loop.isTrue_of_mem_spans (List.mem_of_getElem? hspan')
  -- the brace that is found is the one behind the header
  have hbrace : span'.brace = some b := by
    cases hfound : span'.brace with
    | none => exact absurd hopens (hcomplete hfound b)
    | some b' =>
      have hopens' := htrue.brace b' hfound
      have hafter : ∀ {b}, span'.OpensAt (Loop.flatCode (capped lines start caps) start) b →
          span'.parenClose < b := by
        rintro b ⟨gap, t, -, -, rfl⟩
        omega
      rcases Nat.le_total b b' with hle | hle
      · rcases hopens'.cases (hafter hopens) hle hopens.getElem? with hblank | ⟨-, rfl⟩
        · exact absurd hblank (by decide)
        · rfl
      · rcases hopens.cases (hafter hopens') hle hopens'.getElem? with hblank | ⟨-, rfl⟩
        · exact absurd hblank (by decide)
        · rfl
  obtain ⟨c, hc, hink⟩ := htrue.mark (LoopSpan.mem_marks_iff.mpr (.inl rfl))
  obtain ⟨⟨first, hfirst⟩, -⟩ := Loop.code_around hc hink
  obtain ⟨-, hbehind⟩ := Loop.code_around hopens.getElem? (by decide)
  refine ⟨loopAt (capped lines start caps) start span' index,
    FlatText.locate ⟨Loop.codeFrom (capped lines start caps) start, start⟩ b,
    FlatText.locate ⟨Loop.codeFrom (capped lines start caps) start, start⟩ span'.keyword, ?_, ?_,
    rfl, ⟨gap, rest, hgap, hbehind.trans hguard⟩, first ++ front, gap', hgap', ?_⟩
  · change (Loop.find (capped lines start caps) start)[index]? = _
    rw [getElem?_find, hspan']
    rfl
  · change span'.brace.map _ = _
    rw [hbrace]
    rfl
  · rw [hfirst, hkeyword, hdeclaration, List.append_assoc]

/-- **Capping keeps the headers of the loops.** -/
lemma IsCappable.map_headerText_capped (h : IsCappable lines start caps)
    (hclean : Edit.IsClean (Loop.flatCode lines start)) :
    (Loop.find (capped lines start caps) start).map Loop.headerText =
      (Loop.find lines start).map Loop.headerText := by
  rw [map_headerText_find, map_headerText_find, h.cores_capped hclean, List.map_map]
  rfl

/-- A selected loop is capped. -/
lemma IsCappable.isCapped_of_mem (h : IsCappable lines start caps)
    (hclean : Edit.IsClean (Loop.flatCode lines start)) {loop : Loop}
    (hloop : loop ∈ Loop.find lines start) {cap : Int} (hcap : capOf? caps loop = some cap) :
    IsCapped (capped lines start caps) start loop cap := by
  obtain ⟨index, hindex⟩ := List.mem_iff_getElem?.mp hloop
  rw [getElem?_find, Option.map_eq_some_iff] at hindex
  obtain ⟨span, hspan, rfl⟩ := hindex
  exact h.isCapped hclean hspan hcap

/-- **Capping takes effect on exactly the selected loops.**  The lines in front of the function stay
as they are.  The loops stay the same, with the same headers; the selected ones are capped; and
counters are put in for the selected loops only, in these two places. -/
theorem find_of_apply {lines : List Text} {start : Nat} {caps : Caps}
    (hclosed : Comment.AreClosed lines) (hclean : Edit.IsClean (Loop.flatCode lines start))
    (hvalid : ∀ entry ∈ caps, 0 ≤ entry.1 ∧ 0 ≤ entry.2)
    (hends : ∀ loop ∈ Loop.find lines start, (capOf? caps loop).isSome = true →
      loop.bodyEnd.isSome = true) :
    ∃ result, apply {} lines start caps = .ok result ∧ result.take start = lines.take start ∧
      (Loop.find result start).map Loop.headerText =
        (Loop.find lines start).map Loop.headerText ∧
      (∀ loop ∈ Loop.find lines start, ∀ cap, capOf? caps loop = some cap →
        IsCapped result start loop cap) ∧
      ∀ index, Text.countWord (counterName index) (Loop.flatCode result start) =
        Text.countWord (counterName index) (Loop.flatCode lines start) +
          if ((Loop.find lines start)[index]?.bind (capOf? caps)).isSome then 2 else 0 := by
  have h : IsCappable lines start caps := ⟨hclosed, hvalid, hends⟩
  exact ⟨capped lines start caps, h.apply_eq, take_of_apply h.apply_eq,
    h.map_headerText_capped hclean, fun loop hloop cap hcap => h.isCapped_of_mem hclean hloop hcap,
    h.countWord_capped hclean⟩

/-- A loop without braces in a loop without braces, and a loop behind them. -/
def bareLoops : List Text :=
  ["float f(float x) \x7b", "  for (int i = 0; i < 8; i++)",
    "    for (int j = 0; j < 4; j++) x += 1.0; // step", "  while (x > 2.0) \x7b x *= 0.5; \x7d",
    "  return x;", "\x7d"]

/-- The inner loop is capped, and its counter is the only one. -/
theorem find_of_apply_bare_loops :
    ∃ result, apply {} bareLoops 0 [(1, 3)] = .ok result ∧
      (Loop.find result 0).map Loop.headerText =
        ["for (int i = 0; i < 8; i++)", "for (int j = 0; j < 4; j++)", "while (x > 2.0)"] ∧
      (∃ loop, (Loop.find bareLoops 0)[1]? = some loop ∧ IsCapped result 0 loop 3) ∧
      Text.countWord (counterName 1) (Loop.flatCode result 0) = 2 ∧
      Text.countWord (counterName 0) (Loop.flatCode result 0) = 0 := by
  obtain ⟨result, happly, -, htexts, hcapped, hcount⟩ :=
    @find_of_apply bareLoops 0 [(1, 3)] (by decide +kernel) (by decide +kernel)
      (by decide +kernel) (by decide +kernel)
  have hsome : (Loop.find bareLoops 0)[1]?.isSome = true := by decide +kernel
  obtain ⟨loop, hloop⟩ := Option.isSome_iff_exists.mp hsome
  have hcap : (Loop.find bareLoops 0)[1]?.bind (capOf? [(1, 3)]) = some 3 := by decide +kernel
  rw [hloop, Option.bind_some] at hcap
  refine ⟨result, happly, htexts.trans (by decide +kernel),
    ⟨loop, hloop, hcapped loop (List.mem_of_getElem? hloop) 3 hcap⟩, ?_, ?_⟩
  · exact (hcount 1).trans (by decide +kernel)
  · exact (hcount 0).trans (by decide +kernel)

/-- Two loops of a function with a closing brace in its parameter list. -/
def strayBrace : List Text :=
  ["void f(float a, \x7d) \x7b", "  for (int i = 0; i < 3; i++) a = 1.0;",
    "  for (int j = 0; j < 3; j++) a = 2.0;", "\x7d"]

/-- Behind a parameter list with a closing brace, the braces of the capped loop end the function:
the second loop is found in the lines, but not in the capped ones. -/
theorem find_of_apply_stray_brace :
    (Outline.functions {} strayBrace).map (·.startLine) = [0] ∧ Comment.AreClosed strayBrace ∧
      (Loop.find strayBrace 0).map Loop.headerText =
        ["for (int i = 0; i < 3; i++)", "for (int j = 0; j < 3; j++)"] ∧
      (∀ loop ∈ Loop.find strayBrace 0, loop.bodyEnd.isSome = true) ∧
      ∃ result, apply {} strayBrace 0 [(0, 5)] = .ok result ∧
        (Loop.find result 0).map Loop.headerText = ["for (int i = 0; i < 3; i++)"] := by
  refine ⟨by decide +kernel, by decide +kernel, by decide +kernel, by decide +kernel,
    ["void f(float a, \x7d) \x7b", "  int _dbgIter0 = 0;",
      "  for (int i = 0; i < 3; i++) \x7b if (++_dbgIter0 > 5) break; a = 1.0; \x7d",
      "  for (int j = 0; j < 3; j++) a = 2.0;", "\x7d"],
    eq_ok_of_toOption ?_, ?_⟩ <;> decide +kernel

end Cap

end ShaderProbe
