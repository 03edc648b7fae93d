import Mathlib
import ShaderProbe.Proofs.Moves

/-!
# What the pass knows about the loops

The offsets that the pass records are those of the text: a keyword with a header behind it, the
brace right behind the header, and a `;` or a closing brace at the end of the body.
`LoopScan.Sound` is what holds of the state at every move, and `Loop.isTrue_of_mem_spans` what
follows for the loops of a text.

If no brace closes in front of the first one that opens, blocks stay open as long as the pass goes
on (`LoopScan.Nested`), so the brace that ends the pass ends no loop.
-/

namespace ShaderProbe

namespace LoopSpan

variable {text : Text} {span : LoopSpan}

/-- The first character behind the header of a loop that is not blank is a brace at the given
offset. -/
def OpensAt (text : Text) (span : LoopSpan) (offset : Nat) : Prop :=
  ∃ gap t, Text.isBlankOnly gap = true ∧ text.drop (span.parenClose + 1) = gap ++ '{' :: t ∧
    offset = span.parenClose + 1 + gap.length

/-- What is recorded about a loop is true of the text. -/
structure IsTrue (text : Text) (span : LoopSpan) : Prop where
  header : ∃ a t, text.drop span.keyword = a ++ ')' :: t ∧ IsHeader a ∧
    span.parenClose = span.keyword + a.length ∧ span.headerText = Text.squeeze (a ++ [')']) ∧
      (Text.trimLeft t).head? ≠ some ';'
  isWordStart : Text.startsWord (text.take span.keyword).reverse = false
  isInside : '{' ∈ text.take span.keyword
  brace : ∀ b ∈ span.brace, span.OpensAt text b
  bodyEnd : ∀ e ∈ span.bodyEnd, span.parenClose < e ∧ (∀ b ∈ span.brace, b < e) ∧
    (text[e]? = some ';' ∨ text[e]? = some '}')

/-- The brace of a loop is recorded if there is one. -/
def IsComplete (text : Text) (span : LoopSpan) : Prop :=
  span.brace = none → ∀ b, ¬span.OpensAt text b

/-- The brace behind a header is the first character of the text behind it that is not blank. -/
lemma opensAt_iff {t : Text} (hdrop : text.drop (span.parenClose + 1) = t) {b : Nat} :
    span.OpensAt text b ↔ (Text.trimLeft t).head? = some '{' ∧
      b = span.parenClose + 1 + (Text.indent t).length := by
  unfold OpensAt
  rw [hdrop]
  constructor
  · rintro ⟨gap, u, hgap, rfl, rfl⟩
    rw [Text.trimLeft_append hgap, Text.trimLeft_cons (by decide),
      Text.indent_append hgap (by decide)]
    exact ⟨rfl, rfl⟩
  · rintro ⟨hhead, rfl⟩
    obtain ⟨u, hu⟩ := List.head?_eq_some_iff.mp hhead
    refine ⟨Text.indent t, u, Text.isBlankOnly_indent t, ?_, rfl⟩
    rw [← hu, Text.indent_append_trimLeft]

/-- Up to the brace behind a header there are only blanks. -/
lemma OpensAt.cases {b o : Nat} {c : Char} (h : span.OpensAt text b) (hlow : span.parenClose < o)
    (hhigh : o ≤ b) (hc : text[o]? = some c) : isBlank c = true ∨ c = '{' ∧ o = b := by
  obtain ⟨gap, t, hgap, hdrop, rfl⟩ := h
  have hget : (gap ++ '{' :: t)[o - (span.parenClose + 1)]? = some c := by
    rw [← hdrop, List.getElem?_drop, Nat.add_sub_cancel' hlow, hc]
  by_cases hlt : o - (span.parenClose + 1) < gap.length
  · rw [List.getElem?_append_left hlt] at hget
    exact .inl (Text.isBlankOnly_iff.mp hgap c (List.mem_of_getElem? hget))
  · have heq : o - (span.parenClose + 1) = gap.length := by omega
    rw [heq, List.getElem?_append_right le_rfl, Nat.sub_self] at hget
    exact .inr ⟨(Option.some.inj hget).symm, by omega⟩

/-- The brace of a loop is where the text has it. -/
lemma OpensAt.getElem? {b : Nat} (h : span.OpensAt text b) : text[b]? = some '{' := by
  obtain ⟨gap, t, -, hdrop, rfl⟩ := h
  rw [← List.getElem?_drop, hdrop, List.getElem?_append_right le_rfl, Nat.sub_self]
  rfl

/-- The keyword of a loop is where the text has it. -/
lemma IsTrue.keyword (h : span.IsTrue text) :
    text[span.keyword]? = some 'f' ∨ text[span.keyword]? = some 'w' := by
  obtain ⟨a, t, hdrop, hheader, -⟩ := h.header
  obtain ⟨c, b, rfl, hc⟩ := hheader.exists_cons
  have hget : text[span.keyword]? = some c := by
    rw [← List.head?_drop, hdrop, List.cons_append, List.head?_cons]
  rcases hc with rfl | rfl
  · exact .inl hget
  · exact .inr hget

/-- The end of the header of a loop is where the text has it. -/
lemma IsTrue.parenClose (h : span.IsTrue text) : text[span.parenClose]? = some ')' := by
  obtain ⟨a, t, hdrop, -, hclose, -⟩ := h.header
  rw [hclose, ← List.getElem?_drop, hdrop, List.getElem?_append_right le_rfl, Nat.sub_self]
  rfl

/-- A header ends behind its keyword. -/
lemma IsTrue.keyword_lt (h : span.IsTrue text) : span.keyword < span.parenClose := by
  obtain ⟨a, t, -, hheader, hclose, -⟩ := h.header
  obtain ⟨c, b, rfl, -⟩ := hheader.exists_cons
  rw [hclose, List.length_cons]
  omega

end LoopSpan

namespace LoopScan

variable {text : Text} {scan last : LoopScan} {o : Nat}

/-- What holds of the state of the pass in front of an offset. -/
structure Sound (text : Text) (o : Nat) (scan : LoopScan) : Prop where
  isTrue : ∀ span ∈ scan.spans, span.IsTrue text
  marks : ∀ span ∈ scan.spans, ∀ m ∈ span.marks, m < o
  sorted : scan.cores.Pairwise fun a b => a.2.1 < b.1
  started : scan.started = true ↔ '{' ∈ text.take o
  complete : scan.awaiting = none → ∀ span ∈ scan.spans, span.IsComplete text
  awaiting : ∀ i ∈ scan.awaiting, ∃ front span b, scan.spans = front ++ [span] ∧
    i = front.length ∧ (∀ x ∈ front, x.IsComplete text) ∧ span.brace = none ∧
      span.bodyEnd = none ∧ span.OpensAt text b ∧ o ≤ b

/-- Where a loop waits for its brace, a character is blank or the brace. -/
lemma Sound.awaiting_eq_none (h : Sound text o scan) {c : Char} (hc : text[o]? = some c)
    (hblank : isBlank c = false) (hbrace : c ≠ '{') : scan.awaiting = none := by
  cases hawaiting : scan.awaiting with
  | none => rfl
  | some i =>
    obtain ⟨front, span, b, hspans, -, -, -, -, hopens, hb⟩ := h.awaiting i hawaiting
    have hmem : span ∈ scan.spans := by
      rw [hspans]
      exact List.mem_append_right front List.mem_cons_self
    have hlow := h.marks span hmem span.parenClose (LoopSpan.mem_marks_iff.mpr (.inr (.inl rfl)))
    rcases hopens.cases hlow hb hc with hc | ⟨hc, -⟩
    · rw [hblank] at hc
      exact absurd hc Bool.false_ne_true
    · exact absurd hc hbrace

/-- An opening brace is in front of an offset if it is in front of the last one or at it. -/
lemma mem_take_succ {c : Char} (hc : text[o]? = some c) :
    '{' ∈ text.take (o + 1) ↔ '{' ∈ text.take o ∨ c = '{' := by
  rw [List.take_add_one, hc, List.mem_append]
  simp [eq_comm]

/-- An opening brace belongs to the loop that waits for it. -/
lemma Sound.openBrace (h : Sound text o scan) (hc : text[o]? = some '{') :
    Sound text (o + 1) (scan.openBrace o) := by
  have hstarted : (scan.openBrace o).started = true ↔ '{' ∈ text.take (o + 1) := by
    rw [mem_take_succ hc, LoopScan.openBrace]
    split <;> simp
  have hmarks : ∀ span ∈ (scan.openBrace o).spans, ∀ m ∈ span.marks, m < o + 1 := by
    intro span hspan m hm
    obtain ⟨old, hold, rfl | rfl⟩ := mem_openBrace hspan
    · exact Nat.lt_succ_of_lt (h.marks span hold m hm)
    · rcases LoopSpan.mem_marks_brace hm with hm | rfl
      · exact Nat.lt_succ_of_lt (h.marks old hold m hm)
      · exact Nat.lt_succ_self m
  have hsorted : (scan.openBrace o).cores.Pairwise fun a b => a.2.1 < b.1 := by
    rw [cores_openBrace]
    exact h.sorted
  cases hawaiting : scan.awaiting with
  | none =>
    have hspans : (scan.openBrace o).spans = scan.spans := by simp [LoopScan.openBrace, hawaiting]
    have hnone : (scan.openBrace o).awaiting = none := by simp [LoopScan.openBrace, hawaiting]
    refine ⟨?_, hmarks, hsorted, hstarted, fun _ => ?_, ?_⟩
    · rw [hspans]
      exact h.isTrue
    · rw [hspans]
      exact h.complete hawaiting
    · rw [hnone]
      exact fun i hi => absurd hi (by simp)
  | some i =>
    obtain ⟨front, span, b, hspans, rfl, hfront, hbrace, hend, hopens, hb⟩ := h.awaiting i hawaiting
    have hmem : span ∈ scan.spans := by
      rw [hspans]
      exact List.mem_append_right front List.mem_cons_self
    have hlow := h.marks span hmem span.parenClose (LoopSpan.mem_marks_iff.mpr (.inr (.inl rfl)))
    obtain rfl : o = b := by
      rcases hopens.cases hlow hb hc with hblank | ⟨-, hb⟩
      · exact absurd hblank (by decide)
      · exact hb
    have hnew : (scan.openBrace o).spans = front ++ [{ span with brace := some o }] := by
      simp only [LoopScan.openBrace, hawaiting]
      rw [hspans, modify_append_length]
    have hnone : (scan.openBrace o).awaiting = none := by simp [LoopScan.openBrace, hawaiting]
    refine ⟨?_, hmarks, hsorted, hstarted, fun _ => ?_, ?_⟩
    · intro x hx
      rw [hnew, List.mem_append, List.mem_singleton] at hx
      rcases hx with hx | rfl
      · exact h.isTrue x (by rw [hspans]; exact List.mem_append_left _ hx)
      · obtain ⟨hheader, hword, hinside, -, -⟩ := h.isTrue span hmem
        refine ⟨hheader, hword, hinside, fun b hb => ?_, fun e he => ?_⟩
        · obtain rfl : o = b := Option.some.inj hb
          exact hopens
        · rw [hend] at he
          exact absurd he (by simp)
    · intro x hx
      rw [hnew, List.mem_append, List.mem_singleton] at hx
      rcases hx with hx | rfl
      · exact hfront x hx
      · exact fun hnone => absurd hnone (by simp)
    · rw [hnone]
      exact fun i hi => absurd hi (by simp)

/-- Ending loops at a `;` or a brace keeps what is known. -/
lemma Sound.end (h : Sound text o scan) {c : Char} (hc : text[o]? = some c)
    (hend : c = ';' ∨ c = '}') (hmem : ∀ span ∈ last.spans, ∃ old ∈ scan.spans,
      span = old ∨ span = { old with bodyEnd := some o })
    (hcores : last.cores = scan.cores) (hstarted : last.started = scan.started)
    (hawaiting : last.awaiting = scan.awaiting) : Sound text (o + 1) last := by
  have hblank : isBlank c = false := by rcases hend with rfl | rfl <;> decide
  have hbrace : c ≠ '{' := by rcases hend with rfl | rfl <;> decide
  have hnone := h.awaiting_eq_none hc hblank hbrace
  refine ⟨?_, ?_, by rw [hcores]; exact h.sorted, ?_, fun _ => ?_, ?_⟩
  · intro span hspan
    obtain ⟨old, hold, rfl | rfl⟩ := hmem span hspan
    · exact h.isTrue span hold
    · obtain ⟨hheader, hword, hinside, hbraces, -⟩ := h.isTrue old hold
      refine ⟨hheader, hword, hinside, hbraces, fun e he => ?_⟩
      obtain rfl : o = e := Option.some.inj he
      refine ⟨h.marks old hold _ (LoopSpan.mem_marks_iff.mpr (.inr (.inl rfl))), fun b hb => ?_, ?_⟩
      · exact h.marks old hold b (LoopSpan.mem_marks_iff.mpr (.inr (.inr (.inl hb))))
      · rcases hend with rfl | rfl
        · exact .inl hc
        · exact .inr hc
  · intro span hspan m hm
    obtain ⟨old, hold, rfl | rfl⟩ := hmem span hspan
    · exact Nat.lt_succ_of_lt (h.marks span hold m hm)
    · rcases LoopSpan.mem_marks_bodyEnd hm with hm | rfl
      · exact Nat.lt_succ_of_lt (h.marks old hold m hm)
      · exact Nat.lt_succ_self m
  · rw [hstarted, h.started, mem_take_succ hc]
    exact ⟨.inl, fun hor => hor.resolve_right hbrace⟩
  · intro span hspan
    obtain ⟨old, hold, rfl | rfl⟩ := hmem span hspan
    · exact h.complete hnone span hold
    · exact h.complete hnone old hold
  · rw [hawaiting, hnone]
    exact fun i hi => absurd hi (by simp)

/-- A character that is passed over keeps what is known. -/
lemma Sound.quiet (h : Sound text o scan) {c : Char} (hc : text[o]? = some c) (hbrace : c ≠ '{')
    (parens : Int) : Sound text (o + 1) { scan with parens } := by
  refine ⟨h.isTrue, fun span hspan m hm => Nat.lt_succ_of_lt (h.marks span hspan m hm), h.sorted,
    ?_, h.complete, fun i hi => ?_⟩
  · rw [mem_take_succ hc]
    exact h.started.trans ⟨.inl, fun hor => hor.resolve_right hbrace⟩
  · obtain ⟨front, span, b, hspans, hi, hfront, hnone, hend, hopens, hb⟩ := h.awaiting i hi
    refine ⟨front, span, b, hspans, hi, hfront, hnone, hend, hopens, ?_⟩
    -- the character is not the brace that is waited for
    have hne : o ≠ b := by
      rintro rfl
      rw [hopens.getElem?] at hc
      exact hbrace (Option.some.inj hc).symm
    omega

/-- The text behind a header. -/
lemma drop_header {a t : Text} (hdrop : text.drop o = a ++ ')' :: t) :
    text.drop (o + a.length + 1) = t := by
  have hsplit : a ++ ')' :: t = (a ++ [')']) ++ t := by simp
  rw [Nat.add_assoc, ← List.drop_drop, hdrop, hsplit, List.drop_left' (by simp)]

/-- Where a header starts, no loop waits for its brace. -/
lemma Sound.awaiting_of_header (h : Sound text o scan) {a t : Text}
    (hdrop : text.drop o = a ++ ')' :: t) (hheader : LoopSpan.IsHeader a) :
    scan.awaiting = none := by
  obtain ⟨c, b, rfl, hc⟩ := hheader.exists_cons
  have hget : text[o]? = some c := by
    rw [← List.head?_drop, hdrop, List.cons_append, List.head?_cons]
  refine h.awaiting_eq_none hget ?_ ?_
  · rcases hc with rfl | rfl <;> decide
  · rcases hc with rfl | rfl <;> decide

/-- A header that is passed over keeps what is known. -/
lemma Sound.skip (h : Sound text o scan) (hstarted : scan.started = true) {a t : Text}
    (hdrop : text.drop o = a ++ ')' :: t) (hheader : LoopSpan.IsHeader a) :
    Sound text (o + (a ++ [')']).length) scan := by
  have hnone := h.awaiting_of_header hdrop hheader
  refine ⟨h.isTrue, fun span hspan m hm => ?_, h.sorted, ?_, h.complete, ?_⟩
  · exact Nat.lt_of_lt_of_le (h.marks span hspan m hm) (Nat.le_add_right _ _)
  · have hinside := h.started.mp hstarted
    exact ⟨fun _ => List.take_subset_take_left _ (Nat.le_add_right _ _) hinside, fun _ => hstarted⟩
  · rw [hnone]
    exact fun i hi => absurd hi (by simp)

/-- A loop that is found is a loop of the text. -/
lemma Sound.addLoop (h : Sound text o scan) (hstarted : scan.started = true) {a t : Text}
    (hdrop : text.drop o = a ++ ')' :: t) (hheader : LoopSpan.IsHeader a)
    (hword : Text.startsWord (text.take o).reverse = false)
    (hsemi : (Text.trimLeft t).head? ≠ some ';') (bareBody : Bool) :
    Sound text (o + (a ++ [')']).length)
      (scan.addLoop o a.length (Text.squeeze (a ++ [')'])) bareBody (Text.trimLeft t).head?) := by
  have hskip := h.skip hstarted hdrop hheader
  have hnone := h.awaiting_of_header hdrop hheader
  set span : LoopSpan :=
    { keyword := o, parenClose := o + a.length, headerText := Text.squeeze (a ++ [')']), bareBody }
    with hspan
  set next := scan.addLoop o a.length (Text.squeeze (a ++ [')'])) bareBody (Text.trimLeft t).head?
    with hnext
  have hspans : next.spans = scan.spans ++ [span] := by
    rw [hnext, LoopScan.addLoop]
    split <;> rfl
  have htrue : span.IsTrue text := by
    refine ⟨⟨a, t, hdrop, hheader, rfl, rfl, hsemi⟩, hword, h.started.mp hstarted, ?_, ?_⟩
    · exact fun b hb => absurd hb (by simp [hspan])
    · exact fun e he => absurd he (by simp [hspan])
  have hopens : ∀ b, span.OpensAt text b ↔ (Text.trimLeft t).head? = some '{' ∧
      b = o + a.length + 1 + (Text.indent t).length :=
    fun b => LoopSpan.opensAt_iff (drop_header hdrop)
  refine ⟨?_, ?_, ?_, ?_, ?_, ?_⟩
  · intro x hx
    rw [hspans, List.mem_append, List.mem_singleton] at hx
    rcases hx with hx | rfl
    · exact h.isTrue x hx
    · exact htrue
  · intro x hx m hm
    rw [hspans, List.mem_append, List.mem_singleton] at hx
    rcases hx with hx | rfl
    · exact hskip.marks x hx m hm
    · have hkeyword : span.keyword = o := rfl
      have hclose : span.parenClose = o + a.length := rfl
      rw [List.length_append, List.length_singleton]
      rcases LoopSpan.mem_marks_iff.mp hm with hm | hm | hb | he
      · omega
      · omega
      · exact absurd hb (by simp [hspan])
      · exact absurd he (by simp [hspan])
  · rw [hnext, cores_addLoop, List.pairwise_append]
    refine ⟨h.sorted, List.pairwise_singleton _ _, fun x hx y hy => ?_⟩
    obtain ⟨old, hold, rfl⟩ := List.mem_map.mp hx
    obtain rfl := List.mem_singleton.mp hy
    exact h.marks old hold old.parenClose (LoopSpan.mem_marks_iff.mpr (.inr (.inl rfl)))
  · have hfields : next.started = scan.started := by
      rw [hnext, LoopScan.addLoop]
      split <;> rfl
    rw [hfields]
    exact hskip.started
  · intro hwaiting x hx
    rw [hspans, List.mem_append, List.mem_singleton] at hx
    rcases hx with hx | rfl
    · exact h.complete hnone x hx
    · intro _ b hb
      have hhead := ((hopens b).mp hb).1
      rw [hnext, LoopScan.addLoop, if_pos hhead] at hwaiting
      exact absurd hwaiting (by simp)
  · intro i hi
    by_cases hhead : (Text.trimLeft t).head? = some '{'
    · rw [hnext, LoopScan.addLoop, if_pos hhead] at hi
      obtain rfl : scan.spans.length = i := Option.some.inj hi
      refine ⟨scan.spans, span, _, hspans, rfl, h.complete hnone, rfl, rfl,
        (hopens _).mpr ⟨hhead, rfl⟩, ?_⟩
      rw [List.length_append, List.length_singleton]
      omega
    · rw [hnext, LoopScan.addLoop, if_neg hhead] at hi
      rw [hnone] at hi
      exact absurd hi (by simp)

/-- At the end of the text no loop waits for its brace. -/
lemma Sound.awaiting_of_end (h : Sound text o scan) (ho : text.length ≤ o) :
    scan.awaiting = none := by
  cases hawaiting : scan.awaiting with
  | none => rfl
  | some i =>
    obtain ⟨front, span, b, -, -, -, -, -, hopens, hb⟩ := h.awaiting i hawaiting
    have hlength : b < text.length := (List.getElem?_eq_some_iff.mp hopens.getElem?).1
    omega

/-- Where nothing is waited for, all the loops are known. -/
lemma Sound.isTrue_and_isComplete (h : Sound text o scan) (hnone : scan.awaiting = none) :
    (∀ span ∈ scan.spans, span.IsTrue text ∧ span.IsComplete text) ∧
      scan.cores.Pairwise fun a b => a.2.1 < b.1 :=
  ⟨fun span hspan => ⟨h.isTrue span hspan, h.complete hnone span hspan⟩, h.sorted⟩

/-- A closing brace keeps what is known. -/
lemma Sound.closeBrace (h : Sound text o scan) (hc : text[o]? = some '}') :
    Sound text (o + 1) (scan.closeBrace o) := by
  obtain ⟨-, hstarted, -, hawaiting⟩ := closeBrace_fields scan o
  exact h.end hc (.inr rfl) (fun span => mem_closeBrace) (cores_closeBrace _ _) hstarted hawaiting

/-- The end of a statement keeps what is known. -/
lemma Sound.endBraceless (h : Sound text o scan) (hc : text[o]? = some ';') :
    Sound text (o + 1) (scan.endBraceless o) := by
  refine h.end hc (.inl rfl) (fun span => mem_endBraceless) (cores_endBraceless _ _) ?_ ?_
  · rw [endBraceless_eq]
  · rw [endBraceless_eq]

/-- What is known when a run ends. -/
lemma Runs.isTrue {before t : Text} (h : Runs scan before o t last)
    (hread : text.IsReadTo before o t) (hs : Sound text o scan) :
    (∀ span ∈ last.spans, span.IsTrue text ∧ span.IsComplete text) ∧
      last.cores.Pairwise fun a b => a.2.1 < b.1 := by
  induction h with
  | nil scan before offset =>
    refine hs.isTrue_and_isComplete (hs.awaiting_of_end ?_)
    rw [hread.eq_append, List.append_nil, List.length_reverse, hread.length_eq]
  | openBrace next ih => exact ih hread.cons (hs.openBrace hread.getElem?_eq)
  | closeBrace hopen next ih => exact ih hread.cons (hs.closeBrace hread.getElem?_eq)
  | @lastBrace scan before t offset hstarted hdepth =>
    refine (hs.closeBrace hread.getElem?_eq).isTrue_and_isComplete ?_
    rw [(closeBrace_fields scan offset).2.2.2]
    exact hs.awaiting_eq_none hread.getElem?_eq (by decide) (by decide)
  | semicolon hparens next ih => exact ih hread.cons (hs.endBraceless hread.getElem?_eq)
  | quiet hopen hclose hsemi hloop next ih =>
    exact ih hread.cons (hs.quiet hread.getElem?_eq hopen _)
  | @unclosed scan before t offset paren c hstarted hparens hbefore hparen hclose =>
    have hc : c = 'f' ∨ c = 'w' := by
      by_contra hc
      rw [not_or] at hc
      rw [LoopSpan.headerParen?_eq_none hc.1 hc.2] at hparen
      exact absurd hparen (by simp)
    refine hs.isTrue_and_isComplete (hs.awaiting_eq_none hread.getElem?_eq ?_ ?_)
    · rcases hc with rfl | rfl <;> decide
    · rcases hc with rfl | rfl <;> decide
  | doWhile hstarted hparens hbefore hheader hsemi next ih =>
    exact ih hread.concat (hs.skip hstarted hread.drop_eq hheader)
  | loop hstarted hparens hbefore hheader hsemi next ih =>
    refine ih hread.concat (hs.addLoop hstarted hread.drop_eq hheader ?_ hsemi _)
    rwa [hread.take_eq, List.reverse_reverse]

/-- Nothing is known at the start. -/
lemma sound_nil (text : Text) : Sound text 0 {} :=
  ⟨fun _ h => absurd h List.not_mem_nil, fun _ h => absurd h List.not_mem_nil, .nil,
    ⟨fun h => absurd h Bool.false_ne_true, fun h => absurd h List.not_mem_nil⟩,
    fun _ _ h => absurd h List.not_mem_nil, fun _ h => absurd h (by simp)⟩

/-! ### Nesting -/

/-- A block is open as soon as one has been opened, and the loops that wait for their end stand in
it. -/
structure Nested (scan : LoopScan) : Prop where
  fresh : scan.started = false → scan.depth = 0 ∧ scan.awaiting = none
  depth : scan.started = true → 1 ≤ scan.depth
  braced : ∀ entry ∈ scan.braced, 2 ≤ entry.2
  braceless : ∀ entry ∈ scan.braceless, 1 ≤ entry.2

/-- An opening brace keeps the nesting. -/
lemma Nested.openBrace (h : scan.Nested) (offset : Nat) : (scan.openBrace offset).Nested := by
  have hdepth : 1 ≤ scan.depth + 1 := by
    cases hstarted : scan.started with
    | false => rw [(h.fresh hstarted).1]; decide
    | true => have := h.depth hstarted; omega
  rw [LoopScan.openBrace]
  cases hawaiting : scan.awaiting with
  | none =>
    exact ⟨fun hfalse => absurd hfalse (by simp), fun _ => hdepth, h.braced, h.braceless⟩
  | some i =>
    have hstarted : scan.started = true := by
      by_contra hstarted
      rw [(h.fresh (Bool.not_eq_true _ ▸ hstarted)).2] at hawaiting
      exact absurd hawaiting (by simp)
    refine ⟨fun hfalse => absurd hfalse (by simp), fun _ => hdepth, fun entry hentry => ?_,
      h.braceless⟩
    rcases List.mem_cons.mp hentry with rfl | hentry
    · have := h.depth hstarted
      dsimp only
      omega
    · exact h.braced entry hentry

/-- A closing brace in a block keeps the nesting. -/
lemma Nested.closeBrace (h : scan.Nested) (hstarted : scan.started = true) (hdepth : 2 ≤ scan.depth)
    (offset : Nat) : (scan.closeBrace offset).Nested := by
  obtain ⟨hd, hs, -, ha⟩ := closeBrace_fields scan offset
  refine ⟨fun hfalse => ?_, fun _ => by omega, fun entry hentry => ?_, fun entry hentry => ?_⟩
  · rw [hs, hstarted] at hfalse
    exact absurd hfalse (by simp)
  · rw [LoopScan.closeBrace, endBraceless_eq] at hentry
    split at hentry
    · exact h.braced entry hentry
    · rename_i index inside outer houter
      split at hentry
      · exact h.braced entry (by rw [houter]; exact List.mem_cons_of_mem _ hentry)
      · exact h.braced entry hentry
  · rw [LoopScan.closeBrace, endBraceless_eq] at hentry
    have hmem := (List.dropWhile_suffix _).subset hentry
    split at hmem
    · exact h.braceless entry hmem
    · split at hmem
      · exact h.braceless entry hmem
      · exact h.braceless entry hmem

/-- The brace that ends the pass ends no loop. -/
lemma Nested.spans_closeBrace (h : scan.Nested) (hdepth : scan.depth = 1) (offset : Nat) :
    (scan.closeBrace offset).spans = scan.spans := by
  have hnone : ∀ entries : List (Nat × Int), (∀ entry ∈ entries, 1 ≤ entry.2) →
      (entries.takeWhile fun entry => entry.2 = scan.depth - 1) = [] := by
    intro entries hentries
    cases entries with
    | nil => rfl
    | cons entry entries =>
      have := hentries entry List.mem_cons_self
      rw [List.takeWhile_cons_of_neg]
      simp only [hdepth, decide_eq_true_eq]
      omega
  rw [LoopScan.closeBrace, endBraceless_eq]
  cases hbraced : scan.braced with
  | nil => simp only [hnone _ h.braceless, endAll, List.foldl_nil]
  | cons entry outer =>
    have hinside := h.braced entry (by rw [hbraced]; exact List.mem_cons_self)
    have hne : ¬entry.2 = scan.depth := by omega
    simp only [hne, if_false, hnone _ h.braceless, endAll, List.foldl_nil]

/-- Ending a statement keeps the nesting. -/
lemma Nested.endBraceless (h : scan.Nested) (offset : Nat) : (scan.endBraceless offset).Nested := by
  rw [endBraceless_eq]
  exact ⟨h.fresh, h.depth, h.braced,
    fun entry hentry => h.braceless entry ((List.dropWhile_suffix _).subset hentry)⟩

/-- A loop that is found keeps the nesting. -/
lemma Nested.addLoop (h : scan.Nested) (hstarted : scan.started = true) (offset length : Nat)
    (headerText : Text) (bareBody : Bool) (next : Option Char) :
    (scan.addLoop offset length headerText bareBody next).Nested := by
  have hfresh : ¬scan.started = false := by simp [hstarted]
  rw [LoopScan.addLoop]
  split
  · exact ⟨fun hfalse => absurd hfalse hfresh, h.depth, h.braced, h.braceless⟩
  · refine ⟨fun hfalse => absurd hfalse hfresh, h.depth, h.braced, fun entry hentry => ?_⟩
    rcases List.mem_cons.mp hentry with rfl | hentry
    · exact h.depth hstarted
    · exact h.braceless entry hentry

end LoopScan

namespace Loop

/-- **The loops of a text are what the text has.** -/
theorem isTrue_of_mem_spans {text : Text} {span : LoopSpan} (h : span ∈ spans text) :
    span.IsTrue text ∧ span.IsComplete text :=
  ((LoopScan.runs_run text {} [] 0).isTrue (.start text) (LoopScan.sound_nil text)).1 span h

/-- The headers of the loops of a text follow each other. -/
theorem pairwise_spans (text : Text) :
    (spans text).Pairwise fun a b => a.parenClose < b.keyword := by
  have h := ((LoopScan.runs_run text {} [] 0).isTrue (.start text) (LoopScan.sound_nil text)).2
  exact List.pairwise_map.mp h

/-- Loops that are found later start later. -/
lemma parenClose_lt_of_lt {text : Text} {i j : Nat} {a b : LoopSpan} (hlt : i < j)
    (hi : (spans text)[i]? = some a) (hj : (spans text)[j]? = some b) :
    a.parenClose < b.keyword := by
  obtain ⟨hi', rfl⟩ := List.getElem?_eq_some_iff.mp hi
  obtain ⟨hj', rfl⟩ := List.getElem?_eq_some_iff.mp hj
  exact List.pairwise_iff_getElem.mp (pairwise_spans text) i j hi' hj' hlt

end Loop

end ShaderProbe
