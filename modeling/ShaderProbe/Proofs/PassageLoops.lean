import Mathlib
import ShaderProbe.Proofs.Moves
import ShaderProbe.Proofs.Passage

/-!
# The pass finds the loops of the syntax tree

Reading a passage changes the state of the pass in one way only: the loops of the passage are added,
and the loops without braces whose body the passage is end with the last character that it reaches.
`Passage.isRead_of_isSeparated` says so for every passage, by induction on the passage.  What has to
hold where a passage starts is gathered in `LoopScan.Ready`.  Behind the first branch of an `if` or
the body of a `do` no loop without braces waits any more (`LoopScan.Clears`), so that the rest of
the statement only adds loops.
-/

namespace ShaderProbe

/-- A change to one of the first elements leaves the others alone. -/
lemma modify_append_of_lt {α : Type*} (f : α → α) (l r : List α) :
    ∀ i < l.length, (l ++ r).modify i f = l.modify i f ++ r := by
  induction l with
  | nil =>
    intro i hi
    exact absurd hi (Nat.not_lt_zero i)
  | cons a l ih =>
    intro i hi
    cases i with
    | zero => rfl
    | succ i =>
      rw [List.cons_append, List.modify_succ_cons, ih i (by simpa using hi), List.modify_succ_cons,
        List.cons_append]

namespace LoopScan

/-- Loops that are ended lie in front of loops that are added. -/
lemma endAll_append (entries : List (Nat × Int)) (last : Nat) (spans new : List LoopSpan)
    (h : ∀ entry ∈ entries, entry.1 < spans.length) :
    endAll entries last (spans ++ new) = endAll entries last spans ++ new := by
  induction entries generalizing spans with
  | nil => rfl
  | cons entry entries ih =>
    rw [endAll, List.foldl_cons, modify_append_of_lt _ _ _ _ (h entry List.mem_cons_self), ← endAll,
      ih, endAll, endAll, List.foldl_cons]
    intro other hother
    rw [List.length_modify]
    exact h other (List.mem_cons_of_mem _ hother)

/-! ### What holds where a passage starts -/

/-- The pass is inside a function body, outside parentheses, and the entries of its stacks refer to
loops it has found at no greater depth. -/
structure Ready (scan : LoopScan) : Prop where
  started : scan.started = true
  parens : scan.parens = 0
  depth : 1 ≤ scan.depth
  braced : ∀ entry ∈ scan.braced, entry.2 ≤ scan.depth
  braceless : ∀ entry ∈ scan.braceless, entry.1 < scan.spans.length ∧ entry.2 ≤ scan.depth
  awaiting : ∀ index ∈ scan.awaiting, index < scan.spans.length

/-- No loop without braces waits at the current depth. -/
def Idle (scan : LoopScan) : Prop := ∀ entry ∈ scan.braceless, entry.2 < scan.depth

/-- Without waiting loops nothing ends. -/
lemma Idle.endBraceless {scan : LoopScan} (h : scan.Idle) (last : Nat) :
    scan.endBraceless last = scan := by
  have hnone : ∀ entry ∈ scan.braceless, decide (entry.2 = scan.depth) = false := by
    intro entry hentry
    rw [decide_eq_false_iff_not]
    exact ne_of_lt (h entry hentry)
  have htake : (scan.braceless.takeWhile fun entry => decide (entry.2 = scan.depth)) = [] := by
    cases hb : scan.braceless with
    | nil => rfl
    | cons entry rest => simp [hnone entry (by rw [hb]; exact List.mem_cons_self)]
  have hdrop : (scan.braceless.dropWhile fun entry => decide (entry.2 = scan.depth)) =
      scan.braceless := by
    cases hb : scan.braceless with
    | nil => rfl
    | cons entry rest => simp [hnone entry (by rw [hb]; exact List.mem_cons_self)]
  rw [endBraceless_eq, htake, hdrop]
  rfl

/-- At the current depth no loop without braces waits behind those that end next. -/
def Clears (scan : LoopScan) : Prop :=
  ∀ entry ∈ scan.braceless.dropWhile fun entry => entry.2 = scan.depth, entry.2 < scan.depth

/-- Where no loop waits, none waits behind others. -/
lemma Idle.clears {scan : LoopScan} (h : scan.Idle) : scan.Clears :=
  fun entry hentry => h entry ((List.dropWhile_sublist _).subset hentry)

/-- Once the waiting loops have ended, none waits. -/
lemma Clears.idle_endBraceless {scan : LoopScan} (h : scan.Clears) (last : Nat) :
    (scan.endBraceless last).Idle := by
  rw [endBraceless_eq]
  exact h

/-- A loop that is found ends with the loops that wait around it, or waits for its brace. -/
lemma Clears.addLoop {scan : LoopScan} (h : scan.Clears) (offset length : Nat) (headerText : Text)
    (bare : Bool) (next : Option Char) :
    (scan.addLoop offset length headerText bare next).Clears := by
  rw [LoopScan.addLoop]
  split
  · exact h
  · simpa [Clears] using h

/-- The number of loops stays the same when some of them end. -/
lemma length_endAll (entries : List (Nat × Int)) (last : Nat) (spans : List LoopSpan) :
    (endAll entries last spans).length = spans.length := by
  induction entries generalizing spans with
  | nil => rfl
  | cons entry entries ih => rw [endAll, List.foldl_cons, ← endAll, ih, List.length_modify]

/-- Ending loops keeps the conditions at the start of a passage. -/
lemma Ready.endBraceless {scan : LoopScan} (h : scan.Ready) (last : Nat) :
    (scan.endBraceless last).Ready := by
  rw [endBraceless_eq]
  refine ⟨h.started, h.parens, h.depth, h.braced, fun entry hentry => ?_, fun index hindex => ?_⟩
  · rw [length_endAll]
    exact h.braceless entry ((List.dropWhile_sublist _).subset hentry)
  · rw [length_endAll]
    exact h.awaiting index hindex

/-- The state with loops added. -/
def adding (scan : LoopScan) (new : List LoopSpan) : LoopScan :=
  { scan with spans := scan.spans ++ new }

/-- Adding loops keeps the conditions at the start of a passage. -/
lemma Ready.adding {scan : LoopScan} (h : scan.Ready) (new : List LoopSpan) :
    (scan.adding new).Ready where
  started := h.started
  parens := h.parens
  depth := h.depth
  braced := h.braced
  braceless := by
    intro entry hentry
    obtain ⟨hlt, hle⟩ := h.braceless entry hentry
    refine ⟨?_, hle⟩
    rw [LoopScan.adding, List.length_append]
    omega
  awaiting := by
    intro index hindex
    have hlt := h.awaiting index hindex
    rw [LoopScan.adding, List.length_append]
    omega

/-- The loop that waits for its brace, if there is one, gets the block from `brace` to `last`. -/
def settle (scan : LoopScan) (brace : Option Nat) (last : Nat) : LoopScan :=
  match scan.awaiting with
  | none => scan
  | some index =>
    { scan with
      awaiting := none
      spans := scan.spans.modify index fun span =>
        { span with brace := brace, bodyEnd := some last } }

/-- The state after a passage at offset `start`. -/
def reading {kind : PassageKind} (scan : LoopScan) (start : Nat) (bare : Bool) (s : Passage kind) :
    LoopScan :=
  let last := start + s.reach - 1
  ((scan.settle (s.brace? start) last).endBraceless last).adding (s.spans start bare)

/-- Where nothing waits, a passage only adds its loops. -/
lemma reading_of_idle {kind : PassageKind} {scan : LoopScan} (hidle : scan.Idle)
    (hawait : scan.awaiting = none) (start : Nat) (bare : Bool) (s : Passage kind) :
    scan.reading start bare s = scan.adding (s.spans start bare) := by
  simp only [reading, settle, hawait]
  rw [hidle.endBraceless]

/-- Where no loop waits for its brace, a passage ends the loops that wait for their end. -/
lemma reading_of_awaiting {kind : PassageKind} {scan : LoopScan} (hawait : scan.awaiting = none)
    (start : Nat) (bare : Bool) (s : Passage kind) :
    scan.reading start bare s =
      (scan.endBraceless (start + s.reach - 1)).adding (s.spans start bare) := by
  simp only [reading, settle, hawait]

/-! ### Blocks and loops -/

/-- The waiting loops end in front of the loops that are added. -/
lemma endBraceless_adding {scan : LoopScan} (h : scan.Ready) (new : List LoopSpan) (last : Nat) :
    (scan.adding new).endBraceless last = (scan.endBraceless last).adding new := by
  have hindex : ∀ entry ∈ scan.braceless.takeWhile fun entry => decide (entry.2 = scan.depth),
      entry.1 < scan.spans.length :=
    fun entry hentry => (h.braceless entry ((List.takeWhile_sublist _).subset hentry)).1
  rw [endBraceless_eq, endBraceless_eq, adding, adding]
  simp only [endAll_append _ _ _ _ hindex]

/-- A block that is opened and closed leaves the depth as it was, and the loop that waits for its
brace has got it. -/
lemma closeBrace_openBrace {scan : LoopScan} (h : scan.Ready) (new : List LoopSpan)
    (brace last : Nat) :
    ((scan.openBrace brace).adding new).closeBrace last =
      ((scan.settle (some brace) last).endBraceless last).adding new := by
  have hstarted := h.started
  have hdepth : scan.depth + 1 - 1 = scan.depth := by omega
  cases hawait : scan.awaiting with
  | none =>
    have hopen : scan.openBrace brace = { scan with depth := scan.depth + 1 } := by
      simp only [openBrace, hawait, hstarted]
    have hsettle : scan.settle (some brace) last = scan := by
      simp only [settle, hawait]
    have hclose : ((scan.openBrace brace).adding new).closeBrace last =
        (scan.adding new).endBraceless last := by
      rw [hopen, closeBrace, adding]
      cases hbraced : scan.braced with
      | nil =>
        simp only [hdepth]
        rw [adding, hbraced]
      | cons entry outer =>
        have hne : entry.2 ≠ scan.depth + 1 := by
          have := h.braced entry (by rw [hbraced]; exact List.mem_cons_self)
          omega
        simp only [hne, if_false, hdepth]
        rw [adding, hbraced]
    rw [hclose, hsettle, endBraceless_adding h]
  | some index =>
    have hlt : index < scan.spans.length := h.awaiting index (by rw [hawait]; rfl)
    have hsettle : scan.settle (some brace) last =
        { scan with
          awaiting := none
          spans := scan.spans.modify index fun span =>
            { span with brace := some brace, bodyEnd := some last } } := by
      simp only [settle, hawait]
    have hspans : ((scan.spans.modify index fun span => { span with brace := some brace }) ++
        new).modify index (fun span => { span with bodyEnd := some last }) =
          (scan.spans.modify index fun span =>
            { span with brace := some brace, bodyEnd := some last }) ++ new := by
      rw [modify_append_of_lt _ _ _ _ (by rw [List.length_modify]; exact hlt),
        List.modify_modify_eq]
      rfl
    have hclose : ((scan.openBrace brace).adding new).closeBrace last =
        ((scan.settle (some brace) last).adding new).endBraceless last := by
      rw [hsettle]
      simp only [openBrace, hawait, adding, closeBrace, if_true, endBody, hspans, hdepth, hstarted]
    have hready : (scan.settle (some brace) last).Ready := by
      rw [hsettle]
      refine ⟨h.started, h.parens, h.depth, h.braced, ?_, by simp⟩
      intro entry hentry
      rw [List.length_modify]
      exact h.braceless entry hentry
    rw [hclose, endBraceless_adding hready]

/-- A loop whose body is a block gets its brace and its end. -/
lemma settle_addLoop {scan : LoopScan} (h : scan.Ready) (hawait : scan.awaiting = none)
    (offset length : Nat) (headerText : Text) (bare : Bool) (brace : Option Nat) (last : Nat)
    (new : List LoopSpan) :
    (((scan.addLoop offset length headerText bare (some '{')).settle brace last).endBraceless
      last).adding new =
        (scan.endBraceless last).adding
          (⟨offset, offset + length, headerText, bare, brace, some last⟩ :: new) := by
  have hsettle : (scan.addLoop offset length headerText bare (some '{')).settle brace last =
      scan.adding [⟨offset, offset + length, headerText, bare, brace, some last⟩] := by
    simp only [addLoop, settle, if_true, adding, hawait]
    rw [modify_append_length]
  rw [hsettle, endBraceless_adding h, adding, adding, adding]
  simp

/-- A loop whose body is no block ends with the loops that wait around it. -/
lemma endBraceless_addLoop {scan : LoopScan} (h : scan.Ready) (offset length : Nat)
    (headerText : Text) (bare : Bool) {next : Option Char} (hnext : next ≠ some '{') (last : Nat)
    (new : List LoopSpan) :
    ((scan.addLoop offset length headerText bare next).endBraceless last).adding new =
        (scan.endBraceless last).adding
          (⟨offset, offset + length, headerText, bare, none, some last⟩ :: new) := by
  have hindex : ∀ entry ∈ scan.braceless.takeWhile fun entry => decide (entry.2 = scan.depth),
      entry.1 < scan.spans.length :=
    fun entry hentry => (h.braceless entry ((List.takeWhile_sublist _).subset hentry)).1
  rw [addLoop, if_neg hnext, endBraceless_eq, endBraceless_eq]
  simp only [List.takeWhile_cons, List.dropWhile_cons, decide_true, if_true, adding]
  rw [endAll, List.foldl_cons, modify_append_length, ← endAll, endAll_append _ _ _ _ hindex]
  simp

/-- A loop that is found keeps the conditions at the start of a passage. -/
lemma Ready.addLoop {scan : LoopScan} (h : scan.Ready) (hawait : scan.awaiting = none)
    (offset length : Nat) (headerText : Text) (bare : Bool) (next : Option Char) :
    (scan.addLoop offset length headerText bare next).Ready := by
  have hless : ∀ entry ∈ scan.braceless, entry.1 < scan.spans.length + 1 ∧
      entry.2 ≤ scan.depth := by
    intro entry hentry
    have := h.braceless entry hentry
    omega
  rw [LoopScan.addLoop]
  split
  · refine ⟨h.started, h.parens, h.depth, h.braced, ?_, ?_⟩
    · simpa using hless
    · simp
  · refine ⟨h.started, h.parens, h.depth, h.braced, ?_, ?_⟩
    · simpa using hless
    · simp [hawait]

/-- A loop that is found waits for its brace exactly if a brace comes next. -/
lemma isSome_awaiting_addLoop {scan : LoopScan} (hawait : scan.awaiting = none)
    (offset length : Nat) (headerText : Text) (bare : Bool) (next : Option Char) :
    (scan.addLoop offset length headerText bare next).awaiting.isSome = true ↔ next = some '{' := by
  rw [LoopScan.addLoop]
  split
  · rename_i hnext
    simp [hnext]
  · rename_i hnext
    simp [hawait, hnext]

/-- A loop that is found, and then its body. -/
lemma reading_addLoop {scan : LoopScan} (h : scan.Ready) (hawait : scan.awaiting = none)
    {body : Passage .statement} {c : Char} {inside : Nat}
    (hbrace : c = '{' ↔ (body.brace? inside).isSome = true) (offset length : Nat)
    (headerText : Text) (bare : Bool) :
    (scan.addLoop offset length headerText bare (some c)).reading inside true body =
      (scan.endBraceless (inside + body.reach - 1)).adding
        (⟨offset, offset + length, headerText, bare, body.brace? inside,
          some (inside + body.reach - 1)⟩ :: body.spans inside true) := by
  by_cases hblock : c = '{'
  · rw [hblock]
    exact settle_addLoop h hawait _ _ _ _ _ _ _
  · have hnext : some c ≠ some '{' := by simpa using hblock
    have hopen : body.brace? inside = none := by
      rw [← Option.not_isSome_iff_eq_none, ← hbrace]
      exact hblock
    have hwait : (scan.addLoop offset length headerText bare (some c)).awaiting = none := by
      rw [← Option.not_isSome_iff_eq_none, isSome_awaiting_addLoop hawait]
      exact hnext
    rw [reading_of_awaiting hwait, hopen]
    exact endBraceless_addLoop h _ _ _ _ hnext _ _

end LoopScan

namespace Passage

open Phrase (header)

/-! ### The two ends of a statement -/

/-- A statement ends with a `;` or a closing brace. -/
lemma exists_render_eq_append (s : Passage .statement) :
    ∃ u c, s.render = u ++ [c] ∧ c ∈ [';', '}'] := by
  generalize hkind : PassageKind.statement = kind at s
  induction s with
  | expression e => exact ⟨e.text, ';', rfl, by simp⟩
  | block gap body close =>
    exact ⟨gap.text ++ '{' :: (body.render ++ close.text), '}', by simp [render], by simp⟩
  | ifThen gap paren condition body ih =>
    obtain ⟨u, c, hu, hc⟩ := ih rfl
    exact ⟨gap.text ++ header "if" paren condition ++ u, c, by simp [render, hu], hc⟩
  | ifElse gap paren condition yes otherwise no _ ih =>
    obtain ⟨u, c, hu, hc⟩ := ih rfl
    exact ⟨gap.text ++ header "if" paren condition ++ yes.render ++ otherwise.text ++ "else" ++ u,
      c, by simp [render, hu], hc⟩
  | loop gap keyword paren group body ih =>
    obtain ⟨u, c, hu, hc⟩ := ih rfl
    exact ⟨gap.text ++ header keyword.text paren group ++ u, c, by simp [render, hu], hc⟩
  | doWhile gap body tail paren condition close =>
    exact ⟨gap.text ++ "do" ++ body.render ++ tail.text ++ header "while" paren condition ++
      close.text, ';', by simp [render], by simp⟩
  | nil => exact absurd hkind (by simp)
  | cons first rest => exact absurd hkind (by simp)

/-- The first character of a statement that is not blank is no `;`, and it is a brace exactly for a
block. -/
lemma exists_head?_trimLeft (s : Passage .statement) (t : Text) :
    ∃ c, (Text.trimLeft (s.render ++ t)).head? = some c ∧ c ≠ ';' ∧
      (c = '{' ↔ (s.brace? 0).isSome = true) := by
  have word : ∀ (gap : Gap) (c : Char) (r : Text), isBlank c = false → c ≠ '{' → c ≠ ';' →
      ∃ d, (Text.trimLeft (gap.text ++ c :: r)).head? = some d ∧ d ≠ ';' ∧
        (d = '{' ↔ (none : Option Nat).isSome = true) := by
    intro gap c r hc hbrace hsemi
    refine ⟨c, ?_, hsemi, by simp [hbrace]⟩
    rw [Text.trimLeft_append gap.isBlankOnly, Text.trimLeft_cons hc, List.head?_cons]
  cases s with
  | expression e =>
    have hends := Text.isFreeOf_iff.mp e.isFreeOfEnds
    obtain ⟨c, r, hcr, hblank, hmem⟩ := Text.exists_trimLeft_eq_cons e.isNotBlank
    have hc := hends c hmem
    simp only [List.mem_cons, List.not_mem_nil, or_false, not_or] at hc
    refine ⟨c, ?_, hc.1, by simp [brace?, hc.2.1]⟩
    have hsplit : e.text = Text.indent e.text ++ c :: r := by
      rw [← hcr, Text.indent_append_trimLeft]
    rw [render, hsplit, List.append_assoc, List.append_assoc,
      Text.trimLeft_append (Text.isBlankOnly_indent _), List.cons_append, Text.trimLeft_cons hblank,
      List.head?_cons]
  | block gap body close =>
    refine ⟨'{', ?_, by decide, by simp [brace?]⟩
    rw [render, List.append_assoc, Text.trimLeft_append gap.isBlankOnly, List.cons_append,
      Text.trimLeft_cons (isBlank_delimiter (by simp)), List.head?_cons]
  | ifThen gap paren condition body =>
    simpa [render, header, brace?] using word gap 'i' _ (by decide) (by decide) (by decide)
  | ifElse gap paren condition yes otherwise no =>
    simpa [render, header, brace?] using word gap 'i' _ (by decide) (by decide) (by decide)
  | loop gap keyword paren group body =>
    cases keyword with
    | forLoop =>
      simpa [render, header, brace?, LoopKeyword.text] using
        word gap 'f' _ (by decide) (by decide) (by decide)
    | whileLoop =>
      simpa [render, header, brace?, LoopKeyword.text] using
        word gap 'w' _ (by decide) (by decide) (by decide)
  | doWhile gap body tail paren condition close =>
    simpa [render, brace?] using word gap 'd' _ (by decide) (by decide) (by decide)

/-- Whether a statement is a block does not depend on where it stands. -/
lemma isSome_brace? {kind : PassageKind} (s : Passage kind) (m n : Nat) :
    (s.brace? m).isSome = (s.brace? n).isSome := by
  cases s <;> rfl

/-! ### Reading a passage -/

/-- The pass reads the passage wherever the passage may stand: it adds the loops of the passage and
ends the loops whose body the passage is, where it reaches its end. -/
def IsRead {kind : PassageKind} (s : Passage kind) : Prop :=
  ∀ (scan : LoopScan) (before t : Text) (start : Nat), scan.Ready → scan.Clears →
    (scan.awaiting.isSome = true → (s.brace? 0).isSome = true) →
    (kind = .sequence → scan.Idle ∧ LoopSpan.isBareBody before = false) →
    (LoopSpan.admitsKeyword before = true ∨ Text.startsWord s.render = false) →
    scan.run before start 0 (s.render ++ t) =
      (scan.reading start (LoopSpan.isBareBody before) s).run (s.render.reverse ++ before)
        (start + s.render.length) 0 t

/-- A keyword can follow the blanks in front of a statement that starts with a word. -/
lemma admitsKeyword_gap (gap : Gap) {before : Text} {c : Char} (hc : isWordChar c = true) {r : Text}
    (h : LoopSpan.admitsKeyword before = true ∨ Text.startsWord (gap.text ++ c :: r) = false) :
    LoopSpan.admitsKeyword (gap.text.reverse ++ before) = true := by
  cases hrev : gap.text.reverse with
  | nil =>
    rcases h with h | h
    · exact h
    · rw [List.reverse_eq_nil_iff.mp hrev, List.nil_append, Text.startsWord, hc] at h
      exact absurd h (by decide)
  | cons d g =>
    have hd : d ∈ gap.text.reverse := by rw [hrev]; exact List.mem_cons_self
    exact LoopSpan.admitsKeyword_blank
      (Text.isBlankOnly_iff.mp gap.isBlankOnly d (List.mem_reverse.mp hd)) _

/-- After a statement the pass is where a keyword can follow, and no body is open. -/
lemma after_render (s : Passage .statement) (before : Text) :
    LoopSpan.admitsKeyword (s.render.reverse ++ before) = true ∧
      LoopSpan.isBareBody (s.render.reverse ++ before) = false := by
  obtain ⟨u, c, hu, hc⟩ := s.exists_render_eq_append
  have hrev : s.render.reverse ++ before = c :: (u.reverse ++ before) := by rw [hu]; simp
  rw [hrev]
  simp only [List.mem_cons, List.not_mem_nil, or_false] at hc
  refine ⟨LoopSpan.admitsKeyword_delimiter ?_ _, LoopSpan.isBareBody_delimiter ?_ _⟩
  · rcases hc with rfl | rfl <;> simp
  · rcases hc with rfl | rfl <;> simp

/-- The header of an `if` is passed over. -/
lemma run_if (scan : LoopScan) (hparens : scan.parens = 0) (paren : Gap) (condition : Group)
    (before t : Text) (start : Nat) :
    scan.run before start 0 (header "if" paren condition ++ t) =
      scan.run ((header "if" paren condition).reverse ++ before)
        (start + (header "if" paren condition).length) 0 t := by
  have hword : ∀ d ∈ ['i', 'f'], isWordChar d = true := by
    simp only [List.mem_cons, List.not_mem_nil, or_false]
    rintro d (rfl | rfl) <;> decide
  have hshape : header "if" paren condition ++ t =
      ['i', 'f'] ++ (paren.text ++ ('(' :: (condition.text ++ [')']) ++ t)) := by
    simp [header]
  rw [hshape, LoopScan.run_word scan (by decide) (by decide) hword, LoopScan.run_gap,
    LoopScan.run_group scan hparens]
  simp [header, Nat.add_comm, Nat.add_left_comm]

/-- Only a block can follow a loop that waits for its brace. -/
lemma awaiting_eq_none {kind : PassageKind} {s : Passage kind} (hs : s.brace? 0 = none)
    {scan : LoopScan} (h : scan.awaiting.isSome = true → (s.brace? 0).isSome = true) :
    scan.awaiting = none := by
  rw [hs] at h
  cases hawait : scan.awaiting with
  | none => rfl
  | some index =>
    rw [hawait] at h
    exact absurd (h rfl) (by simp)

lemma isRead_expression (e : Expression) : (expression e).IsRead := by
  intro scan before t start hready _ hawait _ _
  have hrender : (expression e).render = e.text ++ [';'] := rfl
  have hlast : start + (expression e).reach - 1 = start + e.text.length := by
    rw [reach]
    omega
  rw [LoopScan.reading_of_awaiting (awaiting_eq_none rfl hawait), hlast, hrender, List.append_assoc,
    List.singleton_append, LoopScan.run_expression, LoopScan.run_semicolon scan hready.parens]
  simp [spans, LoopScan.adding, Nat.add_assoc]

/-- Inside a block no loop waits. -/
lemma ready_openBrace {scan : LoopScan} (hready : scan.Ready) (brace : Nat) :
    (scan.openBrace brace).Ready ∧ (scan.openBrace brace).Idle ∧
      (scan.openBrace brace).awaiting = none := by
  have hdepth := hready.depth
  cases hawait : scan.awaiting with
  | none =>
    simp only [LoopScan.openBrace, hawait]
    refine ⟨⟨rfl, hready.parens, ?_, ?_, ?_, by simp⟩, ?_, trivial⟩
    · simp only
      omega
    · intro entry hentry
      have := hready.braced entry hentry
      simp only
      omega
    · intro entry hentry
      have := hready.braceless entry hentry
      simp only
      omega
    · intro entry hentry
      have := hready.braceless entry hentry
      simp only
      omega
  | some index =>
    simp only [LoopScan.openBrace, hawait]
    refine ⟨⟨rfl, hready.parens, ?_, ?_, ?_, by simp⟩, ?_, trivial⟩
    · simp only
      omega
    · intro entry hentry
      simp only [List.mem_cons] at hentry
      rcases hentry with rfl | hentry
      · simp
      · have := hready.braced entry hentry
        simp only
        omega
    · intro entry hentry
      have := hready.braceless entry hentry
      simp only [List.length_modify]
      omega
    · intro entry hentry
      have := hready.braceless entry hentry
      simp only
      omega

lemma isRead_block (gap : Gap) {body : Passage .sequence} (hbody : body.IsRead)
    (close : Gap) : (block gap body close).IsRead := by
  intro scan before t start hready _ _ _ _
  set brace := start + gap.text.length with hbrace
  set inside := '{' :: (gap.text.reverse ++ before) with hinside
  have hbare : LoopSpan.isBareBody inside = false := LoopSpan.isBareBody_delimiter (by simp) _
  obtain ⟨hready', hidle', hnone'⟩ := ready_openBrace hready brace
  have hlast : brace + 1 + body.render.length + close.text.length =
      start + (block gap body close).reach - 1 := by
    simp only [reach, List.length_append, List.length_cons, List.length_nil]
    omega
  have hclosed := LoopScan.closeBrace_openBrace hready (body.spans (brace + 1) false) brace
    (brace + 1 + body.render.length + close.text.length)
  have hopen : ¬ (((scan.openBrace brace).adding (body.spans (brace + 1) false)).closeBrace
      (brace + 1 + body.render.length + close.text.length)).depth ≤ 0 := by
    have := hready.depth
    rw [hclosed, LoopScan.endBraceless_eq]
    simp only [LoopScan.adding, LoopScan.settle]
    split
    · omega
    · change ¬ scan.depth ≤ 0
      omega
  have hshape : (block gap body close).render ++ t =
      gap.text ++ ('{' :: (body.render ++ (close.text ++ ('}' :: t)))) := by
    simp [render]
  rw [hshape, LoopScan.run_gap, LoopScan.run_openBrace, ← hbrace, ← hinside,
    hbody _ _ _ _ hready' hidle'.clears (by simp [hnone']) (fun _ => ⟨hidle', hbare⟩)
      (Or.inl (LoopSpan.admitsKeyword_delimiter (by simp) _)),
    LoopScan.reading_of_idle hidle' hnone', hbare, LoopScan.run_gap, LoopScan.run_closeBrace,
    if_neg (fun h => hopen h.2), hclosed, hlast, LoopScan.reading, brace?, spans]
  congr 1
  · simp [render, hinside]
  · simp only [render, List.length_append, List.length_cons, List.length_nil]
    omega

lemma isRead_ifThen (gap paren : Gap) (condition : Group) {body : Passage .statement}
    (hbody : body.IsRead) : (ifThen gap paren condition body).IsRead := by
  intro scan before t start hready hclears hawait _ hadmits
  have hnone := awaiting_eq_none rfl hawait
  have hadmits' : LoopSpan.admitsKeyword (gap.text.reverse ++ before) = true :=
    admitsKeyword_gap gap (c := 'i') (by decide) (by simpa [render, header] using hadmits)
  have hbare := LoopSpan.isBareBody_header "if" (by simp) paren condition hadmits'
  have hshape : (ifThen gap paren condition body).render ++ t =
      gap.text ++ (header "if" paren condition ++ (body.render ++ t)) := by
    simp [render]
  rw [hshape, LoopScan.run_gap, run_if scan hready.parens,
    hbody scan _ _ _ hready hclears (by simp [hnone]) (by simp) (Or.inl
      (by simpa [header] using LoopSpan.admitsKeyword_delimiter (c := ')') (by simp) _)), hbare,
    LoopScan.reading_of_awaiting hnone, LoopScan.reading_of_awaiting hnone]
  simp [render, reach, spans, Nat.add_assoc]

lemma isRead_ifElse (gap paren : Gap) (condition : Group) {yes : Passage .statement}
    (hyes : yes.IsRead) (otherwise : Gap) {no : Passage .statement} (hno : no.IsRead)
    (hseparated : Text.startsWord no.render = false) :
    (ifElse gap paren condition yes otherwise no).IsRead := by
  intro scan before t start hready hclears hawait _ hadmits
  have hnone := awaiting_eq_none rfl hawait
  have hadmits' : LoopSpan.admitsKeyword (gap.text.reverse ++ before) = true :=
    admitsKeyword_gap gap (c := 'i') (by decide) (by simpa [render, header] using hadmits)
  have hbare := LoopSpan.isBareBody_header "if" (by simp) paren condition hadmits'
  set mid := yes.render.reverse ++ ((header "if" paren condition).reverse ++
    (gap.text.reverse ++ before)) with hmid
  -- the blanks before `else` follow the `;` or the brace of the first branch
  have hmidAdmits : LoopSpan.admitsKeyword (otherwise.text.reverse ++ mid) = true :=
    admitsKeyword_gap otherwise (c := 'e') (r := []) (by decide) (Or.inl (after_render yes _).1)
  have hbare' : LoopSpan.isBareBody (['e', 'l', 's', 'e'].reverse ++
      (otherwise.text.reverse ++ mid)) = true :=
    LoopSpan.isBareBody_word "else" (by simp) hmidAdmits
  have hword : ∀ d ∈ ['e', 'l', 's', 'e'], isWordChar d = true := by
    simp only [List.mem_cons, List.not_mem_nil, or_false]
    rintro d (rfl | rfl | rfl | rfl) <;> decide
  have hshape : (ifElse gap paren condition yes otherwise no).render ++ t =
      gap.text ++ (header "if" paren condition ++ (yes.render ++ (otherwise.text ++
        (['e', 'l', 's', 'e'] ++ (no.render ++ t))))) := by
    simp [render]
  set first := start + gap.text.length + (header "if" paren condition).length with hfirst
  -- the first branch has ended every loop that could wait for the second one
  set last := first + yes.reach - 1 with hlast
  have hidle : ((scan.endBraceless last).adding (yes.spans first true)).Idle :=
    hclears.idle_endBraceless last
  have hready' := (hready.endBraceless last).adding (yes.spans first true)
  have hnone' : ((scan.endBraceless last).adding (yes.spans first true)).awaiting = none := by
    rw [LoopScan.endBraceless_eq]
    exact hnone
  rw [hshape, LoopScan.run_gap, run_if scan hready.parens,
    hyes scan _ _ _ hready hclears (by simp [hnone]) (by simp) (Or.inl
      (by simpa [header] using LoopSpan.admitsKeyword_delimiter (c := ')') (by simp) _)), hbare,
    LoopScan.reading_of_awaiting hnone, ← hmid, ← hlast, LoopScan.run_gap,
    LoopScan.run_word _ (by decide) (by decide) hword,
    hno _ _ _ _ hready' hidle.clears (by simp [hnone']) (by simp) (Or.inr hseparated),
    LoopScan.reading_of_idle hidle hnone', LoopScan.reading_of_awaiting hnone, hbare']
  simp [LoopScan.adding, spans, render, reach, hmid, hlast, hfirst, Nat.add_assoc, Nat.add_comm 4]

lemma isRead_loop (gap : Gap) (keyword : LoopKeyword) (paren : Gap) (group : Group)
    {body : Passage .statement} (hbody : body.IsRead) :
    (loop gap keyword paren group body).IsRead := by
  intro scan before t start hready hclears hawait _ hadmits
  have hnone := awaiting_eq_none rfl hawait
  have hadmits' : LoopSpan.admitsKeyword (gap.text.reverse ++ before) = true := by
    cases keyword with
    | forLoop =>
      exact admitsKeyword_gap gap (c := 'f') (by decide)
        (by simpa [render, header, LoopKeyword.text] using hadmits)
    | whileLoop =>
      exact admitsKeyword_gap gap (c := 'w') (by decide)
        (by simpa [render, header, LoopKeyword.text] using hadmits)
  have hmem : keyword.text ∈ (["if", "for", "while"] : List Text) := by
    cases keyword <;> simp [LoopKeyword.text]
  set word := header keyword.text paren group with hword
  have hlength : 0 < word.length := by
    simp [hword, header]
  have hbare : LoopSpan.isBareBody (word.reverse ++ (gap.text.reverse ++ before)) = true :=
    LoopSpan.isBareBody_header keyword.text hmem paren group hadmits'
  have hbare' : LoopSpan.isBareBody (gap.text.reverse ++ before) = LoopSpan.isBareBody before :=
    LoopSpan.isBareBody_gap (Text.isBlankOnly_reverse gap.isBlankOnly) before
  have hshape : (loop gap keyword paren group body).render ++ t =
      gap.text ++ (word ++ (body.render ++ t)) := by
    simp [render, hword]
  obtain ⟨c, hc, hsemi, hbrace⟩ := body.exists_head?_trimLeft t
  set inside := start + gap.text.length + word.length with hinside
  set found := scan.addLoop (start + gap.text.length) (word.length - 1) (Text.squeeze word)
    (LoopSpan.isBareBody before) (some c) with hfound
  have hadmits'' : LoopSpan.admitsKeyword (word.reverse ++ (gap.text.reverse ++ before)) = true := by
    simpa [hword, header] using LoopSpan.admitsKeyword_delimiter (c := ')') (by simp) _
  have hblock : c = '{' ↔ (body.brace? inside).isSome = true := by
    rw [body.isSome_brace? inside 0, hbrace]
  have hawait' : found.awaiting.isSome = true → (body.brace? 0).isSome = true := by
    rw [hfound, LoopScan.isSome_awaiting_addLoop hnone, Option.some.injEq]
    exact hbrace.mp
  have hreading : found.reading inside true body = scan.reading start (LoopSpan.isBareBody before)
      (loop gap keyword paren group body) := by
    have hspan : start + gap.text.length + (word.length - 1) = inside - 1 := by omega
    have hstart : start + (gap.text ++ word).length = inside := by
      rw [List.length_append]
      omega
    rw [hfound, LoopScan.reading_addLoop hready hnone hblock, hspan,
      LoopScan.reading_of_awaiting hnone]
    simp only [reach, spans, ← hword, ← Nat.add_assoc, hstart]
  rw [hshape, LoopScan.run_gap, LoopScan.run_header scan hready.started hready.parens keyword paren
    group _ _ _ (LoopSpan.startsWord_eq_false_of_admitsKeyword hadmits'), hc,
    if_neg (by simpa using hsemi), hbare', ← hword, ← hfound,
    hbody found _ _ _ (hready.addLoop hnone _ _ _ _ _) (hclears.addLoop _ _ _ _ _) hawait' (by simp)
      (Or.inl hadmits''), hbare,
    ← hinside, hreading]
  simp [render, hword, hinside, Nat.add_assoc]

lemma isRead_doWhile (gap : Gap) {body : Passage .statement} (hbody : body.IsRead)
    (hseparated : Text.startsWord body.render = false) (tail paren : Gap) (condition : Group)
    (close : Gap) : (doWhile gap body tail paren condition close).IsRead := by
  intro scan before t start hready hclears hawait _ hadmits
  have hnone := awaiting_eq_none rfl hawait
  have hadmits' : LoopSpan.admitsKeyword (gap.text.reverse ++ before) = true :=
    admitsKeyword_gap gap (c := 'd') (by decide) (by simpa [render] using hadmits)
  have hbare : LoopSpan.isBareBody (['d', 'o'].reverse ++ (gap.text.reverse ++ before)) = true :=
    LoopSpan.isBareBody_word "do" (by simp) hadmits'
  set mid := body.render.reverse ++ (['d', 'o'].reverse ++ (gap.text.reverse ++ before)) with hmid
  have hmidAdmits : LoopSpan.admitsKeyword (tail.text.reverse ++ mid) = true :=
    admitsKeyword_gap tail (c := 'w') (r := []) (by decide) (Or.inl (after_render body _).1)
  have hword : ∀ d ∈ ['d', 'o'], isWordChar d = true := by
    simp only [List.mem_cons, List.not_mem_nil, or_false]
    rintro d (rfl | rfl) <;> decide
  have hshape : (doWhile gap body tail paren condition close).render ++ t =
      gap.text ++ (['d', 'o'] ++ (body.render ++ (tail.text ++
        (header LoopKeyword.whileLoop.text paren condition ++ (close.text ++ ';' :: t))))) := by
    simp [render, LoopKeyword.text]
  have hnext : (Text.trimLeft (close.text ++ ';' :: t)).head? = some ';' := by
    rw [Text.trimLeft_append close.isBlankOnly, Text.trimLeft_cons (isBlank_delimiter (by simp)),
      List.head?_cons]
  set inside := start + gap.text.length + ['d', 'o'].length with hinside
  set last := inside + body.reach - 1 with hlast
  have hidle : ((scan.endBraceless last).adding (body.spans inside true)).Idle :=
    hclears.idle_endBraceless last
  have hready' := (hready.endBraceless last).adding (body.spans inside true)
  rw [hshape, LoopScan.run_gap, LoopScan.run_word _ (by decide) (by decide) hword,
    hbody scan _ _ _ hready hclears (by simp [hnone]) (by simp) (Or.inr hseparated), hbare,
    LoopScan.reading_of_awaiting hnone, ← hmid, ← hlast, LoopScan.run_gap,
    LoopScan.run_header _ hready'.started hready'.parens .whileLoop paren condition _ _ _
      (LoopSpan.startsWord_eq_false_of_admitsKeyword hmidAdmits), if_pos hnext, LoopScan.run_gap,
    LoopScan.run_semicolon _ hready'.parens, hidle.endBraceless,
    LoopScan.reading_of_awaiting hnone]
  simp [spans, render, reach, hmid, hlast, hinside, LoopKeyword.text, Nat.add_assoc, Nat.add_comm 2]

lemma isRead_nil : nil.IsRead := by
  intro scan before t start _ _ hawait hidle _
  have hnone := awaiting_eq_none rfl hawait
  rw [LoopScan.reading_of_idle (hidle rfl).1 hnone]
  simp [render, spans, LoopScan.adding]

lemma isRead_cons {first : Passage .statement} (hfirst : first.IsRead)
    {rest : Passage .sequence} (hrest : rest.IsRead) : (cons first rest).IsRead := by
  intro scan before t start hready hclears hawait hsequence hadmits
  have hnone := awaiting_eq_none rfl hawait
  obtain ⟨hidle, hbare⟩ := hsequence rfl
  have hidle' : (scan.adding (first.spans start false)).Idle := hidle
  have hadmits' : LoopSpan.admitsKeyword before = true ∨ Text.startsWord first.render = false := by
    obtain ⟨u, c, hu, -⟩ := first.exists_render_eq_append
    rcases hadmits with h | h
    · exact Or.inl h
    · right
      rw [render, hu] at h
      rw [hu]
      cases u with
      | nil => exact h
      | cons d u => exact h
  obtain ⟨hadmits'', hbare'⟩ := after_render first before
  rw [render, List.append_assoc, hfirst scan _ _ _ hready hclears (by simp [hnone]) (by simp)
      hadmits', hbare, LoopScan.reading_of_idle hidle hnone,
    hrest _ _ _ _ (hready.adding _) hidle'.clears (by simp [LoopScan.adding, hnone])
      (fun _ => ⟨hidle', hbare'⟩) (Or.inl hadmits''), hbare', LoopScan.reading_of_idle hidle' hnone,
    LoopScan.reading_of_idle hidle hnone]
  simp [LoopScan.adding, spans, Nat.add_assoc]

/-- Every passage whose words are kept apart is read. -/
theorem isRead_of_isSeparated {kind : PassageKind} (s : Passage kind) (h : s.isSeparated = true) :
    s.IsRead := by
  induction s with
  | expression e => exact isRead_expression e
  | block gap body close ih => exact isRead_block gap (ih h) close
  | ifThen gap paren condition body ih => exact isRead_ifThen gap paren condition (ih h)
  | ifElse gap paren condition yes otherwise no ihYes ihNo =>
    simp only [isSeparated, Bool.and_eq_true, Bool.not_eq_true'] at h
    exact isRead_ifElse gap paren condition (ihYes h.1.1) otherwise (ihNo h.1.2) h.2
  | loop gap keyword paren group body ih => exact isRead_loop gap keyword paren group (ih h)
  | doWhile gap body tail paren condition close ih =>
    simp only [isSeparated, Bool.and_eq_true, Bool.not_eq_true'] at h
    exact isRead_doWhile gap (ih h.1) h.2 tail paren condition close
  | nil => exact isRead_nil
  | cons first rest ihFirst ihRest =>
    simp only [isSeparated, Bool.and_eq_true] at h
    exact isRead_cons (ihFirst h.1) (ihRest h.2)

end Passage

namespace FunctionPassage

/-- In front of the body nothing is recorded. -/
lemma run_opening (f : FunctionPassage) (t : Text) :
    ({} : LoopScan).run [] 0 0 (f.opening ++ t) =
      ({ depth := 1, started := true } : LoopScan).run f.opening.reverse f.opening.length 0 t := by
  have hhead := Text.isFreeOf_iff.mp f.isFreeOfEnds
  have hdelta : Text.parenDelta f.head = 0 := by
    have hl : '(' ∉ f.head := fun h => hhead _ h (by simp)
    have hr : ')' ∉ f.head := fun h => hhead _ h (by simp)
    rw [Text.parenDelta, List.count_eq_zero.mpr hl, List.count_eq_zero.mpr hr]
    rfl
  have hshape : f.opening ++ t =
      f.head ++ ('(' :: (f.parameters.text ++ [')']) ++ (f.gap.text ++ '{' :: t)) := by
    simp [opening]
  rw [hshape, LoopScan.run_quiet _ f.head, hdelta]
  · rw [show ({ ({} : LoopScan) with parens := 0 + 0 } : LoopScan) = {} from rfl,
      LoopScan.run_group _ rfl, LoopScan.run_gap, LoopScan.run_openBrace]
    have hopen : ({} : LoopScan).openBrace
        (0 + f.head.length + ('(' :: (f.parameters.text ++ [')'])).length + f.gap.text.length) =
          ({ depth := 1, started := true } : LoopScan) := rfl
    rw [hopen]
    simp [opening, Nat.add_comm, Nat.add_left_comm]
  · intro a c b hsplit
    have hc := hhead c (by rw [hsplit]; simp)
    simp only [List.mem_cons, List.not_mem_nil, or_false, not_or] at hc
    exact ⟨hc.2.2.1, hc.2.2.2.1, fun _ => ⟨hc.2.2.2.2, fun h => absurd h (by simp)⟩⟩

/-- The loops that the pass finds in the text of a function are those of its syntax tree. -/
theorem spans_render (f : FunctionPassage) (h : f.body.isSeparated = true) (t : Text) :
    Loop.spans (f.render ++ t) = f.spans := by
  have hready : ({ depth := 1, started := true } : LoopScan).Ready :=
    ⟨rfl, rfl, le_refl _, by simp, by simp, by simp⟩
  have hidle : ({ depth := 1, started := true } : LoopScan).Idle := by simp [LoopScan.Idle]
  have hu : f.opening.reverse =
      '{' :: (f.head ++ '(' :: (f.parameters.text ++ ')' :: f.gap.text)).reverse := by
    simp [opening]
  have hbare : LoopSpan.isBareBody f.opening.reverse = false := by
    rw [hu]
    exact LoopSpan.isBareBody_delimiter (by simp) _
  have hadmits : LoopSpan.admitsKeyword f.opening.reverse = true := by
    rw [hu]
    exact LoopSpan.admitsKeyword_delimiter (by simp) _
  have hshape : f.render ++ t =
      f.opening ++ (f.body.render ++ (f.close.text ++ '}' :: t)) := by
    simp [render]
  rw [Loop.spans, hshape, run_opening, Passage.isRead_of_isSeparated f.body h _ _ _ _ hready
    hidle.clears (by simp) (fun _ => ⟨hidle, hbare⟩) (Or.inl hadmits),
    LoopScan.reading_of_idle hidle rfl, LoopScan.run_gap, LoopScan.run_closeBrace, if_pos]
  · rw [LoopScan.closeBrace, LoopScan.endBraceless_eq, hbare]
    rfl
  · rw [LoopScan.closeBrace, LoopScan.endBraceless_eq]
    exact ⟨rfl, le_refl _⟩

end FunctionPassage

/-- The loops that the pass finds in a function of phrases are those of its syntax tree. -/
theorem FunctionText.spans_render (f : FunctionText) (h : f.body.isSeparated = true) (t : Text) :
    Loop.spans (f.render ++ t) = f.spans := by
  rw [← f.render_toPassage, ← f.spans_toPassage]
  exact f.toPassage.spans_render (by rw [toPassage, Phrase.isSeparated_toPassage, h]) t

end ShaderProbe
