import Mathlib
import ShaderProbe.Proofs.Matching
import ShaderProbe.Proofs.OpenLoops

/-!
# The blocks of loops

The pass keeps a stack of the loops whose blocks are open.  It reads a loop header at once, so it
does not see the braces in it.  With the headers blanked out (`LoopSpan.blankHeaders`) the depth of
the pass is the number of braces that are open (`LoopScan.Counts`).  A loop on the stack has its
block open since its brace, and the depths of the stack fall (`LoopScan.Blocks`), so the brace that
takes a loop from the stack is the one that matches (`Loop.matches_of_mem_spans`), whatever the text
is.
-/

namespace ShaderProbe

namespace Text

/-- The brace at an offset is open up to another one: behind it the count of open braces never falls
below what it is right behind it. -/
structure StaysOpen (t : Text) (b o : Nat) : Prop where
  opening : t[b]? = some '{'
  lt : b < o
  le_braceDelta : ∀ k, b < k → k ≤ o → braceDelta (t.take (b + 1)) ≤ braceDelta (t.take k)

/-- Two braces match: the first one is open up to the second one, and the count of open braces is
the same right behind the first one and right in front of the second one. -/
structure Matches (t : Text) (b e : Nat) : Prop extends StaysOpen t b e where
  closing : t[e]? = some '}'
  isLevel : braceDelta (t.take e) = braceDelta (t.take (b + 1))

variable {t : Text} {b o o' : Nat} {c : Char}

/-- A character counts behind the text in front of it. -/
lemma braceDelta_take_succ (h : t[o]? = some c) :
    braceDelta (t.take (o + 1)) = braceDelta (t.take o) + braceDelta [c] := by
  rw [List.take_add_one, h, braceDelta_append]
  rfl

/-- Parentheses count in the same way. -/
lemma parenDelta_take_succ (h : t[o]? = some c) :
    parenDelta (t.take (o + 1)) = parenDelta (t.take o) + parenDelta [c] := by
  rw [List.take_add_one, h, parenDelta_append]
  rfl

/-- A character that is no brace does not count. -/
lemma braceDelta_singleton (hopen : c ≠ '{') (hclose : c ≠ '}') : braceDelta [c] = 0 := by
  unfold braceDelta
  rw [List.count_singleton, List.count_singleton, if_neg (by simpa using hopen),
    if_neg (by simpa using hclose)]
  rfl

/-- A brace stays open as far as the count does not fall below it. -/
lemma StaysOpen.advance (h : StaysOpen t b o) (hle : o ≤ o')
    (hkeep : ∀ k, o < k → k ≤ o' → braceDelta (t.take (b + 1)) ≤ braceDelta (t.take k)) :
    StaysOpen t b o' := by
  refine ⟨h.opening, Nat.lt_of_lt_of_le h.lt hle, fun k hk hk' => ?_⟩
  by_cases hko : k ≤ o
  · exact h.le_braceDelta k hk hko
  · exact hkeep k (by omega) hk'

end Text

namespace LoopSpan

variable {text : Text} {o p q close : Nat} {c : Char}

/-! ### Headers -/

/-- A loop header can start at an offset: behind the first brace, outside parentheses, and not
inside a word. -/
def AdmitsHeader (text : Text) (o : Nat) : Prop :=
  '{' ∈ text.take o ∧ Text.parenDelta (text.take o) = 0 ∧
    Text.startsWord (text.take o).reverse = false

instance (text : Text) (o : Nat) : Decidable (AdmitsHeader text o) :=
  inferInstanceAs (Decidable (_ ∧ _ ∧ _))

/-- The parenthesis that closes the loop header at an offset. -/
def headerEnd? (text : Text) (o : Nat) : Option Nat :=
  if AdmitsHeader text o then do
    let paren ← headerParen? (text.drop o)
    let close ← Text.closingParen? ((text.drop o).drop paren)
    some (o + (paren + close))
  else none

/-- The character at an offset belongs to a loop header. -/
def inHeader (text : Text) (q : Nat) : Bool :=
  (List.range (q + 1)).any fun o => (headerEnd? text o).any fun close => q ≤ close

/-- The text with blanks in place of its loop headers. -/
def blankHeaders (text : Text) : Text :=
  text.mapIdx fun q c => if inHeader text q then ' ' else c

/-- Where a header ends is read off the text. -/
lemma headerEnd?_eq_some_iff :
    headerEnd? text o = some close ↔ AdmitsHeader text o ∧
      ∃ a t, text.drop o = a ++ ')' :: t ∧ IsHeader a ∧ close = o + a.length := by
  unfold headerEnd?
  constructor
  · intro h
    split at h
    · rename_i hadmits
      obtain ⟨paren, hparen, h⟩ := Option.bind_eq_some_iff.mp h
      obtain ⟨n, hn, h⟩ := Option.bind_eq_some_iff.mp h
      obtain ⟨a, t, hdrop, hheader, hlength⟩ := exists_isHeader hparen hn
      exact ⟨hadmits, a, t, hdrop, hheader, by rw [hlength]; exact (Option.some.inj h).symm⟩
    · exact absurd h (by simp)
  · rintro ⟨hadmits, a, t, hdrop, hheader, rfl⟩
    obtain ⟨paren, n, hparen, hn, hlength⟩ := hheader.read t
    rw [if_pos hadmits, hdrop]
    simp only [hparen, hn, Option.bind_eq_bind, Option.bind_some, hlength]

/-- A header starts with a letter of a keyword. -/
lemma headerEnd?_eq_none (hc : text[o]? = some c) (hf : c ≠ 'f') (hw : c ≠ 'w') :
    headerEnd? text o = none := by
  obtain ⟨hlt, hget⟩ := List.getElem?_eq_some_iff.mp hc
  unfold headerEnd?
  split
  · rw [List.drop_eq_getElem_cons hlt, hget, headerParen?_eq_none hf hw]
    rfl
  · rfl

/-- A text is cut inside a piece of it. -/
lemma take_add_of_drop {a t : Text} {k : Nat} (hdrop : text.drop o = a ++ t) (hk : k ≤ a.length) :
    text.take (o + k) = text.take o ++ a.take k := by
  rw [List.take_add, hdrop, List.take_append_of_le_length hk]

/-- Every front of a header that reaches behind its parenthesis leaves a parenthesis open. -/
lemma parenDelta_of_header {word gap group : Text} (hword : word ∈ keywords)
    (hgap : Text.isBlankOnly gap = true)
    (hclose : Text.closingFrom '(' ')' 1 (group ++ [')']) = some group.length) {j : Nat}
    (hj : j ≤ group.length) :
    1 ≤ Text.parenDelta (word ++ (gap ++ '(' :: group.take j)) := by
  have hwordzero : Text.parenDelta word = 0 := by
    rcases (by simpa [keywords] using hword : word = "for".toList ∨ word = "while".toList) with
      rfl | rfl <;> decide
  have hgapzero : Text.parenDelta gap = 0 := LoopScan.parenDelta_gap ⟨gap, hgap⟩
  have hopen := (Text.depth_of_closingFrom le_rfl hclose).1 j hj
  rw [List.take_append_of_le_length hj] at hopen
  rw [Text.parenDelta_append, Text.parenDelta_append, Text.parenDelta_cons, hwordzero, hgapzero]
  have hone : Text.parenDelta ['('] = 1 := rfl
  omega

/-- **No header starts inside a header.** -/
lemma headerEnd?_eq_none_of_lt (h : headerEnd? text o = some close) (hlt : o < p)
    (hle : p ≤ close) :
    headerEnd? text p = none := by
  obtain ⟨⟨-, hparens, -⟩, a, t, hdrop, hheader, rfl⟩ := headerEnd?_eq_some_iff.mp h
  obtain ⟨word, hword, gap, group, hgap, rfl, hclose⟩ := hheader
  obtain ⟨k, rfl⟩ : ∃ k, p = o + k := ⟨p - o, by omega⟩
  have hk : k ≤ (word ++ (gap ++ '(' :: group)).length := by omega
  have htake := take_add_of_drop hdrop hk
  have hget : text[o + k]? = (word ++ (gap ++ '(' :: group) ++ ')' :: t)[k]? := by
    rw [← hdrop, List.getElem?_drop]
  by_cases hin : k ≤ word.length
  · -- inside the keyword a word runs on
    have hstarts : Text.startsWord (text.take (o + k)).reverse = true := by
      obtain ⟨j, rfl⟩ : ∃ j, k = j + 1 := ⟨k - 1, by omega⟩
      have hj : j < word.length := by omega
      have hc : text[o + j]? = some word[j] := by
        rw [← List.getElem?_drop, hdrop, List.append_assoc, List.getElem?_append_left hj,
          List.getElem?_eq_getElem hj]
      rw [← Nat.add_assoc, Text.startsWord_take_succ hc]
      exact Text.isWordChar_of_isIdent (Text.isIdent_keyword hword).1 _ (List.getElem_mem hj)
    unfold headerEnd?
    rw [if_neg fun hadmits => ?_]
    rw [hadmits.2.2] at hstarts
    exact absurd hstarts Bool.false_ne_true
  by_cases hgaps : k ≤ word.length + gap.length
  · -- up to the parenthesis there are blanks
    rw [List.append_assoc, List.getElem?_append_right (by omega), List.append_assoc] at hget
    by_cases hblank : k - word.length < gap.length
    · rw [List.getElem?_append_left hblank, List.getElem?_eq_getElem hblank] at hget
      have hc := Text.isBlankOnly_iff.mp hgap _ (List.getElem_mem hblank)
      refine headerEnd?_eq_none hget ?_ ?_
      · rintro heq; rw [heq] at hc; exact absurd hc (by decide)
      · rintro heq; rw [heq] at hc; exact absurd hc (by decide)
    · have heq : k - word.length = gap.length := by omega
      rw [heq, List.getElem?_append_right le_rfl, Nat.sub_self] at hget
      exact headerEnd?_eq_none hget (by decide) (by decide)
  · -- behind the parenthesis it is open
    obtain ⟨j, rfl⟩ : ∃ j, k = word.length + (gap.length + (j + 1)) :=
      ⟨k - word.length - gap.length - 1, by omega⟩
    have hj : j ≤ group.length := by
      simp only [List.length_append, List.length_cons] at hk
      omega
    have hopen := parenDelta_of_header hword hgap hclose hj
    unfold headerEnd?
    rw [if_neg fun hadmits => ?_]
    have hdelta := hadmits.2.1
    rw [htake, Text.parenDelta_append, hparens, List.take_length_add_append,
      List.take_length_add_append, List.take_succ_cons] at hdelta
    omega

/-- A character belongs to a header that starts not behind it and ends not in front of it. -/
lemma inHeader_iff :
    inHeader text q = true ↔ ∃ o close, headerEnd? text o = some close ∧ o ≤ q ∧ q ≤ close := by
  unfold inHeader
  simp only [List.any_eq_true, List.mem_range, Option.any_eq_true, decide_eq_true_eq]
  constructor
  · rintro ⟨o, ho, close, hend, hle⟩
    exact ⟨o, close, hend, by omega, hle⟩
  · rintro ⟨o, close, hend, ho, hle⟩
    exact ⟨o, by omega, close, hend, hle⟩

/-- A character outside headers is kept. -/
lemma getElem?_blankHeaders (text : Text) (q : Nat) :
    (blankHeaders text)[q]? = text[q]?.map fun c => if inHeader text q then ' ' else c := by
  unfold blankHeaders
  rw [List.getElem?_mapIdx]

/-- A character other than a blank is left only where it was. -/
lemma getElem?_of_blankHeaders (hne : c ≠ ' ') (h : (blankHeaders text)[q]? = some c) :
    text[q]? = some c := by
  rw [getElem?_blankHeaders] at h
  obtain ⟨d, hd, hc⟩ := Option.map_eq_some_iff.mp h
  split at hc
  · exact absurd hc.symm hne
  · rw [hd, hc]

/-- Where no header holds a brace, the braces are the same without the headers. -/
lemma braceDelta_take_blankHeaders
    (h : ∀ q, inHeader text q = true → text[q]? ≠ some '{' ∧ text[q]? ≠ some '}') (k : Nat) :
    Text.braceDelta ((blankHeaders text).take k) = Text.braceDelta (text.take k) := by
  induction k with
  | zero => rfl
  | succ k ih =>
    cases hc : text[k]? with
    | none =>
      have hblank := getElem?_blankHeaders text k
      rw [hc, Option.map_none] at hblank
      rw [List.take_add_one, List.take_add_one, hc, hblank, Option.toList_none, List.append_nil,
        List.append_nil, ih]
    | some c =>
      have hblank := getElem?_blankHeaders text k
      rw [hc, Option.map_some] at hblank
      rw [Text.braceDelta_take_succ hc, Text.braceDelta_take_succ hblank, ih]
      split
      · rename_i hin
        obtain ⟨hopen, hclose⟩ := h k hin
        rw [hc, Ne, Option.some.injEq] at hopen hclose
        rw [Text.braceDelta_singleton hopen hclose,
          Text.braceDelta_singleton (by decide) (by decide)]
      · rfl

/-- Where no header holds a brace, braces match if they match without the headers. -/
lemma matches_of_blankHeaders {b e : Nat} (h : (blankHeaders text).Matches b e)
    (hfree : ∀ q, inHeader text q = true → text[q]? ≠ some '{' ∧ text[q]? ≠ some '}') :
    text.Matches b e := by
  refine ⟨⟨getElem?_of_blankHeaders (by decide) h.opening, h.lt, fun k hk hke => ?_⟩,
    getElem?_of_blankHeaders (by decide) h.closing, ?_⟩
  · have := h.le_braceDelta k hk hke
    rwa [braceDelta_take_blankHeaders hfree, braceDelta_take_blankHeaders hfree] at this
  · have := h.isLevel
    rwa [braceDelta_take_blankHeaders hfree, braceDelta_take_blankHeaders hfree] at this

end LoopSpan

namespace LoopScan

variable {text : Text} {o close : Nat} {scan next last : LoopScan} {c : Char}

/-! ### The counts of the pass -/

/-- What the pass has counted in front of an offset, and no header reaches over the offset. -/
structure Counts (text : Text) (o : Nat) (scan : LoopScan) : Prop where
  parens : scan.parens = Text.parenDelta (text.take o)
  depth : scan.depth = Text.braceDelta ((LoopSpan.blankHeaders text).take o)
  headers : ∀ p close, LoopSpan.headerEnd? text p = some close → p < o → close < o

/-- Where no header starts, the pass is outside of headers. -/
lemma Counts.getElem?_blankHeaders (h : Counts text o scan)
    (hnone : LoopSpan.headerEnd? text o = none) : (LoopSpan.blankHeaders text)[o]? = text[o]? := by
  have hout : ¬LoopSpan.inHeader text o = true := by
    intro hin
    obtain ⟨p, close, hend, hle, hclose⟩ := LoopSpan.inHeader_iff.mp hin
    rcases Nat.lt_or_eq_of_le hle with hlt | rfl
    · have := h.headers p close hend hlt
      omega
    · rw [hnone] at hend
      exact absurd hend (by simp)
  rw [LoopSpan.getElem?_blankHeaders]
  simp only [hout, if_false, Option.map_id_fun', id_eq, Bool.false_eq_true]

/-- A character outside of headers is counted. -/
lemma Counts.char (h : Counts text o scan) (hc : text[o]? = some c)
    (hnone : LoopSpan.headerEnd? text o = none)
    (hparens : next.parens = scan.parens + Text.parenDelta [c])
    (hdepth : next.depth = scan.depth + Text.braceDelta [c]) : Counts text (o + 1) next := by
  refine ⟨?_, ?_, fun p close hend hlt => ?_⟩
  · rw [hparens, h.parens, Text.parenDelta_take_succ hc]
  · rw [hdepth, h.depth, Text.braceDelta_take_succ ((h.getElem?_blankHeaders hnone).trans hc)]
  · rcases Nat.lt_or_eq_of_le (Nat.le_of_lt_succ hlt) with hlt | rfl
    · exact Nat.lt_succ_of_lt (h.headers p close hend hlt)
    · rw [hnone] at hend
      exact absurd hend (by simp)

/-- Inside a header no brace is counted. -/
lemma braceDelta_take_of_header (hend : LoopSpan.headerEnd? text o = some close) {k : Nat}
    (hlow : o ≤ k) (hhigh : k ≤ close + 1) :
    Text.braceDelta ((LoopSpan.blankHeaders text).take k) =
      Text.braceDelta ((LoopSpan.blankHeaders text).take o) := by
  induction k, hlow using Nat.le_induction with
  | base => rfl
  | succ k hk ih =>
    have hin : LoopSpan.inHeader text k = true :=
      LoopSpan.inHeader_iff.mpr ⟨o, close, hend, hk, by omega⟩
    have hblank := LoopSpan.getElem?_blankHeaders text k
    rw [hin] at hblank
    rw [List.take_add_one, Text.braceDelta_append, ih (by omega), hblank]
    cases text[k]? with
    | none => exact Int.add_zero _
    | some c => exact Int.add_zero _

/-- A header is passed over as a whole. -/
lemma Counts.header (h : Counts text o scan) (hend : LoopSpan.headerEnd? text o = some close)
    (hparens : next.parens = scan.parens) (hdepth : next.depth = scan.depth) :
    Counts text (close + 1) next := by
  obtain ⟨-, a, t, hdrop, hheader, hclose⟩ := LoopSpan.headerEnd?_eq_some_iff.mp hend
  refine ⟨?_, ?_, fun p close' hend' hlt => ?_⟩
  · have htake : text.take (close + 1) = text.take o ++ (a ++ [')']) := by
      rw [hclose, Nat.add_assoc, List.take_add, hdrop, ← List.singleton_append, ← List.append_assoc,
        List.take_left' (by simp)]
    rw [hparens, h.parens, htake, Text.parenDelta_append, hheader.parenDelta.1, Int.add_zero]
  · rw [hdepth, h.depth, braceDelta_take_of_header hend (by omega) le_rfl]
  · rcases Nat.lt_trichotomy p o with hp | rfl | hp
    · have := h.headers p close' hend' hp
      omega
    · rw [hend] at hend'
      have := Option.some.inj hend'
      omega
    · rw [LoopSpan.headerEnd?_eq_none_of_lt hend hp (by omega)] at hend'
      exact absurd hend' (by simp)

/-! ### The stack of the pass -/

/-- The braces of the loops found so far. -/
def braces (scan : LoopScan) : List (Option Nat) := scan.spans.map LoopSpan.brace

/-- Ending statements keeps the braces. -/
lemma braces_endBraceless (scan : LoopScan) (offset : Nat) :
    (scan.endBraceless offset).braces = scan.braces := by
  rw [endBraceless_eq]
  unfold braces
  apply List.ext_getElem?
  intro i
  rw [List.getElem?_map, getElem?_endAll, List.getElem?_map, Option.map_map]
  congr 1
  funext span
  dsimp only [Function.comp]
  split <;> rfl

/-- What holds of the blocks in front of an offset.  The blocks of the loops on the stack are open,
the inner ones deeper; loops without braces have none, and the blocks that have ended match. -/
structure Blocks (t : Text) (o : Nat) (scan : LoopScan) : Prop where
  matched : ∀ span ∈ scan.spans, ∀ b ∈ span.brace, ∀ e ∈ span.bodyEnd, t.Matches b e
  braced : ∀ entry ∈ scan.braced, ∃ b, scan.braces[entry.1]? = some (some b) ∧ t.StaysOpen b o ∧
    entry.2 = Text.braceDelta (t.take (b + 1))
  sorted : scan.braced.Pairwise fun inner outer => outer.2 < inner.2
  braceless : ∀ entry ∈ scan.braceless, scan.braces[entry.1]? = some none ∧
    scan.awaiting ≠ some entry.1

variable {t : Text} {o' : Nat}

/-- The loops on the stack stand at most as deep as the pass. -/
lemma Blocks.le_depth (h : Blocks t o scan) {entry : Nat × Int} (hentry : entry ∈ scan.braced) :
    entry.2 ≤ Text.braceDelta (t.take o) := by
  obtain ⟨b, -, hopen, hinside⟩ := h.braced entry hentry
  rw [hinside]
  exact hopen.le_braceDelta o hopen.lt le_rfl

/-- The pass goes on as far as it stays in the blocks of the loops on the stack. -/
lemma Blocks.advance (h : Blocks t o scan) (hle : o ≤ o')
    (hkeep : ∀ entry ∈ scan.braced, ∀ k, o < k → k ≤ o' → entry.2 ≤ Text.braceDelta (t.take k)) :
    Blocks t o' scan := by
  refine ⟨h.matched, fun entry hentry => ?_, h.sorted, h.braceless⟩
  obtain ⟨b, hb, hopen, hinside⟩ := h.braced entry hentry
  refine ⟨b, hb, hopen.advance hle fun k hk hk' => ?_, hinside⟩
  rw [← hinside]
  exact hkeep entry hentry k hk hk'

/-- Counting does not change the blocks. -/
lemma Blocks.count (h : Blocks t o scan) (depth parens : Int) (started : Bool) :
    Blocks t o { scan with depth, parens, started } :=
  ⟨h.matched, h.braced, h.sorted, h.braceless⟩

/-- The end of a statement ends loops without braces only. -/
lemma Blocks.endBraceless (h : Blocks t o scan) (offset : Nat) :
    Blocks t o (scan.endBraceless offset) := by
  have hbraces := braces_endBraceless scan offset
  rw [endBraceless_eq] at hbraces ⊢
  refine ⟨fun span hspan b hb e he => ?_, fun entry hentry => ?_, h.sorted, fun entry hentry => ?_⟩
  · obtain ⟨i, hi⟩ := List.mem_iff_getElem?.mp hspan
    dsimp only at hi
    rw [getElem?_endAll, Option.map_eq_some_iff] at hi
    obtain ⟨old, hold, heq⟩ := hi
    split at heq
    · -- a loop that ends has no brace
      rename_i hmem
      obtain ⟨entry, hentry, rfl⟩ := List.mem_map.mp hmem
      have hnone := (h.braceless entry ((List.takeWhile_prefix _).subset hentry)).1
      unfold braces at hnone
      rw [List.getElem?_map, hold, Option.map_some, Option.some.injEq] at hnone
      rw [← heq] at hb
      rw [Option.mem_def, hnone] at hb
      exact absurd hb (by simp)
    · subst heq
      exact h.matched old (List.mem_of_getElem? hold) b hb e he
  · rw [hbraces]
    exact h.braced entry hentry
  · rw [hbraces]
    exact h.braceless entry ((List.dropWhile_suffix _).subset hentry)

/-- The pass goes on behind a character that closes no block of the stack. -/
lemma Blocks.succ (h : Blocks t o scan)
    (hkeep : ∀ entry ∈ scan.braced, entry.2 ≤ Text.braceDelta (t.take (o + 1))) :
    Blocks t (o + 1) scan := by
  refine h.advance (Nat.le_succ o) fun entry hentry k hk hk' => ?_
  obtain rfl : k = o + 1 := by omega
  exact hkeep entry hentry

/-- The loop on top of the stack ends at the brace that matches its own. -/
lemma Blocks.pop (h : Blocks t o scan) (hc : t[o]? = some '}') {index : Nat} {inside : Int}
    {outer : List (Nat × Int)} (hbraced : scan.braced = (index, inside) :: outer)
    (hinside : inside = Text.braceDelta (t.take o)) :
    Blocks t o ({ scan with braced := outer }.endBody index o) := by
  have hbraces : ({ scan with braced := outer }.endBody index o).braces = scan.braces := by
    apply map_modify_eq
    exact fun _ => rfl
  have hsorted := h.sorted
  rw [hbraced, List.pairwise_cons] at hsorted
  refine ⟨fun span hspan b hb e he => ?_, fun entry hentry => ?_, hsorted.2, fun entry hentry => ?_⟩
  · obtain ⟨i, hi⟩ := List.mem_iff_getElem?.mp hspan
    unfold endBody at hi
    dsimp only at hi
    rw [List.getElem?_modify] at hi
    obtain ⟨old, hold, heq⟩ := Option.map_eq_some_iff.mp hi
    split at heq
    · -- the loop on top of the stack
      rename_i hindex
      subst hindex
      obtain ⟨b', hb', hopen, hlevel⟩ := h.braced (index, inside) (by rw [hbraced]; exact .head _)
      unfold braces at hb'
      rw [List.getElem?_map, hold, Option.map_some, Option.some.injEq] at hb'
      rw [← heq] at hb he
      obtain rfl : b' = b := Option.some.inj (hb'.symm.trans hb)
      obtain rfl : o = e := Option.some.inj he
      exact ⟨hopen, hc, by rw [← hinside]; exact hlevel⟩
    · subst heq
      exact h.matched old (List.mem_of_getElem? hold) b hb e he
  · rw [hbraces]
    exact h.braced entry (by rw [hbraced]; exact .tail _ hentry)
  · rw [hbraces]
    exact h.braceless entry hentry

/-- A closing brace ends the loop whose block it closes. -/
lemma Blocks.closeBrace (h : Blocks t o scan) (hc : t[o]? = some '}')
    (hdepth : scan.depth = Text.braceDelta (t.take o)) : Blocks t (o + 1) (scan.closeBrace o) := by
  have hnext : Text.braceDelta (t.take (o + 1)) = scan.depth - 1 := by
    rw [Text.braceDelta_take_succ hc, hdepth]
    rfl
  unfold LoopScan.closeBrace
  dsimp only
  refine Blocks.endBraceless (Blocks.count (Blocks.succ ?_ ?_) _ _ _) o
  · split
    · exact h
    · rename_i index inside outer hbraced
      split
      · rename_i hinside
        exact h.pop hc hbraced (hinside.trans hdepth)
      · exact h
  · rw [hnext]
    have hsorted := h.sorted
    split
    · rename_i hbraced
      rw [hbraced]
      exact fun entry hentry => absurd hentry List.not_mem_nil
    · rename_i index inside outer hbraced
      rw [hbraced, List.pairwise_cons] at hsorted
      have htop : inside ≤ scan.depth := by
        rw [hdepth]
        exact h.le_depth (by rw [hbraced]; exact .head _)
      split
      · intro entry hentry
        have := hsorted.1 entry hentry
        dsimp only at this
        omega
      · -- the innermost loop stands less deep, and the others even less
        rename_i hne
        intro entry hentry
        rw [hbraced] at hentry
        rcases List.mem_cons.mp hentry with rfl | hentry
        · dsimp only
          omega
        · have := hsorted.1 entry hentry
          dsimp only at this
          omega

/-- An opening brace opens the block of the loop that waits for it. -/
lemma Blocks.openBrace (h : Blocks t o scan) (hs : Sound text o scan) (hc : t[o]? = some '{')
    (hdepth : scan.depth = Text.braceDelta (t.take o)) : Blocks t (o + 1) (scan.openBrace o) := by
  have hnext : Text.braceDelta (t.take (o + 1)) = scan.depth + 1 := by
    rw [Text.braceDelta_take_succ hc, hdepth]
    rfl
  have hbelow : ∀ entry ∈ scan.braced, entry.2 < scan.depth + 1 := by
    intro entry hentry
    have := h.le_depth hentry
    omega
  have hsucc : Blocks t (o + 1) scan := by
    refine h.succ fun entry hentry => ?_
    rw [hnext]
    exact (hbelow entry hentry).le
  unfold LoopScan.openBrace
  dsimp only
  cases hawaiting : scan.awaiting with
  | none =>
    have hcount := hsucc.count (scan.depth + 1) scan.parens true
    rwa [hawaiting] at hcount
  | some i =>
    obtain ⟨front, span, b, hspans, rfl, -, hbrace, hend, -⟩ := hs.awaiting i hawaiting
    have hold : scan.braces = front.map LoopSpan.brace ++ [none] := by
      unfold braces
      rw [hspans, List.map_append, List.map_singleton, hbrace]
    -- the braces of the other loops stay
    have hkeep : ∀ {i : Nat} {brace : Option Nat}, i ≠ front.length → scan.braces[i]? = some brace →
        ((front ++ [{ span with brace := some o }]).map LoopSpan.brace)[i]? = some brace := by
      intro i brace hne hi
      have hlt : i < scan.braces.length := (List.getElem?_eq_some_iff.mp hi).1
      rw [hold, List.length_append, List.length_map, List.length_singleton] at hlt
      rw [hold, List.getElem?_append_left (by rw [List.length_map]; omega)] at hi
      rw [List.map_append, List.getElem?_append_left (by rw [List.length_map]; omega), hi]
    dsimp only
    rw [hspans, modify_append_length]
    refine ⟨fun x hx b hb e he => ?_, fun entry hentry => ?_, ?_, fun entry hentry => ?_⟩
    · rcases List.mem_append.mp hx with hx | hx
      · exact h.matched x (by rw [hspans]; exact List.mem_append_left _ hx) b hb e he
      · rw [List.mem_singleton.mp hx, Option.mem_def, hend] at he
        exact absurd he (by simp)
    · rcases List.mem_cons.mp hentry with rfl | hentry
      · refine ⟨o, ?_, ⟨hc, Nat.lt_succ_self o, fun k hk hk' => ?_⟩, hnext.symm⟩
        · unfold braces
          rw [List.map_append, List.getElem?_append_right (by simp), List.length_map, Nat.sub_self]
          rfl
        · obtain rfl : k = o + 1 := by omega
          exact le_rfl
      · obtain ⟨b, hb, hopen, hinside⟩ := hsucc.braced entry hentry
        refine ⟨b, hkeep ?_ hb, hopen, hinside⟩
        rintro heq
        rw [heq, hold, List.getElem?_append_right (by simp), List.length_map, Nat.sub_self] at hb
        exact absurd hb (by simp)
    · exact List.pairwise_cons.mpr ⟨hbelow, h.sorted⟩
    · obtain ⟨hnone, hne⟩ := h.braceless entry hentry
      refine ⟨hkeep (fun heq => hne ?_) hnone, by simp⟩
      rw [hawaiting, heq]

/-- A loop that is found has no brace yet. -/
lemma Blocks.addLoop (h : Blocks t o scan) (hnone : scan.awaiting = none) (offset length : Nat)
    (headerText : Text) (bareBody : Bool) (first : Option Char) :
    Blocks t o (scan.addLoop offset length headerText bareBody first) := by
  have hlt : ∀ {i : Nat} {brace : Option Nat}, scan.braces[i]? = some brace →
      i < scan.spans.length := by
    intro i brace hi
    have := (List.getElem?_eq_some_iff.mp hi).1
    rwa [braces, List.length_map] at this
  set span : LoopSpan := { keyword := offset, parenClose := offset + length, headerText, bareBody }
    with hspan
  have hkeep : ∀ {i : Nat} {brace : Option Nat}, scan.braces[i]? = some brace →
      ((scan.spans ++ [span]).map LoopSpan.brace)[i]? = some brace := by
    intro i brace hi
    rw [List.map_append, List.getElem?_append_left (by rw [List.length_map]; exact hlt hi)]
    exact hi
  have hmatched : ∀ x ∈ scan.spans ++ [span], ∀ b ∈ x.brace, ∀ e ∈ x.bodyEnd, t.Matches b e := by
    intro x hx b hb e he
    rcases List.mem_append.mp hx with hx | hx
    · exact h.matched x hx b hb e he
    · rw [List.mem_singleton.mp hx] at hb
      exact absurd hb (by simp [hspan])
  have hbraced : ∀ entry ∈ scan.braced, ∃ b,
      ((scan.spans ++ [span]).map LoopSpan.brace)[entry.1]? = some (some b) ∧ t.StaysOpen b o ∧
        entry.2 = Text.braceDelta (t.take (b + 1)) := by
    intro entry hentry
    obtain ⟨b, hb, hopen⟩ := h.braced entry hentry
    exact ⟨b, hkeep hb, hopen⟩
  unfold LoopScan.addLoop
  dsimp only
  split
  · refine ⟨hmatched, hbraced, h.sorted, fun entry hentry => ?_⟩
    have hi := (h.braceless entry hentry).1
    refine ⟨hkeep hi, fun heq => ?_⟩
    have := hlt hi
    rw [Option.some.injEq] at heq
    omega
  · refine ⟨hmatched, hbraced, h.sorted, fun entry hentry => ?_⟩
    dsimp only
    rw [hnone]
    rcases List.mem_cons.mp hentry with rfl | hentry
    · refine ⟨?_, by simp⟩
      unfold braces
      dsimp only
      rw [List.map_append, List.getElem?_append_right (by simp), List.length_map, Nat.sub_self]
      rfl
    · exact ⟨hkeep (h.braceless entry hentry).1, by simp⟩

/-! ### Runs -/

/-- What holds of the state of the pass in front of an offset. -/
structure Tracks (text : Text) (o : Nat) (scan : LoopScan) : Prop where
  sound : Sound text o scan
  counts : Counts text o scan
  blocks : Blocks (LoopSpan.blankHeaders text) o scan

/-- At the start there are no blocks. -/
lemma tracks_nil (text : Text) : Tracks text 0 {} := by
  refine ⟨sound_nil text, ⟨rfl, rfl, fun p close _ hlt => absurd hlt (Nat.not_lt_zero p)⟩, ?_⟩
  exact ⟨fun _ h => absurd h List.not_mem_nil, fun _ h => absurd h List.not_mem_nil, .nil,
    fun _ h => absurd h List.not_mem_nil⟩

/-- An opening brace. -/
lemma Tracks.openBrace (h : Tracks text o scan) (hc : text[o]? = some '{') :
    Tracks text (o + 1) (scan.openBrace o) := by
  have hnone := LoopSpan.headerEnd?_eq_none hc (by decide) (by decide)
  have hblank := (h.counts.getElem?_blankHeaders hnone).trans hc
  refine ⟨h.sound.openBrace hc, h.counts.char hc hnone ?_ ?_,
    h.blocks.openBrace h.sound hblank h.counts.depth⟩
  · unfold LoopScan.openBrace
    dsimp only
    split <;> exact (Int.add_zero _).symm
  · unfold LoopScan.openBrace
    dsimp only
    split <;> rfl

/-- A closing brace. -/
lemma Tracks.closeBrace (h : Tracks text o scan) (hc : text[o]? = some '}') :
    Tracks text (o + 1) (scan.closeBrace o) := by
  have hnone := LoopSpan.headerEnd?_eq_none hc (by decide) (by decide)
  have hblank := (h.counts.getElem?_blankHeaders hnone).trans hc
  obtain ⟨hdepth, -, hparens, -⟩ := closeBrace_fields scan o
  refine ⟨h.sound.closeBrace hc, h.counts.char hc hnone ?_ hdepth,
    h.blocks.closeBrace hblank h.counts.depth⟩
  rw [hparens]
  exact (Int.add_zero _).symm

/-- A character that is no brace leaves the depth as it is. -/
lemma Tracks.blocks_succ (h : Tracks text o scan) (hc : text[o]? = some c) (hopen : c ≠ '{')
    (hclose : c ≠ '}') (hnone : LoopSpan.headerEnd? text o = none) :
    Blocks (LoopSpan.blankHeaders text) (o + 1) scan := by
  have hblank := (h.counts.getElem?_blankHeaders hnone).trans hc
  refine h.blocks.succ fun entry hentry => ?_
  rw [Text.braceDelta_take_succ hblank, Text.braceDelta_singleton hopen hclose, Int.add_zero]
  exact h.blocks.le_depth hentry

/-- The end of a statement. -/
lemma Tracks.semicolon (h : Tracks text o scan) (hc : text[o]? = some ';') :
    Tracks text (o + 1) (scan.endBraceless o) := by
  have hnone := LoopSpan.headerEnd?_eq_none hc (by decide) (by decide)
  refine ⟨h.sound.endBraceless hc, h.counts.char hc hnone ?_ ?_,
    (h.blocks_succ hc (by decide) (by decide) hnone).endBraceless o⟩ <;> rw [endBraceless_eq]
  · exact (Int.add_zero _).symm
  · exact (Int.add_zero _).symm

/-- A character that is passed over starts no header. -/
lemma Tracks.quiet (h : Tracks text o scan) {before t : Text}
    (hread : text.IsReadTo before o (c :: t)) (hopen : c ≠ '{') (hclose : c ≠ '}')
    (hloop : scan.started = true → scan.parens = 0 → Text.startsWord before = false →
      LoopSpan.headerParen? (c :: t) = none) :
    Tracks text (o + 1) { scan with parens := scan.parens + Text.parenDelta [c] } := by
  have hnone : LoopSpan.headerEnd? text o = none := by
    unfold LoopSpan.headerEnd?
    split
    · rename_i hadmits
      obtain ⟨hinside, hparens, hword⟩ := hadmits
      rw [hread.take_eq, List.reverse_reverse] at hword
      rw [hread.drop_eq, hloop (h.sound.started.mpr hinside) (h.counts.parens.trans hparens) hword]
      rfl
    · rfl
  have hc := hread.getElem?_eq
  refine ⟨h.sound.quiet hc hopen _, h.counts.char hc hnone rfl ?_,
    (h.blocks_succ hc hopen hclose hnone).count _ _ _⟩
  rw [Text.braceDelta_singleton hopen hclose]
  exact (Int.add_zero _).symm

/-- A header is passed over with the depth as it is. -/
lemma Tracks.blocks_header (h : Tracks text o scan) (hend : LoopSpan.headerEnd? text o = some close)
    (hle : o ≤ close) : Blocks (LoopSpan.blankHeaders text) (close + 1) scan := by
  refine h.blocks.advance (by omega) fun entry hentry k hk hk' => ?_
  rw [braceDelta_take_of_header hend hk.le hk']
  exact h.blocks.le_depth hentry

/-- Where the pass reads a header, there is one. -/
lemma Tracks.headerEnd?_eq (h : Tracks text o scan) {before a t : Text}
    (hread : text.IsReadTo before o (a ++ ')' :: t)) (hstarted : scan.started = true)
    (hparens : scan.parens = 0) (hbefore : Text.startsWord before = false)
    (hheader : LoopSpan.IsHeader a) : LoopSpan.headerEnd? text o = some (o + a.length) := by
  refine LoopSpan.headerEnd?_eq_some_iff.mpr ⟨⟨h.sound.started.mp hstarted, ?_, ?_⟩, a, t,
    hread.drop_eq, hheader, rfl⟩
  · rw [← h.counts.parens, hparens]
  · rw [hread.take_eq, List.reverse_reverse, hbefore]

/-- The `while (...)` at the end of a `do` statement. -/
lemma Tracks.skip (h : Tracks text o scan) {a t : Text} (hdrop : text.drop o = a ++ ')' :: t)
    (hheader : LoopSpan.IsHeader a) (hstarted : scan.started = true)
    (hend : LoopSpan.headerEnd? text o = some (o + a.length)) :
    Tracks text (o + (a ++ [')']).length) scan := by
  have hlength : o + (a ++ [')']).length = o + a.length + 1 := by simp [Nat.add_assoc]
  have hsound := h.sound.skip hstarted hdrop hheader
  rw [hlength] at hsound ⊢
  exact ⟨hsound, h.counts.header hend rfl rfl, h.blocks_header hend (Nat.le_add_right _ _)⟩

/-- A loop is found. -/
lemma Tracks.addLoop (h : Tracks text o scan) {a t : Text} (hdrop : text.drop o = a ++ ')' :: t)
    (hheader : LoopSpan.IsHeader a) (hstarted : scan.started = true)
    (hend : LoopSpan.headerEnd? text o = some (o + a.length))
    (hsemi : (Text.trimLeft t).head? ≠ some ';') (bareBody : Bool) :
    Tracks text (o + (a ++ [')']).length)
      (scan.addLoop o a.length (Text.squeeze (a ++ [')'])) bareBody (Text.trimLeft t).head?) := by
  have hlength : o + (a ++ [')']).length = o + a.length + 1 := by simp [Nat.add_assoc]
  have hword := (LoopSpan.headerEnd?_eq_some_iff.mp hend).1.2.2
  have hsound := h.sound.addLoop hstarted hdrop hheader hword hsemi bareBody
  rw [hlength] at hsound ⊢
  refine ⟨hsound, h.counts.header hend ?_ ?_, (h.blocks_header hend (Nat.le_add_right _ _)).addLoop
    (h.sound.awaiting_of_header hdrop hheader) _ _ _ _ _⟩
  · unfold LoopScan.addLoop
    dsimp only
    split <;> rfl
  · unfold LoopScan.addLoop
    dsimp only
    split <;> rfl

/-- **The blocks of the loops that a run has ended match.** -/
theorem Runs.matches {before t : Text} (h : Runs scan before o t last)
    (hread : text.IsReadTo before o t) (htracks : Tracks text o scan) :
    ∀ span ∈ last.spans, ∀ b ∈ span.brace, ∀ e ∈ span.bodyEnd,
      (LoopSpan.blankHeaders text).Matches b e := by
  induction h with
  | nil scan before offset => exact htracks.blocks.matched
  | openBrace next ih => exact ih hread.cons (htracks.openBrace hread.getElem?_eq)
  | closeBrace hopen next ih => exact ih hread.cons (htracks.closeBrace hread.getElem?_eq)
  | lastBrace hstarted hdepth => exact (htracks.closeBrace hread.getElem?_eq).blocks.matched
  | semicolon hparens next ih => exact ih hread.cons (htracks.semicolon hread.getElem?_eq)
  | quiet hopen hclose hsemi hloop next ih =>
    exact ih hread.cons (htracks.quiet hread hopen hclose hloop)
  | unclosed hstarted hparens hbefore hparen hclose => exact htracks.blocks.matched
  | doWhile hstarted hparens hbefore hheader hsemi next ih =>
    have hend := htracks.headerEnd?_eq hread hstarted hparens hbefore hheader
    exact ih hread.concat (htracks.skip hread.drop_eq hheader hstarted hend)
  | loop hstarted hparens hbefore hheader hsemi next ih =>
    have hend := htracks.headerEnd?_eq hread hstarted hparens hbefore hheader
    exact ih hread.concat (htracks.addLoop hread.drop_eq hheader hstarted hend hsemi _)

end LoopScan

namespace Loop

/-- **The block of a loop ends at the brace that matches**, braces in loop headers left out. -/
theorem matches_of_mem_spans {text : Text} {span : LoopSpan} (h : span ∈ spans text) :
    ∀ b ∈ span.brace, ∀ e ∈ span.bodyEnd, (LoopSpan.blankHeaders text).Matches b e :=
  (LoopScan.runs_run text {} [] 0).matches (.start text) (LoopScan.tracks_nil text) span h

end Loop

end ShaderProbe
