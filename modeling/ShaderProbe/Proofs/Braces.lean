import Mathlib
import ShaderProbe.Balance
import ShaderProbe.Proofs.Comment

/-!
# Counting braces

The number of blocks that lines leave open is counted in their code.  Adding the closing braces that
are missing makes it zero, provided that they are code: where a block comment is open at the end of
the lines, the added braces fall into the comment and count for nothing
(`Balance.openBlocks_of_close`).

The lines that instrumentation makes are joined to a text, which is read as lines again.  A line
that holds line feeds then becomes several.  If no brace and no mark of a comment follows its first
line feed (`Comment.IsTame`), the count is the same.
-/

namespace ShaderProbe

namespace Text

/-- Blanks at the end hold no braces. -/
@[simp] lemma braceDelta_trimRight (t : Text) : braceDelta (trimRight t) = braceDelta t := by
  obtain ⟨g, hg, ht⟩ := exists_trimRight_append t
  have hopen : '{' ∉ g := fun h =>
    ne_of_isBlank (isBlankOnly_iff.mp hg _ h) (isBlank_delimiter (by simp)) rfl
  have hclose : '}' ∉ g := fun h =>
    ne_of_isBlank (isBlankOnly_iff.mp hg _ h) (isBlank_delimiter (by simp)) rfl
  have hgap : braceDelta g = 0 := by
    rw [braceDelta, List.count_eq_zero.mpr hopen, List.count_eq_zero.mpr hclose]
    rfl
  nth_rewrite 2 [← ht]
  rw [braceDelta_append, hgap, Int.add_zero]

@[simp] lemma bracesOf_nil : bracesOf [] = 0 := rfl

@[simp] lemma bracesOf_cons (l : Text) (ls : List Text) :
    bracesOf (l :: ls) = braceDelta l + bracesOf ls := rfl

/-- Braces add up over lists of lines. -/
@[simp] lemma bracesOf_append (ls ls' : List Text) :
    bracesOf (ls ++ ls') = bracesOf ls + bracesOf ls' := by
  induction ls with
  | nil => rw [List.nil_append, bracesOf_nil, zero_add]
  | cons l ls ih => rw [List.cons_append, bracesOf_cons, ih, bracesOf_cons, add_assoc]

/-- Trimming lines takes no braces away. -/
lemma bracesOf_map_trimRight (ls : List Text) : bracesOf (ls.map trimRight) = bracesOf ls := by
  induction ls with
  | nil => rfl
  | cons l ls ih => rw [List.map_cons, bracesOf_cons, ih, bracesOf_cons, braceDelta_trimRight]

end Text

namespace Balance

/-! ### Closing blocks -/

/-- The blocks that lines leave open, counted in the lines with their comments blanked. -/
lemma openBlocks_eq (lines : List Text) (start : Nat) :
    openBlocks lines start = Text.bracesOf ((Comment.blankFrom false lines).drop start) := by
  rw [openBlocks, Comment.strip, Comment.stripFrom_eq, ← List.map_drop, Text.bracesOf_map_trimRight]

/-- From the first of the later lines on, only the later lines count. -/
lemma openBlocks_append (front lines : List Text) :
    openBlocks (front ++ lines) front.length =
      Text.bracesOf (Comment.blankFrom (Comment.isOpenAfter false front) lines) := by
  rw [openBlocks_eq, Comment.blankFrom_append, List.drop_left' (by simp)]

/-- A line with a closing brace leaves an open comment open. -/
lemma isOpenAfter_replicate (inBlock : Bool) (n : Nat) :
    Comment.isOpenAfter inBlock (List.replicate n ['}']) = inBlock := by
  induction n with
  | zero => rfl
  | succ n ih => rwa [List.replicate_succ, Comment.isOpenAfter, Comment.blankLine]

/-- Lines with closing braces close one block each, unless they lie in a comment. -/
lemma bracesOf_blankFrom_replicate (inBlock : Bool) (n : Nat) :
    Text.bracesOf (Comment.blankFrom inBlock (List.replicate n ['}'])) =
      if inBlock then 0 else -(n : Int) := by
  induction n with
  | zero => cases inBlock <;> rfl
  | succ n ih =>
    rw [List.replicate_succ, Comment.blankFrom, Comment.blankLine, Text.bracesOf_cons, ih]
    cases inBlock with
    | true => rfl
    | false =>
      have hbrace : Text.braceDelta ['}'] = -1 := by decide
      simp only [Bool.false_eq_true, if_false, hbrace]
      push_cast
      omega

/-- Closing adds as many braces as blocks are open, if no block is closed too often. -/
lemma close_eq_ok_iff {lines result : List Text} {start : Nat} :
    close lines start = .ok result ↔ ∃ n : Nat, openBlocks lines start = n ∧
      result = lines ++ List.replicate n ['}'] := by
  rw [close]
  constructor
  · intro h
    split at h
    · exact absurd h (by simp)
    · rename_i hdepth
      refine ⟨(openBlocks lines start).toNat, by omega, ?_⟩
      exact (Except.ok.inj h).symm
  · rintro ⟨n, hn, rfl⟩
    rw [if_neg (by omega), hn, Int.toNat_natCast]

/-- **Closing leaves no block open, unless a block comment is open.** -/
theorem openBlocks_of_close {lines result : List Text} {start : Nat}
    (h : close lines start = .ok result) :
    ∃ n : Nat, result = lines ++ List.replicate n ['}'] ∧
      openBlocks result start = if Comment.isOpenAfter false result then (n : Int) else 0 := by
  obtain ⟨n, hn, rfl⟩ := close_eq_ok_iff.mp h
  refine ⟨n, rfl, ?_⟩
  rw [Comment.isOpenAfter_append, isOpenAfter_replicate]
  rw [openBlocks_eq] at hn
  rw [openBlocks_eq, Comment.blankFrom_append]
  by_cases hstart : start ≤ lines.length
  · rw [List.drop_append_of_le_length (by simpa using hstart), Text.bracesOf_append, hn,
      bracesOf_blankFrom_replicate]
    split <;> omega
  · -- the lines from `start` on are missing, so nothing is open and nothing is added
    rw [List.drop_of_length_le (by simp; omega), Text.bracesOf_nil] at hn
    obtain rfl : n = 0 := by omega
    rw [List.replicate_zero, Comment.blankFrom, List.append_nil,
      List.drop_of_length_le (by simp; omega)]
    split <;> rfl

end Balance

namespace Comment

/-! ### Lines that hold line feeds -/

/-- A text in which neither a block nor a comment opens or closes. -/
structure IsQuiet (t : Text) : Prop where
  isMarkFree : isMarkFree t = true
  isFreeOfBraces : Text.isFreeOf ['{', '}'] t = true

/-- The parts of a quiet text are quiet. -/
lemma IsQuiet.of_append {s t : Text} (h : IsQuiet (s ++ t)) : IsQuiet s ∧ IsQuiet t := by
  have hbraces := Text.isFreeOf_iff.mp h.isFreeOfBraces
  refine ⟨⟨isMarkFree_of_append_left h.isMarkFree, ?_⟩, ⟨isMarkFree_of_append h.isMarkFree, ?_⟩⟩
  · exact Text.isFreeOf_iff.mpr fun c hc => hbraces c (List.mem_append_left t hc)
  · exact Text.isFreeOf_iff.mpr fun c hc => hbraces c (List.mem_append_right s hc)

/-- Quiet texts make a quiet text if their seam is no mark. -/
lemma IsQuiet.append {s t : Text} (hs : IsQuiet s) (ht : IsQuiet t) (hseam : Seam s t) :
    IsQuiet (s ++ t) := by
  refine ⟨isMarkFree_append hs.isMarkFree ht.isMarkFree hseam, Text.isFreeOf_iff.mpr fun c hc => ?_⟩
  rcases List.mem_append.mp hc with hc | hc
  · exact Text.isFreeOf_iff.mp hs.isFreeOfBraces c hc
  · exact Text.isFreeOf_iff.mp ht.isFreeOfBraces c hc

/-- A quiet line leaves the flag as it is and holds no braces. -/
lemma IsQuiet.blankLine {t : Text} (h : IsQuiet t) (inBlock : Bool) :
    Text.braceDelta (blankLine inBlock t).1 = 0 ∧ (Comment.blankLine inBlock t).2 = inBlock := by
  rw [blankLine_of_isMarkFree h.isMarkFree]
  refine ⟨?_, rfl⟩
  have hfree : ∀ d ∈ ['{', '}'], d ∉ t.map fun c => if inBlock then ' ' else c := by
    intro d hd hmem
    rw [List.mem_map] at hmem
    obtain ⟨c, hc, hcd⟩ := hmem
    split at hcd
    · rw [← hcd] at hd
      exact absurd hd (by decide)
    · rw [← hcd] at hd
      exact Text.isFreeOf_iff.mp h.isFreeOfBraces c hc hd
  rw [Text.braceDelta, List.count_eq_zero.mpr (hfree _ (by simp)),
    List.count_eq_zero.mpr (hfree _ (by simp))]
  rfl

/-- The lines of a quiet text leave the flag as it is and hold no braces. -/
lemma IsQuiet.lines {t : Text} (h : IsQuiet t) (inBlock : Bool) :
    Text.bracesOf (blankFrom inBlock (Text.lines t)) = 0 ∧
      isOpenAfter inBlock (Text.lines t) = inBlock := by
  induction hn : t.length using Nat.strong_induction_on generalizing t with
  | _ n ih =>
    by_cases hmem : '\n' ∈ t
    · obtain ⟨p, s, rfl, hp⟩ := List.eq_append_cons_of_mem hmem
      obtain ⟨hquiet, hrest⟩ := h.of_append
      have hs := ih s.length (by rw [← hn]; simp; omega) (hrest.of_append (s := ['\n'])).2 rfl
      rw [Text.lines_append, Text.lines_eq_singleton hp, List.singleton_append, blankFrom,
        isOpenAfter, Text.bracesOf_cons, (hquiet.blankLine inBlock).1, (hquiet.blankLine inBlock).2]
      exact ⟨by rw [hs.1]; rfl, hs.2⟩
    · rw [Text.lines_eq_singleton hmem, blankFrom, isOpenAfter, Text.bracesOf_cons]
      refine ⟨?_, (h.blankLine inBlock).2⟩
      rw [(h.blankLine inBlock).1]
      rfl

/-- Behind its first line feed the line is quiet. -/
def IsTame (l : Text) : Prop := ∀ p s, l = p ++ '\n' :: s → '\n' ∉ p → IsQuiet s

/-- A line without line feeds is tame. -/
lemma isTame_of_not_mem {l : Text} (h : '\n' ∉ l) : IsTame l := by
  rintro p s rfl
  exact absurd (List.mem_append_right p List.mem_cons_self) h

/-- A line whose line feeds lie in a quiet tail is tame. -/
lemma isTame_append {s t : Text} (hs : '\n' ∉ s) (ht : IsQuiet t) : IsTame (s ++ t) := by
  intro p r h _
  have hquiet : ∀ a : Text, t = a ++ '\n' :: r → IsQuiet r := by
    rintro a rfl
    exact (ht.of_append.2.of_append (s := ['\n'])).2
  rcases List.append_eq_append_iff.mp h with ⟨a, -, ha⟩ | ⟨a, ha, hr⟩
  · exact hquiet a ha
  · cases a with
    | nil => exact hquiet [] hr.symm
    | cons c a =>
      obtain ⟨rfl, -⟩ := List.cons_eq_cons.mp hr
      exact absurd (by rw [ha]; simp) hs

/-- A tame line counts as its lines do. -/
lemma IsTame.lines {l : Text} (h : IsTame l) (inBlock : Bool) :
    Text.bracesOf (blankFrom inBlock (Text.lines l)) = Text.braceDelta (blankLine inBlock l).1 ∧
      isOpenAfter inBlock (Text.lines l) = (blankLine inBlock l).2 := by
  by_cases hmem : '\n' ∈ l
  · obtain ⟨p, s, rfl, hp⟩ := List.eq_append_cons_of_mem hmem
    have hquiet : IsQuiet s := h p s rfl hp
    have hfeed : IsQuiet ('\n' :: s) := by
      refine IsQuiet.append (s := ['\n']) ⟨rfl, rfl⟩ hquiet fun c hc d _ => ?_
      obtain rfl : '\n' = c := by simpa using hc
      rfl
    have hseam : Seam p ('\n' :: s) := fun c _ d hd => by
      obtain rfl : '\n' = d := by simpa using hd
      simp [isMark, opens]
    rw [Text.lines_append, Text.lines_eq_singleton hp, List.singleton_append, blankFrom,
      isOpenAfter, Text.bracesOf_cons, (hquiet.lines _).1, (hquiet.lines _).2,
      blankLine_append inBlock p _ hseam]
    split
    · exact ⟨Int.add_zero _, rfl⟩
    · rw [Text.braceDelta_append, (hfeed.blankLine _).1, (hfeed.blankLine _).2]
      exact ⟨rfl, rfl⟩
  · rw [Text.lines_eq_singleton hmem, blankFrom, isOpenAfter, Text.bracesOf_cons]
    exact ⟨Int.add_zero _, rfl⟩

/-- Tame lines count as the lines that they become. -/
lemma bracesOf_flatMap_lines {ls : List Text} (h : ∀ l ∈ ls, IsTame l) (inBlock : Bool) :
    Text.bracesOf (blankFrom inBlock (ls.flatMap Text.lines)) =
        Text.bracesOf (blankFrom inBlock ls) ∧
      isOpenAfter inBlock (ls.flatMap Text.lines) = isOpenAfter inBlock ls := by
  induction ls generalizing inBlock with
  | nil => exact ⟨rfl, rfl⟩
  | cons l ls ih =>
    have hl := (h l List.mem_cons_self).lines inBlock
    have hls := ih (fun x hx => h x (List.mem_cons_of_mem _ hx)) (blankLine inBlock l).2
    rw [List.flatMap_cons, blankFrom_append, isOpenAfter_append, Text.bracesOf_append, hl.1, hl.2,
      hls.1, hls.2, blankFrom, Text.bracesOf_cons, isOpenAfter]
    exact ⟨rfl, rfl⟩

end Comment

/-- Lines without line feeds stay as they are. -/
lemma flatMap_lines_eq {ls : List Text} (h : ∀ l ∈ ls, '\n' ∉ l) : ls.flatMap Text.lines = ls := by
  induction ls with
  | nil => rfl
  | cons l ls ih =>
    rw [List.flatMap_cons, Text.lines_eq_singleton (h l List.mem_cons_self),
      ih fun x hx => h x (List.mem_cons_of_mem _ hx), List.singleton_append]

/-- The text ends with lines of closing braces, and these are as many as there are blocks left open
from `start` on, if a block comment is open at the end of the text.  Otherwise no block is left
open. -/
def Balance.IsClosed (text : Text) (start : Nat) : Prop :=
  ∃ (body : List Text) (n : Nat), Text.lines text = body ++ List.replicate n ['}'] ∧
    openBlocks (Text.lines text) start =
      if Comment.isOpenAfter false (Text.lines text) then (n : Int) else 0

/-- The text of closed lines, none of which holds a line feed. -/
lemma Balance.isClosed_of_plain {lines result : List Text} {start : Nat}
    (hlines : ∀ l ∈ lines, '\n' ∉ l) (h : close lines start = .ok result) :
    IsClosed (Text.ofLines result) start := by
  obtain ⟨n, hresult, hopen⟩ := openBlocks_of_close h
  by_cases hne : result = []
  · refine ⟨[[]], 0, by rw [hne]; rfl, ?_⟩
    rw [hne]
    cases start with
    | zero => rfl
    | succ start =>
      have hdrop : (Comment.strip [[]]).drop (start + 1) = [] := List.drop_nil
      exact congrArg Text.bracesOf hdrop
  · have hplain : ∀ l ∈ result, '\n' ∉ l := by
      intro l hl
      rw [hresult] at hl
      rcases List.mem_append.mp hl with hl | hl
      · exact hlines l hl
      · rw [List.eq_of_mem_replicate hl]
        decide
    rw [IsClosed, Text.lines_ofLines hne, flatMap_lines_eq hplain]
    exact ⟨lines, n, hresult, hopen⟩

/-- **The text of closed lines leaves no block open, unless a block comment is open at its end.**
The lines in front of `start` hold no line feeds, and the others are tame. -/
theorem Balance.isClosed_of_tame {front lines result : List Text}
    (hfront : ∀ l ∈ front, '\n' ∉ l) (hlines : ∀ l ∈ lines, Comment.IsTame l)
    (h : close (front ++ lines) front.length = .ok result) :
    IsClosed (Text.ofLines result) front.length := by
  obtain ⟨n, hresult, hopen⟩ := openBlocks_of_close h
  by_cases hne : result = []
  · refine ⟨[[]], 0, by rw [hne]; rfl, ?_⟩
    obtain rfl : front = [] := by
      rw [hresult, List.append_eq_nil_iff, List.append_eq_nil_iff] at hne
      exact hne.1.1
    rw [hne]
    rfl
  · have htail : ∀ l ∈ lines ++ List.replicate n ['}'], Comment.IsTame l := by
      intro l hl
      rcases List.mem_append.mp hl with hl | hl
      · exact hlines l hl
      · rw [List.eq_of_mem_replicate hl]
        exact Comment.isTame_of_not_mem (by decide)
    have hbraces : ∀ l ∈ List.replicate n ['}'], '\n' ∉ l := by
      intro l hl
      rw [List.eq_of_mem_replicate hl]
      decide
    have hsplit : Text.lines (Text.ofLines result) =
        front ++ (lines ++ List.replicate n ['}']).flatMap Text.lines := by
      rw [Text.lines_ofLines hne, hresult, List.append_assoc, List.flatMap_append,
        flatMap_lines_eq hfront]
    have hcount := Comment.bracesOf_flatMap_lines htail (Comment.isOpenAfter false front)
    refine ⟨front ++ lines.flatMap Text.lines, n, ?_, ?_⟩
    · rw [hsplit, List.flatMap_append, flatMap_lines_eq hbraces, List.append_assoc]
    · rw [hsplit, openBlocks_append, hcount.1, Comment.isOpenAfter_append, hcount.2,
        ← openBlocks_append, ← Comment.isOpenAfter_append, ← List.append_assoc, ← hresult, hopen]

end ShaderProbe
