import Mathlib
import ShaderProbe.Proofs.Thinning

/-!
# Code and comments

Blanking comments works line by line, with a flag that says whether a block comment is open.  This
file follows that flag over lists of lines (`Comment.isOpenAfter`), separates blanking from trimming
(`Comment.blankFrom`), and says what blanking does to a text without comments.

By `Loop.find_eq` the loops of a source can be looked for in the lines with their comments blanked
and nothing trimmed, where every character of the code stands at its own place.
-/

namespace ShaderProbe

namespace Comment

/-! ### Lists of lines -/

/-- The lines with their comments blanked, the first of which starts inside a block comment if
`inBlock` says so. -/
def blankFrom (inBlock : Bool) : List Text → List Text
  | [] => []
  | l :: ls => (blankLine inBlock l).1 :: blankFrom (blankLine inBlock l).2 ls

/-- Whether a block comment is open after the lines. -/
def isOpenAfter (inBlock : Bool) : List Text → Bool
  | [] => inBlock
  | l :: ls => isOpenAfter (blankLine inBlock l).2 ls

/-- Stripping is blanking, then trimming. -/
lemma stripFrom_eq (inBlock : Bool) (ls : List Text) :
    stripFrom inBlock ls = (blankFrom inBlock ls).map Text.trimRight := by
  induction ls generalizing inBlock with
  | nil => rfl
  | cons l ls ih =>
    rw [blankFrom, List.map_cons, ← ih]
    rfl

/-- Blanking keeps the number of lines. -/
@[simp] lemma length_blankFrom (inBlock : Bool) (ls : List Text) :
    (blankFrom inBlock ls).length = ls.length := by
  induction ls generalizing inBlock with
  | nil => rfl
  | cons l ls ih => rw [blankFrom, List.length_cons, List.length_cons, ih]

/-- What the first lines leave open decides how the others are blanked. -/
lemma blankFrom_append (inBlock : Bool) (ls ls' : List Text) :
    blankFrom inBlock (ls ++ ls') =
      blankFrom inBlock ls ++ blankFrom (isOpenAfter inBlock ls) ls' := by
  induction ls generalizing inBlock with
  | nil => rfl
  | cons l ls ih =>
    rw [List.cons_append, blankFrom, ih, blankFrom, isOpenAfter, List.cons_append]

/-- The flag is handed on from the first lines to the others. -/
lemma isOpenAfter_append (inBlock : Bool) (ls ls' : List Text) :
    isOpenAfter inBlock (ls ++ ls') = isOpenAfter (isOpenAfter inBlock ls) ls' := by
  induction ls generalizing inBlock with
  | nil => rfl
  | cons l ls ih => rw [List.cons_append, isOpenAfter, ih, isOpenAfter]

/-- What the first lines leave open decides how the others are stripped. -/
lemma stripFrom_append (inBlock : Bool) (ls ls' : List Text) :
    stripFrom inBlock (ls ++ ls') =
      stripFrom inBlock ls ++ stripFrom (isOpenAfter inBlock ls) ls' := by
  rw [stripFrom_eq, stripFrom_eq, stripFrom_eq, blankFrom_append, List.map_append]

/-- The code from a line on, if no block comment is open in front of the line. -/
lemma strip_drop {ls : List Text} {n : Nat} (h : isOpenAfter false (ls.take n) = false) :
    (strip ls).drop n = stripFrom false (ls.drop n) := by
  by_cases hn : n ≤ ls.length
  · conv_lhs => rw [strip, ← List.take_append_drop n ls, stripFrom_append, h]
    rw [List.drop_left' (by rw [length_stripFrom, List.length_take, Nat.min_eq_left hn])]
  · rw [List.drop_eq_nil_of_le (by rw [length_strip]; omega), List.drop_eq_nil_of_le (by omega)]
    rfl

/-- A blanked line holds characters of the line and spaces. -/
lemma mem_blankLine {inBlock : Bool} {l : Text} {c : Char} (h : c ∈ (blankLine inBlock l).1) :
    c = ' ' ∨ c ∈ l := by
  fun_induction blankLine inBlock l with
  | case1 => exact .inr h
  | case2 inBlock d =>
    rw [List.mem_singleton] at h
    split at h
    · exact .inl h
    · exact .inr (List.mem_singleton.mpr h)
  | case3 d e t _ out isOpen heq ih =>
    rw [heq] at ih
    simp only [List.mem_cons] at h ⊢
    tauto
  | case4 d e t _ out isOpen heq ih =>
    rw [heq] at ih
    simp only [List.mem_cons] at h ih ⊢
    tauto
  | case5 => exact absurd h List.not_mem_nil
  | case6 inBlock d e t _ _ _ out isOpen heq ih =>
    rw [heq] at ih
    simp only [List.mem_cons] at h ⊢
    tauto
  | case7 inBlock d e t _ _ _ out isOpen heq ih =>
    rw [heq] at ih
    simp only [List.mem_cons] at h ih ⊢
    tauto

/-- Blanking brings no line feed into a line. -/
lemma not_mem_blankFrom {inBlock : Bool} {ls : List Text} (hls : ∀ l ∈ ls, '\n' ∉ l) :
    ∀ l ∈ blankFrom inBlock ls, '\n' ∉ l := by
  induction ls generalizing inBlock with
  | nil => exact fun l h => absurd h List.not_mem_nil
  | cons l ls ih =>
    intro x hx
    rw [blankFrom, List.mem_cons] at hx
    rcases hx with rfl | hx
    · intro hmem
      rcases mem_blankLine hmem with h | h
      · exact absurd h (by decide)
      · exact hls l List.mem_cons_self h
    · exact ih (fun y hy => hls y (List.mem_cons_of_mem _ hy)) x hx

/-! ### Seams -/

/-- Two neighbouring characters that open a comment. -/
def opens (c d : Char) : Bool := c == '/' && (d == '/' || d == '*')

/-- Two neighbouring characters that open or close a comment. -/
def isMark (c d : Char) : Bool := opens c d || (c == '*' && d == '/')

/-- A comment that runs to the end of its line opens in the text. -/
def hasLineComment (inBlock : Bool) : Text → Bool
  | c :: d :: t =>
    if inBlock then
      if c = '*' ∧ d = '/' then hasLineComment false t else hasLineComment true (d :: t)
    else if c = '/' ∧ d = '/' then true
    else if c = '/' ∧ d = '*' then hasLineComment true t
    else hasLineComment false (d :: t)
  | _ => false

/-- The characters next to a seam of two texts make no mark. -/
def Seam (s t : Text) : Prop := ∀ c ∈ s.getLast?, ∀ d ∈ t.head?, isMark c d = false

/-- A seam behind a longer front is the same seam. -/
lemma Seam.of_cons {c : Char} {s t : Text} (h : Seam (c :: s) t) : Seam s t := by
  cases s with
  | nil => exact fun c hc => absurd hc (by simp)
  | cons d s => rwa [Seam, List.getLast?_cons_cons] at h

/-- The end of a block comment. -/
lemma blankLine_close {c d : Char} (h : c = '*' ∧ d = '/') (t : Text) :
    blankLine true (c :: d :: t) =
      (' ' :: ' ' :: (blankLine false t).1, (blankLine false t).2) := by
  rw [blankLine, if_pos rfl, if_pos h]

/-- A character inside a block comment. -/
lemma blankLine_inside {c d : Char} (h : ¬(c = '*' ∧ d = '/')) (t : Text) :
    blankLine true (c :: d :: t) =
      (' ' :: (blankLine true (d :: t)).1, (blankLine true (d :: t)).2) := by
  rw [blankLine, if_pos rfl, if_neg h]

/-- The start of a block comment. -/
lemma blankLine_open {c d : Char} (h : c = '/' ∧ d = '*') (t : Text) :
    blankLine false (c :: d :: t) =
      (' ' :: ' ' :: (blankLine true t).1, (blankLine true t).2) := by
  have hline : ¬(c = '/' ∧ d = '/') := by
    rintro ⟨-, rfl⟩
    exact absurd h.2 (by decide)
  rw [blankLine, if_neg (by decide), if_neg hline, if_pos h]

/-- The start of a comment that runs to the end of the line. -/
lemma blankLine_line {c d : Char} (h : c = '/' ∧ d = '/') (t : Text) :
    blankLine false (c :: d :: t) = ([], false) := by
  rw [blankLine, if_neg (by decide), if_pos h]

/-- A character of the code. -/
lemma blankLine_code {c d : Char} (hline : ¬(c = '/' ∧ d = '/')) (hopen : ¬(c = '/' ∧ d = '*'))
    (t : Text) :
    blankLine false (c :: d :: t) =
      (c :: (blankLine false (d :: t)).1, (blankLine false (d :: t)).2) := by
  rw [blankLine, if_neg (by decide), if_neg hline, if_neg hopen]

/-- A character that makes no mark with the next one leaves the flag as it is. -/
lemma blankLine_cons_of_not_isMark {c d : Char} (h : isMark c d = false) (inBlock : Bool)
    (t : Text) :
    blankLine inBlock (c :: d :: t) =
      ((if inBlock then ' ' else c) :: (blankLine inBlock (d :: t)).1,
        (blankLine inBlock (d :: t)).2) := by
  simp only [isMark, opens, Bool.or_eq_false_iff, Bool.and_eq_false_iff, beq_eq_false_iff_ne] at h
  cases inBlock with
  | true => exact blankLine_inside (by tauto) t
  | false => exact blankLine_code (by tauto) (by tauto) t

/-- The two sides of a seam are blanked one after the other, unless a comment on the first side runs
to the end of the line. -/
theorem blankLine_append (inBlock : Bool) (s t : Text) (hseam : Seam s t) :
    blankLine inBlock (s ++ t) =
      if hasLineComment inBlock s then blankLine inBlock s
      else ((blankLine inBlock s).1 ++ (blankLine (blankLine inBlock s).2 t).1,
        (blankLine (blankLine inBlock s).2 t).2) := by
  fun_induction hasLineComment inBlock s with
  | case1 c d s hmark ih =>
    rw [List.cons_append, List.cons_append, blankLine_close hmark, blankLine_close hmark,
      ih hseam.of_cons.of_cons]
    split <;> rfl
  | case2 c d s hmark ih =>
    have ih := ih hseam.of_cons
    rw [List.cons_append] at ih
    rw [List.cons_append, List.cons_append, blankLine_inside hmark, blankLine_inside hmark, ih]
    split <;> rfl
  | case3 inBlock c d s hblock hline =>
    rw [Bool.not_eq_true] at hblock
    subst hblock
    rw [List.cons_append, List.cons_append, blankLine_line hline, blankLine_line hline]
    rfl
  | case4 inBlock c d s hblock hline hopen ih =>
    rw [Bool.not_eq_true] at hblock
    subst hblock
    rw [List.cons_append, List.cons_append, blankLine_open hopen, blankLine_open hopen,
      ih hseam.of_cons.of_cons]
    split <;> rfl
  | case5 inBlock c d s hblock hline hopen ih =>
    rw [Bool.not_eq_true] at hblock
    subst hblock
    have ih := ih hseam.of_cons
    rw [List.cons_append] at ih
    rw [List.cons_append, List.cons_append, blankLine_code hline hopen, blankLine_code hline hopen,
      ih]
    split <;> rfl
  | case6 s inBlock hshort =>
    -- the first side has at most one character, which makes no mark with the next one
    rw [if_neg Bool.false_ne_true]
    cases s with
    | nil => simp [blankLine]
    | cons c s =>
      cases s with
      | cons d s => exact absurd rfl (hshort c d s)
      | nil =>
        cases t with
        | nil => simp [blankLine]
        | cons d t =>
          rw [List.singleton_append, blankLine_cons_of_not_isMark (hseam c rfl d rfl)]
          rfl

/-! ### Text without marks -/

/-- No comment opens or closes in the text. -/
def isMarkFree : Text → Bool
  | c :: d :: t => !isMark c d && isMarkFree (d :: t)
  | _ => true

/-- What follows a character in a text without marks has none either. -/
lemma isMarkFree_of_cons {c : Char} {t : Text} (h : isMarkFree (c :: t) = true) :
    isMarkFree t = true := by
  cases t with
  | nil => rfl
  | cons d t =>
    rw [isMarkFree, Bool.and_eq_true] at h
    exact h.2

/-- The second part of a text without marks has none. -/
lemma isMarkFree_of_append {s t : Text} (h : isMarkFree (s ++ t) = true) : isMarkFree t = true := by
  induction s with
  | nil => exact h
  | cons c s ih => exact ih (isMarkFree_of_cons h)

/-- The first part of a text without marks has none. -/
lemma isMarkFree_of_append_left {s t : Text} (h : isMarkFree (s ++ t) = true) :
    isMarkFree s = true := by
  induction s with
  | nil => rfl
  | cons c s ih =>
    cases s with
    | nil => rfl
    | cons d s =>
      rw [List.cons_append, List.cons_append, isMarkFree, Bool.and_eq_true] at h
      rw [isMarkFree, Bool.and_eq_true]
      exact ⟨h.1, ih h.2⟩

/-- Texts without marks make one without marks if their seam is none. -/
lemma isMarkFree_append {s t : Text} (hs : isMarkFree s = true) (ht : isMarkFree t = true)
    (hseam : Seam s t) : isMarkFree (s ++ t) = true := by
  induction s with
  | nil => exact ht
  | cons c s ih =>
    have hrest := ih (isMarkFree_of_cons hs) hseam.of_cons
    cases s with
    | nil =>
      cases t with
      | nil => rfl
      | cons d t =>
        rw [List.singleton_append, isMarkFree, hseam c rfl d rfl]
        exact ht
    | cons d s =>
      rw [isMarkFree, Bool.and_eq_true] at hs
      rw [List.cons_append, List.cons_append, isMarkFree, Bool.and_eq_true]
      exact ⟨hs.1, hrest⟩

/-- A text without marks is blanked as a whole or not at all. -/
lemma blankLine_of_isMarkFree {t : Text} (h : isMarkFree t = true) (inBlock : Bool) :
    blankLine inBlock t = (t.map fun c => if inBlock then ' ' else c, inBlock) := by
  induction t with
  | nil => rfl
  | cons c t ih =>
    have hrest := ih (isMarkFree_of_cons h)
    cases t with
    | nil => rfl
    | cons d t =>
      rw [isMarkFree, Bool.and_eq_true, Bool.not_eq_true'] at h
      rw [blankLine_cons_of_not_isMark h.1, hrest]
      rfl

/-- No comment opens in a text without marks. -/
lemma hasLineComment_of_isMarkFree {t : Text} (h : isMarkFree t = true) (inBlock : Bool) :
    hasLineComment inBlock t = false := by
  induction t with
  | nil => rfl
  | cons c t ih =>
    cases t with
    | nil => rfl
    | cons d t =>
      rw [isMarkFree, Bool.and_eq_true, Bool.not_eq_true'] at h
      obtain ⟨hmark, hrest⟩ := h
      simp only [isMark, opens, Bool.or_eq_false_iff, Bool.and_eq_false_iff,
        beq_eq_false_iff_ne] at hmark
      unfold hasLineComment
      cases inBlock with
      | true => rw [if_pos rfl, if_neg (by tauto), ih hrest]
      | false => rw [if_neg (by simp), if_neg (by tauto), if_neg (by tauto), ih hrest]

/-- A text without slashes has no comment marks. -/
lemma isMarkFree_of_forall_ne {t : Text} (h : ∀ c ∈ t, c ≠ '/') : isMarkFree t = true := by
  induction t with
  | nil => rfl
  | cons c t ih =>
    cases t with
    | nil => rfl
    | cons d t =>
      have hc := h c (by simp)
      have hd := h d (by simp)
      rw [isMarkFree, ih fun e he => h e (List.mem_cons_of_mem c he)]
      simp [isMark, opens, hc, hd]

/-- A line that does not start with two characters is empty or one character. -/
lemma eq_nil_or_singleton {l : Text} (h : ∀ c d t, l = c :: d :: t → False) :
    l = [] ∨ ∃ c, l = [c] := by
  rcases l with _ | ⟨c, _ | ⟨d, t⟩⟩
  · exact .inl rfl
  · exact .inr ⟨c, rfl⟩
  · exact absurd rfl (h c d t)

/-- Blanking makes no line longer. -/
lemma length_blankLine_le (inBlock : Bool) (l : Text) :
    (blankLine inBlock l).1.length ≤ l.length := by
  fun_induction hasLineComment inBlock l with
  | case1 c d l hmark ih =>
    rw [blankLine_close hmark]
    simpa using ih
  | case2 c d l hmark ih =>
    rw [blankLine_inside hmark]
    simpa using ih
  | case3 inBlock c d l hblock hline =>
    rw [Bool.not_eq_true] at hblock
    rw [hblock, blankLine_line hline]
    exact Nat.zero_le _
  | case4 inBlock c d l hblock hline hopen ih =>
    rw [Bool.not_eq_true] at hblock
    rw [hblock, blankLine_open hopen]
    simpa using ih
  | case5 inBlock c d l hblock hline hopen ih =>
    rw [Bool.not_eq_true] at hblock
    rw [hblock, blankLine_code hline hopen]
    simpa [hblock] using ih
  | case6 l inBlock hshort =>
    rcases eq_nil_or_singleton hshort with rfl | ⟨c, rfl⟩
    · exact le_rfl
    · exact le_rfl

/-! ### Text without comments -/

/-- No comment opens in the text. -/
def isFree : Text → Bool
  | c :: d :: t => !opens c d && isFree (d :: t)
  | _ => true

/-- A character that opens no comment with the next one stays. -/
lemma blankLine_cons {c : Char} {t : Text} (h : ∀ d ∈ t.head?, opens c d = false) :
    blankLine false (c :: t) = (c :: (blankLine false t).1, (blankLine false t).2) := by
  cases t with
  | nil => rfl
  | cons d t =>
    have hopens : ¬(c = '/' ∧ d = '/') ∧ ¬(c = '/' ∧ d = '*') := by
      have := h d rfl
      simp only [opens, Bool.and_eq_false_iff, Bool.or_eq_false_iff, beq_eq_false_iff_ne] at this
      tauto
    rw [blankLine, if_neg (by decide), if_neg hopens.1, if_neg hopens.2]

/-- A source with its comments blanked. -/
def blankText (t : Text) : Text := Text.ofLines (blankFrom false (Text.lines t))

/-- A character that opens no comment with the next one stays in a source. -/
lemma blankText_cons {c : Char} {t : Text} (h : ∀ d ∈ t.head?, opens c d = false) :
    blankText (c :: t) = c :: blankText t := by
  obtain ⟨l, ls, hlines⟩ := List.exists_cons_of_ne_nil (Text.lines_ne_nil t)
  rw [blankText, blankText, Text.lines, hlines]
  split
  · rename_i hc
    rw [hc, blankFrom, blankLine, blankFrom, Text.ofLines_cons_cons, List.nil_append]
  · have hhead := Text.head?_lines hlines
    rw [Text.consFirst, blankFrom, blankLine_cons fun d hd => h d (hhead d hd), blankFrom]
    cases hrest : blankFrom (blankLine false l).2 ls with
    | nil => rw [Text.ofLines_singleton, Text.ofLines_singleton]
    | cons l' ls' => rw [Text.ofLines_cons_cons, Text.ofLines_cons_cons, List.cons_append]

/-- A front without comments stays as it is. -/
lemma blankText_append {a : Text} {c : Char} (hfree : isFree (a ++ [c]) = true) (hc : c ≠ '/')
    (t : Text) : blankText (a ++ c :: t) = a ++ c :: blankText t := by
  induction a with
  | nil => exact blankText_cons fun d _ => by simp [opens, hc]
  | cons x a ih =>
    obtain ⟨y, r, hr⟩ : ∃ y r, a ++ [c] = y :: r := List.exists_cons_of_ne_nil (by simp)
    rw [List.cons_append, hr, isFree, Bool.and_eq_true, Bool.not_eq_true'] at hfree
    rw [List.cons_append, blankText_cons, ih (by rw [hr]; exact hfree.2), List.cons_append]
    intro d hd
    -- the next character is the first one of what is known to be free of comments
    have hhead : (a ++ c :: t).head? = (a ++ [c]).head? := by cases a <;> rfl
    rw [hhead, hr, List.head?_cons, Option.mem_some_iff] at hd
    rw [← hd]
    exact hfree.1

end Comment

/-- The loops of a source are those of its lines with the comments blanked. -/
theorem Loop.find_eq (lines : List Text) (start : Nat) :
    Loop.find lines start = Loop.findInCode (Comment.blankFrom false lines) start := by
  rw [Loop.find, Comment.strip, Comment.stripFrom_eq, Loop.findInCode_map_trimRight]

end ShaderProbe
