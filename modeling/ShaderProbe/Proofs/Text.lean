import Mathlib
import ShaderProbe.Proofs.Phrase

/-!
# Facts about text

What later proofs need of the operations on text: which characters are blank, what trimming does to
a text with blanks in front, where a bracket that is counted from the left closes, and what it means
that a word does not occur in a text.
-/

namespace ShaderProbe

/-! ### Blanks -/

/-- The characters with a meaning of their own in a scan are not blank. -/
lemma isBlank_delimiter {c : Char} (h : c ∈ ['{', '}', '(', ')', ';', '/', '*', '.']) :
    isBlank c = false := by
  simp only [List.mem_cons, List.not_mem_nil, or_false] at h
  rcases h with rfl | rfl | rfl | rfl | rfl | rfl | rfl | rfl <;> decide

/-- The characters with a meaning of their own in a scan are no word characters. -/
lemma isWordChar_delimiter {c : Char} (h : c ∈ ['{', '}', '(', ')', ';', '/', '*', '.']) :
    isWordChar c = false := by
  simp only [List.mem_cons, List.not_mem_nil, or_false] at h
  rcases h with rfl | rfl | rfl | rfl | rfl | rfl | rfl | rfl <;> decide

/-- A blank is no word character. -/
lemma isWordChar_eq_false_of_isBlank {c : Char} (h : isBlank c = true) : isWordChar c = false := by
  by_contra hc
  rw [Bool.not_eq_false] at hc
  rw [isBlank_eq_false_of_isWordChar hc] at h
  exact Bool.false_ne_true h

/-- The keywords of statements contain no blanks. -/
lemma isBlank_keyword {word : Text}
    (h : word ∈ (["else", "do", "if", "for", "while"] : List Text)) :
    ∀ c ∈ word, isBlank c = false := by
  have hletters : ∀ word ∈ (["else", "do", "if", "for", "while"] : List Text),
      word.all Char.isAlpha = true := by decide
  intro c hc
  have hc : c.isAlpha = true := List.all_eq_true.mp (hletters word h) c hc
  exact isBlank_eq_false_of_isWordChar (isWordChar_of_isIdentStart (by rw [isIdentStart, hc]; rfl))

/-- A blank differs from every character that is not blank. -/
lemma ne_of_isBlank {c d : Char} (hc : isBlank c = true) (hd : isBlank d = false) : c ≠ d := by
  rintro rfl
  rw [hc] at hd
  exact Bool.false_ne_true hd.symm

namespace Text

/-- A text is blank exactly if all its characters are. -/
lemma isBlankOnly_iff {t : Text} : isBlankOnly t = true ↔ ∀ c ∈ t, isBlank c = true := by
  simp [isBlankOnly]

/-- The last character of the front of a text. -/
lemma startsWord_take_succ {text : Text} {m : Nat} {c : Char} (hc : text[m]? = some c) :
    startsWord (text.take (m + 1)).reverse = isWordChar c := by
  rw [List.take_add_one, hc, List.reverse_append]
  rfl

/-- No word ends behind a blank. -/
lemma startsWord_take_of_blank {text : Text} {o : Nat} (ho : o ≤ text.length)
    (h : ∀ i, i + 1 = o → ∀ c ∈ text[i]?, isBlank c = true) :
    startsWord (text.take o).reverse = false := by
  cases o with
  | zero => rfl
  | succ i =>
    have hget := List.getElem?_eq_getElem ho
    rw [startsWord_take_succ hget]
    exact isWordChar_eq_false_of_isBlank (h i rfl _ hget)

/-- Blanks in front of a text are trimmed away. -/
lemma trimLeft_append {g : Text} (hg : isBlankOnly g = true) (t : Text) :
    trimLeft (g ++ t) = trimLeft t := by
  rw [isBlankOnly_iff] at hg
  exact List.dropWhile_append_of_pos hg

/-- Of a blank text nothing is left. -/
lemma trimLeft_eq_nil {t : Text} (ht : isBlankOnly t = true) : trimLeft t = [] := by
  rw [← List.append_nil t, trimLeft_append ht]
  rfl

/-- A text that starts with a character that is not blank is not trimmed on the left. -/
lemma trimLeft_cons {c : Char} (hc : isBlank c = false) (t : Text) :
    trimLeft (c :: t) = c :: t := by
  rw [trimLeft, List.dropWhile_cons_of_neg (by simp [hc])]

/-- The indent of a text is all of the blanks that stand in front. -/
lemma indent_append {g : Text} (hg : isBlankOnly g = true) {c : Char} (hc : isBlank c = false)
    (t : Text) : indent (g ++ c :: t) = g := by
  rw [isBlankOnly_iff] at hg
  rw [indent, List.takeWhile_append_of_pos hg, List.takeWhile_cons_of_neg (by simp [hc]),
    List.append_nil]

/-- The indent of a text is blank. -/
lemma isBlankOnly_indent (t : Text) : isBlankOnly (indent t) = true := by
  rw [isBlankOnly_iff]
  intro c hc
  exact List.mem_takeWhile_imp hc

/-- The reverse of a blank text is blank. -/
lemma isBlankOnly_reverse {g : Text} (hg : isBlankOnly g = true) :
    isBlankOnly g.reverse = true := by
  rw [isBlankOnly_iff] at hg ⊢
  intro c hc
  exact hg c (List.mem_reverse.mp hc)

/-- A text is what trimming on the right leaves of it, and blanks. -/
lemma exists_trimRight_append (t : Text) : ∃ g, isBlankOnly g = true ∧ trimRight t ++ g = t := by
  refine ⟨(indent t.reverse).reverse, isBlankOnly_reverse (isBlankOnly_indent _), ?_⟩
  rw [trimRight, ← List.reverse_append]
  exact List.reverse_eq_iff.mpr (indent_append_trimLeft t.reverse)

/-- A text that is not blank starts, after its blanks, with a character that is not blank. -/
lemma exists_trimLeft_eq_cons {t : Text} (h : isBlankOnly t = false) :
    ∃ c r, trimLeft t = c :: r ∧ isBlank c = false ∧ c ∈ t := by
  have hne : trimLeft t ≠ [] := by
    intro hnil
    rw [trimLeft, List.dropWhile_eq_nil_iff] at hnil
    rw [Bool.eq_false_iff, ne_eq, isBlankOnly_iff] at h
    exact h hnil
  obtain ⟨c, r, hcr⟩ := List.exists_cons_of_ne_nil hne
  refine ⟨c, r, hcr, ?_, ?_⟩
  · have hhead := List.head?_dropWhile_not isBlank t
    rw [← trimLeft, hcr] at hhead
    exact hhead
  · have hmem : c ∈ trimLeft t := by rw [hcr]; exact List.mem_cons_self
    exact (List.dropWhile_suffix isBlank).subset hmem

/-! ### Lines -/

@[simp] lemma ofLines_singleton (l : Text) : ofLines [l] = l := by
  simp [ofLines, List.intercalate]

/-- Two lines are joined by a line feed. -/
lemma ofLines_cons_cons (l l' : Text) (ls : List Text) :
    ofLines (l :: l' :: ls) = l ++ '\n' :: ofLines (l' :: ls) := by
  simp [ofLines, List.intercalate]

/-- The first line of a source starts as the source does. -/
lemma head?_lines {t l : Text} {ls : List Text} (h : lines t = l :: ls) :
    ∀ d ∈ l.head?, d ∈ t.head? := by
  cases t with
  | nil =>
    obtain ⟨rfl, -⟩ := List.cons_eq_cons.mp h
    exact fun d hd => hd
  | cons c t =>
    rw [lines] at h
    split at h
    · obtain ⟨rfl, -⟩ := List.cons_eq_cons.mp h
      exact fun d hd => absurd hd (by simp)
    · obtain ⟨l', ls', hlines⟩ := List.exists_cons_of_ne_nil (lines_ne_nil t)
      rw [hlines, consFirst] at h
      obtain ⟨rfl, -⟩ := List.cons_eq_cons.mp h
      exact fun d hd => hd

/-- No line of a source contains a line feed. -/
lemma not_mem_lines {t l : Text} (h : l ∈ lines t) : '\n' ∉ l := by
  induction t generalizing l with
  | nil =>
    rw [lines, List.mem_singleton] at h
    rw [h]
    exact List.not_mem_nil
  | cons c t ih =>
    obtain ⟨l', ls', hlines⟩ := List.exists_cons_of_ne_nil (lines_ne_nil t)
    rw [lines, hlines] at h
    split at h
    · rw [List.mem_cons, ← hlines] at h
      rcases h with rfl | h
      · exact List.not_mem_nil
      · exact ih h
    · rename_i hc
      rw [consFirst, List.mem_cons] at h
      rcases h with rfl | h
      · rw [List.mem_cons, not_or]
        exact ⟨fun hline => hc hline.symm, ih (by rw [hlines]; exact List.mem_cons_self)⟩
      · exact ih (by rw [hlines]; exact List.mem_cons_of_mem _ h)

/-- A text without line feeds is one line. -/
lemma lines_eq_singleton {t : Text} (h : '\n' ∉ t) : lines t = [t] := by
  induction t with
  | nil => rfl
  | cons c t ih =>
    rw [List.mem_cons, not_or] at h
    rw [lines, if_neg (fun hc => h.1 hc.symm), ih h.2, consFirst]

/-- The lines on the two sides of a line feed. -/
lemma lines_append (s t : Text) : lines (s ++ '\n' :: t) = lines s ++ lines t := by
  induction s with
  | nil => rfl
  | cons c s ih =>
    obtain ⟨l, ls, hlines⟩ := List.exists_cons_of_ne_nil (lines_ne_nil s)
    rw [List.cons_append, lines, ih, lines, hlines]
    split
    · rfl
    · rfl

/-- Lines that are joined and split again. -/
lemma lines_ofLines {ls : List Text} (h : ls ≠ []) : lines (ofLines ls) = ls.flatMap lines := by
  induction ls with
  | nil => exact absurd rfl h
  | cons l ls ih =>
    cases ls with
    | nil => rw [ofLines_singleton, List.flatMap_singleton]
    | cons l' ls =>
      rw [ofLines_cons_cons, lines_append, ih (by simp)]
      rfl

/-! ### Brackets -/

/-- A text is balanced exactly if every front of it opens at least what it closes, and the whole
text closes what it opens. -/
lemma isBalanced_iff {t : Text} :
    isBalanced t = true ↔
      t.count '(' = t.count ')' ∧ ∀ front, front <+: t → front.count ')' ≤ front.count '(' := by
  simp [isBalanced, List.mem_inits]

/-- A text is free of listed characters exactly if none of them occurs in it. -/
lemma isFreeOf_iff {listed t : Text} : isFreeOf listed t = true ↔ ∀ c ∈ t, c ∉ listed := by
  simp [isFreeOf]

/-- A bracket closes at the first character, or it is looked for behind it at some depth. -/
lemma closingFrom_cons_cases (opening closing : Char) (d : Int) (c : Char) :
    (c = closing ∧ ∀ t, closingFrom opening closing d (c :: t) = some 0) ∨
      ∃ e, ∀ t, closingFrom opening closing d (c :: t) =
        (closingFrom opening closing e t).map (· + 1) := by
  by_cases hopen : c = opening
  · exact .inr ⟨d + 1, fun t => by rw [closingFrom, if_pos hopen]⟩
  by_cases hclose : c = closing
  · by_cases hd : d = 1
    · exact .inl ⟨hclose, fun t => by rw [closingFrom, if_neg hopen, if_pos hclose, if_pos hd]⟩
    · exact .inr ⟨d - 1, fun t => by
        rw [closingFrom, if_neg hopen, if_pos hclose, if_neg hd]⟩
  · exact .inr ⟨d, fun t => by rw [closingFrom, if_neg hopen, if_neg hclose]⟩

/-- A bracket that closes in a text closes at the same place in a longer one. -/
lemma closingFrom_append_of_some {opening closing : Char} {d : Int} {t : Text} {n : Nat}
    (h : closingFrom opening closing d t = some n) (u : Text) :
    closingFrom opening closing d (t ++ u) = some n := by
  induction t generalizing d n with
  | nil => exact absurd h (by simp [closingFrom])
  | cons c t ih =>
    rw [List.cons_append]
    rcases closingFrom_cons_cases opening closing d c with ⟨-, hhere⟩ | ⟨e, hstep⟩
    · rw [hhere] at h ⊢
      exact h
    · rw [hstep] at h ⊢
      obtain ⟨m, hm, rfl⟩ := Option.map_eq_some_iff.mp h
      rw [ih hm]
      rfl

/-- The text in front of the bracket that closes is all that counts. -/
lemma exists_of_closingFrom {opening closing : Char} {d : Int} {t : Text} {n : Nat}
    (h : closingFrom opening closing d t = some n) :
    ∃ a u, t = a ++ closing :: u ∧ a.length = n ∧
      closingFrom opening closing d (a ++ [closing]) = some a.length := by
  induction t generalizing d n with
  | nil => exact absurd h (by simp [closingFrom])
  | cons c t ih =>
    rcases closingFrom_cons_cases opening closing d c with ⟨rfl, hhere⟩ | ⟨e, hstep⟩
    · rw [hhere] at h
      exact ⟨[], t, rfl, Option.some.inj h, hhere []⟩
    · rw [hstep] at h
      obtain ⟨m, hm, rfl⟩ := Option.map_eq_some_iff.mp h
      obtain ⟨a, u, rfl, rfl, ha⟩ := ih hm
      refine ⟨c :: a, u, rfl, rfl, ?_⟩
      rw [List.cons_append, hstep, ha]
      rfl

/-- A bracket that is counted from the left closes at the first place where the depth is gone. -/
lemma closingFrom_append {opening closing : Char} (hne : opening ≠ closing) (u r : Text) :
    ∀ d : Int, (∀ front, front <+: u → 0 < d + front.count opening - front.count closing) →
      d + u.count opening - u.count closing = 1 →
      closingFrom opening closing d (u ++ closing :: r) = some u.length := by
  induction u with
  | nil =>
    intro d _ hd
    have hd1 : d = 1 := by simpa using hd
    simp [closingFrom, hne.symm, hd1]
  | cons c u ih =>
    intro d hpos hd
    rw [List.cons_append, closingFrom]
    by_cases ho : c = opening
    · subst ho
      rw [if_pos rfl, ih (d + 1)]
      · simp
      · intro front hfront
        have := hpos (c :: front) (List.cons_prefix_cons.mpr ⟨rfl, hfront⟩)
        simp only [List.count_cons_self, List.count_cons_of_ne hne] at this
        push_cast at this
        omega
      · simp only [List.count_cons_self, List.count_cons_of_ne hne] at hd
        push_cast at hd
        omega
    · rw [if_neg ho]
      by_cases hc : c = closing
      · subst hc
        have h1 := hpos [c] (List.cons_prefix_cons.mpr ⟨rfl, List.nil_prefix⟩)
        rw [List.count_cons_of_ne hne.symm, List.count_cons_self] at h1
        have hd1 : d ≠ 1 := by
          intro hd1
          simp [hd1] at h1
        rw [if_pos rfl, if_neg hd1, ih (d - 1)]
        · simp
        · intro front hfront
          have := hpos (c :: front) (List.cons_prefix_cons.mpr ⟨rfl, hfront⟩)
          simp only [List.count_cons_self, List.count_cons_of_ne hne.symm] at this
          push_cast at this
          omega
        · simp only [List.count_cons_self, List.count_cons_of_ne hne.symm] at hd
          push_cast at hd
          omega
      · rw [if_neg hc, ih d]
        · simp
        · intro front hfront
          have := hpos (c :: front) (List.cons_prefix_cons.mpr ⟨rfl, hfront⟩)
          rwa [List.count_cons_of_ne ho, List.count_cons_of_ne hc] at this
        · rwa [List.count_cons_of_ne ho, List.count_cons_of_ne hc] at hd

/-! ### Words -/

/-- A word that stands between characters that continue no word is found, whatever comes before
it. -/
lemma splitAtWordFrom_isSome {w : Text} (hw : w ≠ []) {r : Text} (hr : startsWord r = false) :
    ∀ (a : Text) (inWord : Bool), (a = [] → inWord = false) → startsWord a.reverse = false →
      (splitAtWordFrom w inWord (a ++ (w ++ r))).isSome = true := by
  intro a
  induction a with
  | nil =>
    intro inWord hin _
    obtain ⟨c, w', rfl⟩ := List.exists_cons_of_ne_nil hw
    have hread : readWord? (c :: w') (c :: (w' ++ r)) = some r := by
      rw [readWord?, readLiteral?_eq_some_iff.mpr (by rfl : c :: (w' ++ r) = (c :: w') ++ r)]
      simp [hr]
    rw [hin rfl, List.nil_append, List.cons_append, splitAtWordFrom]
    simp [hread]
  | cons c a ih =>
    intro inWord _ hlast
    rw [List.cons_append, splitAtWordFrom]
    split
    · rfl
    · rw [Option.isSome_map]
      apply ih
      · rintro rfl
        simpa [startsWord] using hlast
      · rw [List.reverse_cons] at hlast
        cases hrev : a.reverse with
        | nil => rfl
        | cons d b =>
          rw [hrev] at hlast
          exact hlast

/-- A word that does not occur in a text is no word of any split of it. -/
lemma not_split_of_hasWord_eq_false {w t a r : Text} (hw : w ≠ []) (h : hasWord w t = false)
    (ht : t = a ++ (w ++ r)) (ha : startsWord a.reverse = false) : startsWord r = true := by
  by_contra hr
  rw [Bool.not_eq_true] at hr
  have hfound := splitAtWordFrom_isSome hw hr a false (fun _ => rfl) ha
  rw [hasWord, splitAtWord, ht, hfound] at h
  exact Bool.false_ne_true h.symm

end Text

/-- The parenthesis in front of a balanced text closes right after it. -/
lemma Group.closingParen? (g : Group) (r : Text) :
    Text.closingParen? ('(' :: (g.text ++ ')' :: r)) = some (g.text.length + 1) := by
  obtain ⟨heq, hfront⟩ := Text.isBalanced_iff.mp g.isBalanced
  rw [Text.closingParen?, Text.closingFrom, if_pos rfl,
    Text.closingFrom_append (by decide) g.text r]
  · simp
  · intro front h
    have := hfront front h
    omega
  · omega

/-- Read backwards, the parenthesis after a balanced text is opened right before it. -/
lemma Group.closingFrom_reverse (g : Group) (r : Text) :
    Text.closingFrom ')' '(' 0 (')' :: (g.text.reverse ++ '(' :: r)) =
      some (g.text.length + 1) := by
  obtain ⟨heq, hfront⟩ := Text.isBalanced_iff.mp g.isBalanced
  rw [Text.closingFrom, if_pos rfl, Text.closingFrom_append (by decide) g.text.reverse r]
  · simp
  · intro back hback
    -- what is read backwards is the reverse of a tail, and the front before it opens enough
    obtain ⟨rest, hrest⟩ := hback
    have hsplit : g.text = rest.reverse ++ back.reverse := by
      rw [← List.reverse_append, hrest, List.reverse_reverse]
    have h := hfront rest.reverse ⟨back.reverse, hsplit.symm⟩
    rw [hsplit, List.count_append, List.count_append] at heq
    simp only [List.count_reverse] at h heq
    omega
  · simp only [List.count_reverse]
    omega

end ShaderProbe
