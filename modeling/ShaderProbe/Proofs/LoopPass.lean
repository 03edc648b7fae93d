import Mathlib
import ShaderProbe.Proofs.Text

/-!
# The pass over a function, piece by piece

The pass that finds loops reads one character at a time and looks ahead at the places where a loop
may start.  This file says what it does on the pieces that a function is made of: blanks, words,
groups in parentheses, expressions and loop headers.  Everything but a loop header, a brace and a
`;` outside parentheses leaves no trace but the count of open parentheses (`LoopScan.run_quiet`).
-/

namespace ShaderProbe

namespace Text

/-- The number of opening parentheses minus the number of closing ones. -/
def parenDelta (t : Text) : Int := (t.count '(' : Int) - (t.count ')' : Int)

@[simp] lemma parenDelta_nil : parenDelta [] = 0 := rfl

/-- Parentheses add up over the pieces of a text. -/
@[simp] lemma parenDelta_append (s t : Text) :
    parenDelta (s ++ t) = parenDelta s + parenDelta t := by
  simp only [parenDelta, List.count_append]
  omega

/-- The first character of a text contributes to its parentheses on its own. -/
lemma parenDelta_cons (c : Char) (t : Text) :
    parenDelta (c :: t) = parenDelta [c] + parenDelta t :=
  parenDelta_append [c] t

end Text

namespace LoopSpan

/-! ### Loop headers -/

/-- A loop header starts with one of the keywords, then blanks, then a parenthesis. -/
lemma headerParen?_eq_some_iff {t : Text} {n : Nat} :
    headerParen? t = some n ↔
      ∃ keyword ∈ keywords, ∃ gap rest, Text.isBlankOnly gap = true ∧
        t = keyword ++ (gap ++ '(' :: rest) ∧ n = keyword.length + gap.length := by
  have read : ∀ (keyword : Text) (m : Nat), (do
      let rest ← Text.readLiteral? keyword t
      if (Text.trimLeft rest).head? = some '(' then
        some (keyword.length + (Text.indent rest).length)
      else none) = some m ↔ ∃ gap rest, Text.isBlankOnly gap = true ∧
        t = keyword ++ (gap ++ '(' :: rest) ∧ m = keyword.length + gap.length := by
    intro keyword m
    constructor
    · intro h
      rw [Option.bind_eq_bind, Option.bind_eq_some_iff] at h
      obtain ⟨rest, hrest, h⟩ := h
      rw [Text.readLiteral?_eq_some_iff] at hrest
      split at h
      · rename_i hparen
        obtain ⟨tail, htail⟩ := List.head?_eq_some_iff.mp hparen
        refine ⟨Text.indent rest, tail, Text.isBlankOnly_indent rest, ?_, ?_⟩
        · rw [hrest, ← htail, Text.indent_append_trimLeft]
        · exact (Option.some.inj h).symm
      · exact absurd h (by simp)
    · rintro ⟨gap, rest, hgap, ht, rfl⟩
      have hparen : isBlank '(' = false := isBlank_delimiter (by simp)
      rw [Text.readLiteral?_eq_some_iff.mpr ht, Option.bind_eq_bind, Option.bind_some,
        Text.trimLeft_append hgap, Text.trimLeft_cons hparen, Text.indent_append hgap hparen]
      simp
  rw [headerParen?, List.findSome?_eq_some_iff]
  constructor
  · rintro ⟨front, keyword, back, hsplit, h, -⟩
    obtain ⟨gap, rest, hgap, ht, hn⟩ := (read keyword n).mp h
    exact ⟨keyword, by rw [hsplit]; simp, gap, rest, hgap, ht, hn⟩
  · rintro ⟨keyword, hmem, gap, rest, hgap, ht, hn⟩
    have hread := (read keyword n).mpr ⟨gap, rest, hgap, ht, hn⟩
    have hcases : keyword = "for".toList ∨ keyword = "while".toList := by
      simpa [keywords] using hmem
    rcases hcases with rfl | rfl
    · exact ⟨[], _, ["while".toList], rfl, hread, by simp⟩
    · refine ⟨["for".toList], _, [], rfl, hread, ?_⟩
      -- a text that starts with one keyword does not start with the other
      intro other hother
      rw [List.mem_singleton] at hother
      subst hother ht
      rfl

/-- The first character of a loop header is the first of a keyword. -/
lemma headerParen?_eq_none {c : Char} {t : Text} (hf : c ≠ 'f') (hw : c ≠ 'w') :
    headerParen? (c :: t) = none := by
  rw [Option.eq_none_iff_forall_ne_some]
  intro n hn
  obtain ⟨keyword, hmem, gap, rest, -, ht, -⟩ := headerParen?_eq_some_iff.mp hn
  have hcases : keyword = "for".toList ∨ keyword = "while".toList := by
    simpa [keywords] using hmem
  rcases hcases with rfl | rfl
  · simp at ht
    exact hf ht.1
  · simp at ht
    exact hw ht.1

/-! ### Unbraced bodies -/

/-- A keyword can follow the text, given in reverse: neither a word character nor a point stands at
its end. -/
def admitsKeyword : Text → Bool
  | [] => true
  | c :: _ => !isWordChar c && c != '.'

/-- A text that ends with a delimiter other than a point admits a keyword. -/
lemma admitsKeyword_delimiter {c : Char} (h : c ∈ ['{', '}', '(', ')', ';']) (r : Text) :
    admitsKeyword (c :: r) = true := by
  have hc : (!isWordChar c && c != '.') = true := by
    simp only [List.mem_cons, List.not_mem_nil, or_false] at h
    rcases h with rfl | rfl | rfl | rfl | rfl <;> decide
  exact hc

/-- A text that ends with a blank admits a keyword. -/
lemma admitsKeyword_blank {c : Char} (h : isBlank c = true) (r : Text) :
    admitsKeyword (c :: r) = true := by
  have hdot : c ≠ '.' := ne_of_isBlank h (isBlank_delimiter (by simp))
  simp [admitsKeyword, isWordChar_eq_false_of_isBlank h, hdot]

/-- A text that admits a keyword ends with no word character. -/
lemma startsWord_eq_false_of_admitsKeyword {r : Text} (h : admitsKeyword r = true) :
    Text.startsWord r = false := by
  cases r with
  | nil => rfl
  | cons c r =>
    simp only [admitsKeyword, Bool.and_eq_true, Bool.not_eq_true'] at h
    exact h.1

/-- A word at the end of a text is found if it can stand there. -/
lemma endsWithWord_append {words : List Text} {word : Text} (hmem : word ∈ words) {r : Text}
    (hr : admitsKeyword r = true) : endsWithWord words (word.reverse ++ r) = true := by
  rw [endsWithWord, List.any_eq_true]
  refine ⟨word, hmem, ?_⟩
  rw [Text.readLiteral?_eq_some_iff.mpr rfl]
  cases r with
  | nil => rfl
  | cons c r => exact hr

/-- Blanks in front of a statement do not matter. -/
lemma isBareBody_gap {g : Text} (hg : Text.isBlankOnly g = true) (r : Text) :
    isBareBody (g ++ r) = isBareBody r := by
  rw [isBareBody, isBareBody, Text.trimLeft_append hg]

/-- A statement after a delimiter other than a parenthesis stands on its own. -/
lemma isBareBody_delimiter {c : Char} (h : c ∈ ['{', '}', ';']) (r : Text) :
    isBareBody (c :: r) = false := by
  simp only [List.mem_cons, List.not_mem_nil, or_false] at h
  have hblank : isBlank c = false := by rcases h with rfl | rfl | rfl <;> decide
  have hparen : c ≠ ')' := by rcases h with rfl | rfl | rfl <;> decide
  have he : 'e' ≠ c := by rcases h with rfl | rfl | rfl <;> decide
  have ho : 'o' ≠ c := by rcases h with rfl | rfl | rfl <;> decide
  rw [isBareBody, Text.trimLeft_cons hblank]
  simp [hparen, endsWithWord, Text.readLiteral?, he, ho]

/-- A statement after `else` or `do` is the body of it. -/
lemma isBareBody_word (word : Text) (hmem : word ∈ (["else", "do"] : List Text)) {r : Text}
    (hr : admitsKeyword r = true) : isBareBody (word.reverse ++ r) = true := by
  have hend := endsWithWord_append hmem hr
  simp only [List.mem_cons, List.not_mem_nil, or_false] at hmem
  rw [isBareBody]
  rcases hmem with rfl | rfl
  · rw [show ("else".toList).reverse ++ r = 'e' :: ("els".toList.reverse ++ r) by simp] at hend ⊢
    rw [Text.trimLeft_cons (by decide), if_neg (by simp), hend]
  · rw [show ("do".toList).reverse ++ r = 'o' :: ("d".toList.reverse ++ r) by simp] at hend ⊢
    rw [Text.trimLeft_cons (by decide), if_neg (by simp), hend]

/-- A statement after `if (...)`, `for (...)` or `while (...)` is the body of it. -/
lemma isBareBody_header (word : Text) (hmem : word ∈ (["if", "for", "while"] : List Text))
    (paren : Gap) (group : Group) {r : Text} (hr : admitsKeyword r = true) :
    isBareBody ((Phrase.header word paren group).reverse ++ r) = true := by
  have hrev : (Phrase.header word paren group).reverse ++ r =
      ')' :: (group.text.reverse ++ '(' :: (paren.text.reverse ++ (word.reverse ++ r))) := by
    simp [Phrase.header]
  have hlast : ∃ c w, word.reverse = c :: w ∧ isBlank c = false := by
    simp only [List.mem_cons, List.not_mem_nil, or_false] at hmem
    rcases hmem with rfl | rfl | rfl
    · exact ⟨'f', _, rfl, by decide⟩
    · exact ⟨'r', _, rfl, by decide⟩
    · exact ⟨'e', _, rfl, by decide⟩
  obtain ⟨c, w, hw, hc⟩ := hlast
  have hdrop : (')' :: (group.text.reverse ++
      '(' :: (paren.text.reverse ++ (word.reverse ++ r)))).drop (group.text.length + 1 + 1) =
        paren.text.reverse ++ (word.reverse ++ r) := by
    rw [show ∀ x : Text, ')' :: (group.text.reverse ++ '(' :: x) =
      (')' :: (group.text.reverse ++ ['('])) ++ x by simp, List.drop_left' (by simp)]
  rw [hrev, isBareBody, Text.trimLeft_cons (isBlank_delimiter (by simp)), List.head?_cons,
    if_pos rfl, group.closingFrom_reverse]
  simp only [hdrop]
  rw [Text.trimLeft_append (Text.isBlankOnly_reverse paren.isBlankOnly), hw, List.cons_append,
    Text.trimLeft_cons hc, ← List.cons_append, ← hw]
  exact endsWithWord_append hmem hr

end LoopSpan

namespace LoopScan

/-! ### Reading one character -/

/-- The characters of a header that has been read are passed over. -/
lemma run_skip (scan : LoopScan) (t : Text) :
    ∀ (before : Text) (offset k : Nat), k ≤ t.length →
      scan.run before offset k t =
        scan.run ((t.take k).reverse ++ before) (offset + k) 0 (t.drop k) := by
  induction t with
  | nil =>
    intro before offset k hk
    obtain rfl : k = 0 := by simpa using hk
    rfl
  | cons c t ih =>
    intro before offset k hk
    cases k with
    | zero => rfl
    | succ k =>
      rw [run, ih (c :: before) (offset + 1) k (by simpa using hk)]
      simp [Nat.add_assoc, Nat.add_comm 1 k]

/-- A character that is no brace, that ends no statement and that starts no loop leaves no trace but
the count of open parentheses. -/
lemma step_quiet {scan : LoopScan} {before : Text} {offset : Nat} {c : Char} {rest : Text}
    (hopen : c ≠ '{') (hclose : c ≠ '}') (hsemi : scan.parens = 0 → c ≠ ';')
    (hloop : scan.started = true → scan.parens = 0 → Text.startsWord before = false →
      LoopSpan.headerParen? (c :: rest) = none) :
    scan.step before offset c rest =
      .resume { scan with parens := scan.parens + Text.parenDelta [c] } 0 := by
  rw [step, if_neg hopen, if_neg hclose]
  by_cases hl : c = '('
  · subst hl
    rfl
  · rw [if_neg hl]
    by_cases hr : c = ')'
    · subst hr
      rfl
    · have hdelta : Text.parenDelta [c] = 0 := by
        rw [Text.parenDelta, List.count_singleton, List.count_singleton]
        simp [hl, hr]
      rw [if_neg hr, if_neg (fun h => hsemi h.2 h.1), hdelta, Int.add_zero]
      split
      · rename_i h
        obtain ⟨hstarted, hparens, hword⟩ := h
        rw [tryLoop, hloop hstarted hparens (by simpa using hword)]
      · rfl

/-- The pass goes on behind such a character. -/
lemma run_cons_quiet (scan : LoopScan) {before : Text} {c : Char} {t : Text} (hopen : c ≠ '{')
    (hclose : c ≠ '}') (hsemi : scan.parens = 0 → c ≠ ';')
    (hloop : scan.started = true → scan.parens = 0 → Text.startsWord before = false →
      LoopSpan.headerParen? (c :: t) = none) (offset : Nat) :
    scan.run before offset 0 (c :: t) =
      { scan with parens := scan.parens + Text.parenDelta [c] }.run (c :: before) (offset + 1) 0 t := by
  rw [run, step_quiet hopen hclose hsemi hloop]

/-- A text without braces, without a `;` outside parentheses and without a loop leaves no trace but
the count of open parentheses. -/
theorem run_quiet (t u : Text) :
    ∀ (scan : LoopScan) (before : Text) (offset : Nat),
      (∀ a c b, u = a ++ c :: b → c ≠ '{' ∧ c ≠ '}' ∧
        (scan.parens + Text.parenDelta a = 0 → c ≠ ';' ∧
          (scan.started = true → Text.startsWord (a.reverse ++ before) = false →
            LoopSpan.headerParen? (c :: (b ++ t)) = none))) →
      scan.run before offset 0 (u ++ t) =
        { scan with parens := scan.parens + Text.parenDelta u }.run (u.reverse ++ before)
          (offset + u.length) 0 t := by
  induction u with
  | nil =>
    intro scan before offset _
    simp
  | cons c u ih =>
    intro scan before offset h
    obtain ⟨hopen, hclose, hc⟩ := h [] c u rfl
    simp only [Text.parenDelta_nil, Int.add_zero, List.reverse_nil, List.nil_append] at hc
    rw [List.cons_append, run_cons_quiet scan hopen hclose (fun hp => (hc hp).1)
      (fun hs hp hw => (hc hp).2 hs hw), ih _ (c :: before) (offset + 1)]
    · simp only [Text.parenDelta_cons c u, List.reverse_cons, List.append_assoc,
        List.cons_append, List.nil_append, List.length_cons, Int.add_assoc]
      rw [Nat.add_assoc, Nat.add_comm 1]
    · intro a d b hu
      obtain ⟨hdo, hdc, hd⟩ := h (c :: a) d b (by rw [hu, List.cons_append])
      refine ⟨hdo, hdc, fun hp => ?_⟩
      rw [Text.parenDelta_cons, ← Int.add_assoc] at hd
      simpa using hd hp

/-! ### Reading the pieces of a function -/

/-- Blanks contain no parentheses. -/
lemma parenDelta_gap (g : Gap) : Text.parenDelta g.text = 0 := by
  have hg := Text.isBlankOnly_iff.mp g.isBlankOnly
  have hl : '(' ∉ g.text := fun h => ne_of_isBlank (hg _ h) (isBlank_delimiter (by simp)) rfl
  have hr : ')' ∉ g.text := fun h => ne_of_isBlank (hg _ h) (isBlank_delimiter (by simp)) rfl
  rw [Text.parenDelta, List.count_eq_zero.mpr hl, List.count_eq_zero.mpr hr]
  rfl

/-- Blanks are passed over. -/
lemma run_gap (scan : LoopScan) (g : Gap) (before t : Text) (offset : Nat) :
    scan.run before offset 0 (g.text ++ t) =
      scan.run (g.text.reverse ++ before) (offset + g.text.length) 0 t := by
  have hg := Text.isBlankOnly_iff.mp g.isBlankOnly
  rw [run_quiet t g.text scan before offset, parenDelta_gap, Int.add_zero]
  intro a c b hsplit
  have hc : isBlank c = true := hg c (by rw [hsplit]; simp)
  refine ⟨?_, ?_, fun _ => ⟨?_, fun _ _ => ?_⟩⟩
  · exact ne_of_isBlank hc (isBlank_delimiter (by simp))
  · exact ne_of_isBlank hc (isBlank_delimiter (by simp))
  · exact ne_of_isBlank hc (isBlank_delimiter (by simp))
  · exact LoopSpan.headerParen?_eq_none (ne_of_isBlank hc (by decide))
      (ne_of_isBlank hc (by decide))

/-- A word that starts like no loop keyword is passed over. -/
lemma run_word (scan : LoopScan) {c : Char} {w : Text} (hf : c ≠ 'f') (hw : c ≠ 'w')
    (hword : ∀ d ∈ c :: w, isWordChar d = true) (before t : Text) (offset : Nat) :
    scan.run before offset 0 (c :: w ++ t) =
      scan.run ((c :: w).reverse ++ before) (offset + (c :: w).length) 0 t := by
  have hplain : ∀ d ∈ c :: w, d ∉ ['{', '}', '(', ')', ';', '/', '*', '.'] := by
    intro d hd hmem
    have := hword d hd
    rw [isWordChar_delimiter hmem] at this
    exact Bool.false_ne_true this
  have hl : '(' ∉ c :: w := fun h => hplain _ h (by simp)
  have hr : ')' ∉ c :: w := fun h => hplain _ h (by simp)
  have hdelta : Text.parenDelta (c :: w) = 0 := by
    rw [Text.parenDelta, List.count_eq_zero.mpr hl, List.count_eq_zero.mpr hr]
    rfl
  rw [run_quiet t (c :: w) scan before offset, hdelta, Int.add_zero]
  intro a d b hsplit
  have hd : d ∈ c :: w := by rw [hsplit]; simp
  have hne : ∀ x ∈ ['{', '}', '(', ')', ';', '/', '*', '.'], d ≠ x := by
    rintro x hx rfl
    exact hplain d hd hx
  refine ⟨hne _ (by simp), hne _ (by simp), fun _ => ⟨hne _ (by simp), fun _ hstart => ?_⟩⟩
  cases a with
  | nil =>
    obtain ⟨rfl, -⟩ : c = d ∧ w = b := by simpa using hsplit
    exact LoopSpan.headerParen?_eq_none hf hw
  | cons x a =>
    -- inside the word, the character in front is one of the word's own
    exfalso
    obtain ⟨y, z, hyz⟩ := List.exists_cons_of_ne_nil
      (List.reverse_ne_nil_iff.mpr (List.cons_ne_nil x a))
    have hy : y ∈ c :: w := by
      have : y ∈ (x :: a).reverse := by rw [hyz]; exact List.mem_cons_self
      rw [hsplit]
      exact List.mem_append_left _ (List.mem_reverse.mp this)
    rw [hyz, List.cons_append, Text.startsWord, hword y hy] at hstart
    exact Bool.false_ne_true hstart.symm

/-- A group in parentheses is passed over. -/
lemma run_group (scan : LoopScan) (hparens : scan.parens = 0) (g : Group) (before t : Text)
    (offset : Nat) :
    scan.run before offset 0 ('(' :: (g.text ++ [')']) ++ t) =
      scan.run (('(' :: (g.text ++ [')'])).reverse ++ before)
        (offset + ('(' :: (g.text ++ [')'])).length) 0 t := by
  obtain ⟨heq, hfront⟩ := Text.isBalanced_iff.mp g.isBalanced
  have hbrace := Text.isFreeOf_iff.mp g.isFreeOfBraces
  have hdelta : Text.parenDelta ('(' :: (g.text ++ [')'])) = 0 := by
    rw [Text.parenDelta_cons, Text.parenDelta_append, Text.parenDelta, Text.parenDelta,
      Text.parenDelta, heq]
    simp
  rw [run_quiet t _ scan before offset, hdelta, Int.add_zero]
  intro a c b hsplit
  have hc : c ∈ '(' :: (g.text ++ [')']) := by rw [hsplit]; simp
  have hfree : c ∉ ['{', '}'] := by
    simp only [List.mem_cons, List.mem_append, List.not_mem_nil, or_false] at hc
    rcases hc with rfl | hc | rfl
    · decide
    · exact hbrace c hc
    · decide
  simp only [List.mem_cons, List.not_mem_nil, or_false, not_or] at hfree
  refine ⟨hfree.1, hfree.2, fun hp => ?_⟩
  cases a with
  | nil =>
    obtain ⟨rfl, -⟩ : '(' = c ∧ g.text ++ [')'] = b := by simpa using hsplit
    exact ⟨by decide, fun _ _ => LoopSpan.headerParen?_eq_none (by decide) (by decide)⟩
  | cons x a =>
    -- the first parenthesis stays open up to the last character
    exfalso
    obtain ⟨rfl, hrest⟩ : '(' = x ∧ g.text ++ [')'] = a ++ c :: b := by simpa using hsplit
    have ha : a <+: g.text := by
      have h1 : a <+: g.text ++ [')'] := ⟨c :: b, hrest.symm⟩
      rcases List.prefix_concat_iff.mp h1 with h | h
      · rw [h] at hrest
        simp at hrest
      · exact h
    have := hfront a ha
    rw [hparens, Text.parenDelta_cons, Text.parenDelta, Text.parenDelta] at hp
    simp at hp
    omega

/-- An expression is passed over up to its `;`. -/
lemma run_expression (scan : LoopScan) (e : Expression) (before t : Text) (offset : Nat) :
    scan.run before offset 0 (e.text ++ ';' :: t) =
      scan.run (e.text.reverse ++ before) (offset + e.text.length) 0 (';' :: t) := by
  obtain ⟨heq, -⟩ := Text.isBalanced_iff.mp e.isBalanced
  have hends := Text.isFreeOf_iff.mp e.isFreeOfEnds
  have hloops := List.all_eq_true.mp e.isFreeOfLoops
  have hdelta : Text.parenDelta e.text = 0 := by
    rw [Text.parenDelta, heq]
    omega
  rw [run_quiet (';' :: t) e.text scan before offset, hdelta, Int.add_zero]
  intro a c b hsplit
  have hc : c ∉ [';', '{', '}'] := hends c (by rw [hsplit]; simp)
  simp only [List.mem_cons, List.not_mem_nil, or_false, not_or] at hc
  refine ⟨hc.2.1, hc.2.2, fun _ => ⟨hc.1, fun _ hstart => ?_⟩⟩
  rw [Option.eq_none_iff_forall_ne_some]
  intro n hn
  obtain ⟨keyword, hmem, gap, rest, hgap, ht, -⟩ := LoopSpan.headerParen?_eq_some_iff.mp hn
  have hkeyword : keyword = "for".toList ∨ keyword = "while".toList := by
    simpa [LoopSpan.keywords] using hmem
  -- the header up to its parenthesis holds no `;`, so it lies inside the expression
  have hheader : ';' ∉ keyword ++ (gap ++ ['(']) := by
    have hblank : ';' ∉ gap := fun h =>
      ne_of_isBlank (Text.isBlankOnly_iff.mp hgap _ h) (isBlank_delimiter (by simp)) rfl
    rcases hkeyword with rfl | rfl <;> simp [hblank]
  have hinside : keyword ++ (gap ++ ['(']) <+: c :: b := by
    have h1 : keyword ++ (gap ++ ['(']) <+: c :: (b ++ ';' :: t) := ⟨rest, by rw [ht]; simp⟩
    have h2 : c :: b <+: c :: (b ++ ';' :: t) := ⟨';' :: t, by simp⟩
    rcases List.prefix_or_prefix_of_prefix h1 h2 with h | ⟨x, hx⟩
    · exact h
    · cases x with
      | nil => rw [← hx, List.append_nil]
      | cons y x =>
        exfalso
        obtain ⟨z, hz⟩ := h1
        rw [← hx, ← List.cons_append, List.append_assoc, List.append_cancel_left_eq] at hz
        obtain ⟨rfl, -⟩ : y = ';' ∧ _ := by simpa using hz
        exact hheader (by rw [← hx]; simp)
  obtain ⟨r, hr⟩ := hinside
  have hword : Text.hasWord keyword e.text = false := by simpa using hloops keyword hmem
  have hfound := Text.not_split_of_hasWord_eq_false (r := gap ++ '(' :: r) (a := a)
    (by rcases hkeyword with rfl | rfl <;> simp) hword (by rw [hsplit, ← hr]; simp) (by
      cases hrev : a.reverse with
      | nil => rfl
      | cons y z =>
        rw [hrev] at hstart
        exact hstart)
  cases gap with
  | nil =>
    rw [List.nil_append, Text.startsWord, isWordChar_delimiter (by simp)] at hfound
    exact Bool.false_ne_true hfound
  | cons y gap =>
    have hy : isBlank y = true := Text.isBlankOnly_iff.mp hgap y List.mem_cons_self
    rw [List.cons_append, Text.startsWord, isWordChar_eq_false_of_isBlank hy] at hfound
    exact Bool.false_ne_true hfound

/-- Where a loop header may start, the first character of one leads to it. -/
lemma step_eq_tryLoop {scan : LoopScan} (hstarted : scan.started = true) (hparens : scan.parens = 0)
    {before : Text} (hbefore : Text.startsWord before = false) {c : Char} {t : Text} {paren : Nat}
    (h : LoopSpan.headerParen? (c :: t) = some paren) (offset : Nat) :
    scan.step before offset c t = scan.tryLoop before offset (c :: t) := by
  have hc : c ∉ ['{', '}', '(', ')', ';'] := by
    intro hc
    simp only [List.mem_cons, List.not_mem_nil, or_false] at hc
    rw [LoopSpan.headerParen?_eq_none] at h
    · exact absurd h (by simp)
    · rcases hc with rfl | rfl | rfl | rfl | rfl <;> decide
    · rcases hc with rfl | rfl | rfl | rfl | rfl <;> decide
  simp only [List.mem_cons, List.not_mem_nil, or_false, not_or] at hc
  obtain ⟨hopen, hclose, hl, hr, hsemi⟩ := hc
  rw [step, if_neg hopen, if_neg hclose, if_neg hl, if_neg hr, if_neg (fun h => hsemi h.1),
    if_pos ⟨hstarted, hparens, by simp [hbefore]⟩]

/-- A header that has been read is passed over up to its last character. -/
lemma run_skip_append (scan : LoopScan) {c d : Char} {rest a t : Text}
    (h : c :: rest = a ++ d :: t) (before : Text) (offset : Nat) :
    scan.run (c :: before) (offset + 1) a.length rest =
      scan.run ((a ++ [d]).reverse ++ before) (offset + (a ++ [d]).length) 0 t := by
  have hlength : a.length ≤ rest.length := by
    have := congrArg List.length h
    simp only [List.length_cons, List.length_append] at this
    omega
  have hsplit : c :: rest = (a ++ [d]) ++ t := by rw [h, List.append_assoc, List.singleton_append]
  have htake : c :: rest.take a.length = a ++ [d] := by
    rw [← List.take_succ_cons, hsplit, List.take_left' (by simp)]
  have hdrop : rest.drop a.length = t := by
    rw [← List.drop_succ_cons (a := c), hsplit, List.drop_left' (by simp)]
  rw [run_skip scan rest _ _ _ hlength, hdrop, ← htake]
  simp [Nat.add_assoc, Nat.add_comm 1, hlength]

/-- At a loop header that never closes the pass ends. -/
lemma run_unclosed {scan : LoopScan} (hstarted : scan.started = true) (hparens : scan.parens = 0)
    {before : Text} (hbefore : Text.startsWord before = false) {c : Char} {t : Text} {paren : Nat}
    (hparen : LoopSpan.headerParen? (c :: t) = some paren)
    (hclose : Text.closingParen? ((c :: t).drop paren) = none) (offset : Nat) :
    scan.run before offset 0 (c :: t) = scan := by
  rw [run, step_eq_tryLoop hstarted hparens hbefore hparen, tryLoop, hparen]
  simp only [hclose]

/-- A loop header that closes is read at once.  A `while (...)` that ends a `do` statement is passed
over. -/
lemma run_closed {scan : LoopScan} (hstarted : scan.started = true) (hparens : scan.parens = 0)
    {before : Text} (hbefore : Text.startsWord before = false) {a t : Text} {paren close : Nat}
    (hparen : LoopSpan.headerParen? (a ++ ')' :: t) = some paren)
    (hclose : Text.closingParen? ((a ++ ')' :: t).drop paren) = some close)
    (hlength : paren + close = a.length) (offset : Nat) :
    scan.run before offset 0 (a ++ ')' :: t) =
      (if (Text.trimLeft t).head? = some ';' then scan
        else scan.addLoop offset a.length (Text.squeeze (a ++ [')'])) (LoopSpan.isBareBody before)
          (Text.trimLeft t).head?).run
        ((a ++ [')']).reverse ++ before) (offset + (a ++ [')']).length) 0 t := by
  have hsplit : a ++ ')' :: t = (a ++ [')']) ++ t := by simp
  have hdrop : (a ++ ')' :: t).drop (a.length + 1) = t := by
    rw [hsplit, List.drop_left' (by simp)]
  have htake : (a ++ ')' :: t).take (a.length + 1) = a ++ [')'] := by
    rw [hsplit, List.take_left' (by simp)]
  have hstep : scan.tryLoop before offset (a ++ ')' :: t) =
      .resume (if (Text.trimLeft t).head? = some ';' then scan
        else scan.addLoop offset a.length (Text.squeeze (a ++ [')'])) (LoopSpan.isBareBody before)
          (Text.trimLeft t).head?) a.length := by
    rw [tryLoop, hparen]
    simp only [hclose, hlength, hdrop, htake]
    split <;> rfl
  obtain ⟨c, rest, hcons⟩ := List.exists_cons_of_ne_nil (l := a ++ ')' :: t) (by simp)
  have hskip : ∀ s : LoopScan, s.run (c :: before) (offset + 1) a.length rest =
      s.run ((a ++ [')']).reverse ++ before) (offset + (a ++ [')']).length) 0 t :=
    fun s => run_skip_append s hcons.symm before offset
  rw [hcons] at hparen hstep ⊢
  rw [run, step_eq_tryLoop hstarted hparens hbefore hparen, hstep]
  exact hskip _

/-- The header of a loop is read at once. -/
lemma run_header (scan : LoopScan) (hstarted : scan.started = true) (hparens : scan.parens = 0)
    (keyword : LoopKeyword) (paren : Gap) (group : Group) (before t : Text) (offset : Nat)
    (hbefore : Text.startsWord before = false) :
    scan.run before offset 0 (Phrase.header keyword.text paren group ++ t) =
      (if (Text.trimLeft t).head? = some ';' then scan
        else scan.addLoop offset ((Phrase.header keyword.text paren group).length - 1)
          (Text.squeeze (Phrase.header keyword.text paren group)) (LoopSpan.isBareBody before)
          (Text.trimLeft t).head?).run
        ((Phrase.header keyword.text paren group).reverse ++ before)
        (offset + (Phrase.header keyword.text paren group).length) 0 t := by
  set front := keyword.text ++ paren.text ++ '(' :: group.text with hfront
  have hheader : Phrase.header keyword.text paren group = front ++ [')'] := by
    simp [hfront, Phrase.header]
  have hshape : front ++ ')' :: t =
      keyword.text ++ (paren.text ++ '(' :: (group.text ++ ')' :: t)) := by
    simp [hfront]
  have hparen : LoopSpan.headerParen? (front ++ ')' :: t) =
      some (keyword.text.length + paren.text.length) := by
    refine LoopSpan.headerParen?_eq_some_iff.mpr ⟨keyword.text, ?_, paren.text, _,
      paren.isBlankOnly, hshape, rfl⟩
    cases keyword <;> simp [LoopSpan.keywords, LoopKeyword.text]
  have hdrop : (front ++ ')' :: t).drop (keyword.text.length + paren.text.length) =
      '(' :: (group.text ++ ')' :: t) := by
    rw [hshape, ← List.append_assoc, ← List.length_append, List.drop_left]
  have hclose : Text.closingParen? ((front ++ ')' :: t).drop
      (keyword.text.length + paren.text.length)) = some (group.text.length + 1) := by
    rw [hdrop, group.closingParen?]
  have hlength : keyword.text.length + paren.text.length + (group.text.length + 1) =
      front.length := by
    simp only [hfront, List.length_append, List.length_cons]
  have hlast : (front ++ [')']).length - 1 = front.length := by simp
  rw [hheader, hlast, List.append_assoc, List.singleton_append,
    run_closed hstarted hparens hbefore hparen hclose hlength]

/-- A `;` outside parentheses ends the loops without braces at the current depth. -/
lemma run_semicolon (scan : LoopScan) (hparens : scan.parens = 0) (before t : Text)
    (offset : Nat) :
    scan.run before offset 0 (';' :: t) =
      (scan.endBraceless offset).run (';' :: before) (offset + 1) 0 t := by
  rw [run, step, if_neg (by decide), if_neg (by decide), if_neg (by decide), if_neg (by decide),
    if_pos ⟨rfl, hparens⟩]

/-- An opening brace. -/
lemma run_openBrace (scan : LoopScan) (before t : Text) (offset : Nat) :
    scan.run before offset 0 ('{' :: t) =
      (scan.openBrace offset).run ('{' :: before) (offset + 1) 0 t := by
  rw [run, step, if_pos rfl]

/-- A closing brace ends the pass where no block stays open. -/
lemma run_closeBrace (scan : LoopScan) (before t : Text) (offset : Nat) :
    scan.run before offset 0 ('}' :: t) =
      if (scan.closeBrace offset).started = true ∧ (scan.closeBrace offset).depth ≤ 0 then
        scan.closeBrace offset
      else (scan.closeBrace offset).run ('}' :: before) (offset + 1) 0 t := by
  rw [run, step, if_neg (by decide), if_pos rfl]
  by_cases h : (scan.closeBrace offset).started = true ∧ (scan.closeBrace offset).depth ≤ 0
  · rw [if_pos h]
    simp only [h, and_self, if_true]
  · rw [if_neg h]
    simp only [h, if_false]

end LoopScan

end ShaderProbe
