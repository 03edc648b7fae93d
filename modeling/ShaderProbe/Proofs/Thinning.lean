import Mathlib
import ShaderProbe.Proofs.LineSearch
import ShaderProbe.Proofs.LoopPass

/-!
# Blanks that do not matter

The lines of a source are trimmed on the right before they are scanned, and an edit moves the blanks
at the end of a line.  This file shows that the pass over a function does not see such blanks: a
text and the same text with blanks left out have the same loops, as long as no two words are joined.

`Text.Thinned` relates the two texts, together with a relation between the offsets at which they
hold the same character.  `Text.Thinned.spans` says that the loops of the two texts correspond, and
`Loop.findInCode_map_trimRight` that trimming the lines of code on the right changes no loop.
-/

namespace ShaderProbe

namespace Text

/-! ### A text with blanks left out -/

/-- A text starts with a blank.  The flag says whether a blank follows an empty text. -/
def startsBlankOr (after : Bool) : Text → Bool
  | [] => after
  | c :: _ => isBlank c

/-- The second text is the first one with some blanks left out.  A blank may be left out next to a
blank that stays; the flags `after` and `before` say that a blank follows the texts and stands in
front of the second one.  The texts start at the offsets `o` and `o'`, and the relation `R` holds
between the offsets of every character that is not blank. -/
inductive Thinned (R : Nat → Nat → Prop) (after : Bool) : Bool → Nat → Nat → Text → Text → Prop
  | nil {before : Bool} {o o' : Nat} : Thinned R after before o o' [] []
  /-- A character stays. -/
  | keep {before : Bool} {o o' : Nat} {c : Char} {t u : Text} (hplace : isBlank c = true ∨ R o o')
      (rest : Thinned R after (isBlank c) (o + 1) (o' + 1) t u) :
      Thinned R after before o o' (c :: t) (c :: u)
  /-- A blank is left out. -/
  | drop {before : Bool} {o o' : Nat} {c : Char} {t u : Text} (hc : isBlank c = true)
      (hnext : before = true ∨ startsBlankOr after u = true)
      (rest : Thinned R after before (o + 1) o' t u) :
      Thinned R after before o o' (c :: t) u

namespace Thinned

variable {R : Nat → Nat → Prop} {after before : Bool} {o o' : Nat} {t u : Text}

/-- Correspondence of offsets can be moved to other offsets. -/
lemma shift {S : Nat → Nat → Prop} (k k' : Nat) (hRS : ∀ n n', R n n' → S (n + k) (n' + k'))
    (h : Thinned R after before o o' t u) : Thinned S after before (o + k) (o' + k') t u := by
  induction h with
  | nil => exact .nil
  | @keep before o o' c t u hplace _ ih =>
    refine .keep (hplace.imp_right (hRS o o')) ?_
    rwa [Nat.add_right_comm, Nat.add_right_comm o'] at ih
  | @drop before o o' c t u hc hnext _ ih =>
    refine .drop hc hnext ?_
    rwa [Nat.add_right_comm] at ih

/-- A character that is not blank stays. -/
lemma cons_left {c : Char} (hc : isBlank c = false)
    (h : Thinned R after before o o' (c :: t) u) :
    ∃ u', u = c :: u' ∧ R o o' ∧ Thinned R after false (o + 1) (o' + 1) t u' := by
  cases h with
  | keep hplace rest =>
    rw [hc] at hplace rest
    exact ⟨_, rfl, hplace.resolve_left Bool.false_ne_true, rest⟩
  | drop hblank => exact absurd (hblank.symm.trans hc) (by decide)

/-- A character that is not blank and does not follow a blank is the next one of both texts. -/
lemma cons_right {c : Char} (hc : isBlank c = false) (h : Thinned R after false o o' t (c :: u)) :
    ∃ t', t = c :: t' ∧ R o o' ∧ Thinned R after false (o + 1) (o' + 1) t' u := by
  cases h with
  | keep hplace rest =>
    rw [hc] at hplace rest
    exact ⟨_, rfl, hplace.resolve_left Bool.false_ne_true, rest⟩
  | drop hblank hnext =>
    rw [startsBlankOr, hc] at hnext
    exact absurd hnext (by decide)

/-- The fronts `a` and `a'` correspond: in front of corresponding texts they make corresponding
texts.  Both fronts end with a character that is not blank. -/
def Front (R : Nat → Nat → Prop) (before : Bool) (o o' : Nat) (a a' : Text) : Prop :=
  ∀ after t u, Thinned R after false (o + a.length) (o' + a'.length) t u →
    Thinned R after before o o' (a ++ t) (a' ++ u)

/-- A character that stays extends a front. -/
lemma Front.keep {c : Char} (hplace : isBlank c = true ∨ R o o') {a a' : Text}
    (h : Front R (isBlank c) (o + 1) (o' + 1) a a') : Front R before o o' (c :: a) (c :: a') := by
  intro after t u hx
  refine .keep hplace (h after t u ?_)
  simpa only [List.length_cons, Nat.add_assoc, Nat.add_comm 1] using hx

/-- A blank that is left out extends a front. -/
lemma Front.drop {c : Char} (hc : isBlank c = true) {a a' : Text} (hne : a' ≠ [])
    (hnext : before = true ∨ startsBlankOr after (a' ++ u) = true)
    (h : Front R before (o + 1) o' a a') : Front R before o o' (c :: a) a' := by
  intro after' t u' hx
  refine .drop hc ?_ (h after' t u' ?_)
  · obtain ⟨d, b, rfl⟩ := List.exists_cons_of_ne_nil hne
    exact hnext
  · simpa only [List.length_cons, Nat.add_assoc, Nat.add_comm 1] using hx

/-- A character that is not blank is a front. -/
lemma Front.single {c : Char} (hc : isBlank c = false) (hplace : R o o') :
    Front R before o o' [c] [c] := by
  refine .keep (.inr hplace) fun after t u h => ?_
  rw [hc]
  exact h

/-- Fronts that follow each other make one front. -/
lemma Front.append {a a' b b' : Text} (ha : Front R before o o' a a')
    (hb : Front R false (o + a.length) (o' + a'.length) b b') :
    Front R before o o' (a ++ b) (a' ++ b') := by
  intro after t u h
  rw [List.length_append, List.length_append, ← Nat.add_assoc, ← Nat.add_assoc] at h
  rw [List.append_assoc, List.append_assoc]
  exact ha after _ _ (hb after t u h)

/-- A front corresponds on its own. -/
lemma Front.thinned {a a' : Text} (h : Front R before o o' a a') :
    Thinned R false before o o' a a' := by
  have := h false [] [] .nil
  rwa [List.append_nil, List.append_nil] at this

/-! ### What is read of both texts -/

/-- After their blanks the texts go on with the same character, or both are blank. -/
lemma trim (h : Thinned R after before o o' t u) :
    (isBlankOnly t = true ∧ isBlankOnly u = true) ∨
      ∃ g g' c t' u', t = g ++ c :: t' ∧ u = g' ++ c :: u' ∧ isBlankOnly g = true ∧
        isBlankOnly g' = true ∧ isBlank c = false ∧ Front R before o o' (g ++ [c]) (g' ++ [c]) ∧
        Thinned R after false (o + (g ++ [c]).length) (o' + (g' ++ [c]).length) t' u' := by
  induction h with
  | nil => exact .inl ⟨rfl, rfl⟩
  | @keep before o o' c t u hplace rest ih =>
    cases hc : isBlank c with
    | false =>
      rw [hc] at hplace rest
      exact .inr ⟨[], [], c, t, u, rfl, rfl, rfl, rfl, hc,
        Front.single hc (hplace.resolve_left Bool.false_ne_true), rest⟩
    | true =>
      rcases ih with ⟨ht, hu⟩ | ⟨g, g', d, t', u', rfl, rfl, hg, hg', hd, hfront, hrest⟩
      · exact .inl ⟨by simpa [isBlankOnly, hc] using ht, by simpa [isBlankOnly, hc] using hu⟩
      · refine .inr ⟨c :: g, c :: g', d, t', u', rfl, rfl, by simpa [isBlankOnly, hc] using hg,
          by simpa [isBlankOnly, hc] using hg', hd, hfront.keep hplace, ?_⟩
        simpa only [List.cons_append, List.length_cons, Nat.add_assoc, Nat.add_comm 1] using hrest
  | @drop before o o' c t u hc hnext rest ih =>
    rcases ih with ⟨ht, hu⟩ | ⟨g, g', d, t', u', rfl, rfl, hg, hg', hd, hfront, hrest⟩
    · exact .inl ⟨by simpa [isBlankOnly, hc] using ht, hu⟩
    · refine .inr ⟨c :: g, g', d, t', u', rfl, rfl, by simpa [isBlankOnly, hc] using hg, hg', hd,
        hfront.drop hc (by simp) (u := u') (by simpa using hnext), ?_⟩
      simpa only [List.cons_append, List.length_cons, Nat.add_assoc, Nat.add_comm 1] using hrest

/-- A literal without blanks is read of both texts or of none. -/
lemma readLiteral? {w : Text} (hw : ∀ c ∈ w, isBlank c = false)
    (h : Thinned R after false o o' t u) :
    (Text.readLiteral? w t = none ∧ Text.readLiteral? w u = none) ∨
      ∃ t' u', t = w ++ t' ∧ u = w ++ u' ∧ Front R false o o' w w ∧
        Thinned R after false (o + w.length) (o' + w.length) t' u' := by
  induction w generalizing o o' t u with
  | nil => exact .inr ⟨t, u, rfl, rfl, fun _ _ _ hx => hx, h⟩
  | cons c w ih =>
    have hc := hw c List.mem_cons_self
    by_cases hhead : t.head? = some c ∨ u.head? = some c
    · obtain ⟨t', u', rfl, rfl, hplace, hrest⟩ : ∃ t' u', t = c :: t' ∧ u = c :: u' ∧ R o o' ∧
          Thinned R after false (o + 1) (o' + 1) t' u' := by
        rcases hhead with hhead | hhead
        · obtain ⟨t', rfl⟩ := List.head?_eq_some_iff.mp hhead
          obtain ⟨u', rfl, hplace, hrest⟩ := cons_left hc h
          exact ⟨t', u', rfl, rfl, hplace, hrest⟩
        · obtain ⟨u', rfl⟩ := List.head?_eq_some_iff.mp hhead
          obtain ⟨t', rfl, hplace, hrest⟩ := cons_right hc h
          exact ⟨t', u', rfl, rfl, hplace, hrest⟩
      rw [Text.readLiteral?, if_pos rfl, Text.readLiteral?, if_pos rfl]
      rcases ih (fun d hd => hw d (List.mem_cons_of_mem _ hd)) hrest with
        hnone | ⟨t'', u'', rfl, rfl, hfront, hrest⟩
      · exact .inl hnone
      · refine .inr ⟨t'', u'', rfl, rfl, (Front.single hc hplace).append hfront, ?_⟩
        simpa only [List.length_cons, Nat.add_assoc, Nat.add_comm 1] using hrest
    · have hnone : ∀ x : Text, x.head? ≠ some c → Text.readLiteral? (c :: w) x = none := by
        intro x hx
        cases x with
        | nil => rfl
        | cons d x => exact if_neg (fun hd => hx (by rw [hd]; rfl))
      exact .inl ⟨hnone t (fun hx => hhead (.inl hx)), hnone u (fun hx => hhead (.inr hx))⟩

/-- A bracket closes in both texts or in none. -/
lemma closingFrom (h : Thinned R after before o o' t u) (opening closing : Char)
    (hopening : isBlank opening = false) (hclosing : isBlank closing = false) (d : Int) :
    (Text.closingFrom opening closing d t = none ∧ Text.closingFrom opening closing d u = none) ∨
      ∃ a a' t' u', t = a ++ closing :: t' ∧ u = a' ++ closing :: u' ∧
        Text.closingFrom opening closing d t = some a.length ∧
        Text.closingFrom opening closing d u = some a'.length ∧ R (o + a.length) (o' + a'.length) ∧
        Front R before o o' (a ++ [closing]) (a' ++ [closing]) ∧
        Thinned R after false (o + (a ++ [closing]).length) (o' + (a' ++ [closing]).length) t' u' := by
  induction h generalizing d with
  | nil => exact .inl ⟨rfl, rfl⟩
  | @keep before o o' c t u hplace rest ih =>
    rcases closingFrom_cons_cases opening closing d c with ⟨rfl, hhere⟩ | ⟨d', hd'⟩
    · have hR := hplace.resolve_left (by rw [hclosing]; exact Bool.false_ne_true)
      rw [hclosing] at rest
      exact .inr ⟨[], [], t, u, rfl, rfl, hhere t, hhere u, hR, Front.single hclosing hR, rest⟩
    · rw [hd', hd']
      rcases ih d' with ⟨ht, hu⟩ | ⟨a, a', t', u', rfl, rfl, ht, hu, hR, hfront, hrest⟩
      · exact .inl ⟨by rw [ht]; rfl, by rw [hu]; rfl⟩
      · refine .inr ⟨c :: a, c :: a', t', u', rfl, rfl, by rw [ht]; rfl, by rw [hu]; rfl, ?_,
          hfront.keep hplace, ?_⟩
        · simpa only [List.length_cons, Nat.add_assoc, Nat.add_comm 1] using hR
        · simpa only [List.cons_append, List.length_cons, Nat.add_assoc, Nat.add_comm 1] using hrest
  | @drop before o o' c t u hc hnext rest ih =>
    have hpass : Text.closingFrom opening closing d (c :: t) =
        (Text.closingFrom opening closing d t).map (· + 1) := by
      rw [Text.closingFrom, if_neg (ne_of_isBlank hc hopening), if_neg (ne_of_isBlank hc hclosing)]
    rw [hpass]
    rcases ih d with ⟨ht, hu⟩ | ⟨a, a', t', u', rfl, rfl, ht, hu, hR, hfront, hrest⟩
    · exact .inl ⟨by rw [ht]; rfl, hu⟩
    · refine .inr ⟨c :: a, a', t', u', rfl, rfl, by rw [ht]; rfl, hu, ?_,
        hfront.drop hc (by simp) (u := u') (by simpa using hnext), ?_⟩
      · simpa only [List.length_cons, Nat.add_assoc, Nat.add_comm 1] using hR
      · simpa only [List.cons_append, List.length_cons, Nat.add_assoc, Nat.add_comm 1] using hrest

/-- The texts start with a word or with a blank alike. -/
lemma startsWord_eq (h : Thinned R after false o o' t u) : startsWord t = startsWord u := by
  cases h with
  | nil => rfl
  | keep _ _ => rfl
  | drop hc hnext _ =>
    rw [startsWord, isWordChar_eq_false_of_isBlank hc]
    cases u with
    | nil => rfl
    | cons d u =>
      have hd : isBlank d = true := hnext.resolve_left Bool.false_ne_true
      rw [startsWord, isWordChar_eq_false_of_isBlank hd]

/-- The texts have the same words. -/
lemma words_eq (h : Thinned R after before o o' t u) : words t = words u := by
  induction h with
  | nil => rfl
  | @keep before o o' c t u hplace rest ih =>
    cases hc : isBlank c with
    | true => rw [words, if_pos hc, words, if_pos hc, ih]
    | false =>
      have hstart : startsBlank t = startsBlank u := by
        rw [hc] at rest
        cases rest with
        | nil => rfl
        | keep _ _ => rfl
        | drop hd hnext _ =>
          cases u with
          | nil => exact hd
          | cons d u => exact hd.trans (hnext.resolve_left Bool.false_ne_true).symm
      rw [words, words, ih, hstart]
  | drop hc _ _ ih => rw [words, if_pos hc, ih]

/-- After their blanks the texts start with the same character. -/
lemma head?_trimLeft (h : Thinned R after before o o' t u) :
    (trimLeft t).head? = (trimLeft u).head? := by
  rcases h.trim with ⟨ht, hu⟩ | ⟨g, g', c, t', u', rfl, rfl, hg, hg', hc, -, -⟩
  · rw [trimLeft_eq_nil ht, trimLeft_eq_nil hu]
  · rw [trimLeft_append hg, trimLeft_append hg', trimLeft_cons hc, trimLeft_cons hc]
    rfl

/-- No blank stands in front of a text, so fewer blanks may be left out. -/
lemma weaken (h : Thinned R after false o o' t u) : Thinned R after before o o' t u := by
  generalize hfalse : false = q at h
  induction h with
  | nil => exact .nil
  | keep hplace rest _ => exact .keep hplace rest
  | drop hc hnext _ ih =>
    subst hfalse
    exact .drop hc (.inr (hnext.resolve_left Bool.false_ne_true)) (ih rfl)

/-- A keyword with its parenthesis starts both texts or none. -/
lemma headerParen? (h : Thinned R after false o o' t u) :
    (LoopSpan.headerParen? t = none ∧ LoopSpan.headerParen? u = none) ∨
      ∃ a a' t' u', t = a ++ '(' :: t' ∧ u = a' ++ '(' :: u' ∧
        LoopSpan.headerParen? t = some a.length ∧ LoopSpan.headerParen? u = some a'.length ∧
        Front R false o o' (a ++ ['(']) (a' ++ ['(']) ∧
        Thinned R after false (o + (a ++ ['(']).length) (o' + (a' ++ ['(']).length) t' u' := by
  have hparen : isBlank '(' = false := isBlank_delimiter (by simp)
  by_cases hex : ∃ keyword ∈ LoopSpan.keywords, ∃ gap rest, isBlankOnly gap = true ∧
      (t = keyword ++ (gap ++ '(' :: rest) ∨ u = keyword ++ (gap ++ '(' :: rest))
  · obtain ⟨keyword, hmem, gap, rest, hgap, hshape⟩ := hex
    have hkeyword : ∀ c ∈ keyword, isBlank c = false :=
      isBlank_keyword (List.mem_of_mem_drop (i := 3) hmem)
    have hread : ∀ x y : Text, x = keyword ++ y → Text.readLiteral? keyword x ≠ none := by
      intro x y hx hnone
      rw [Text.readLiteral?_eq_some_iff.mpr hx] at hnone
      exact absurd hnone (by simp)
    rcases h.readLiteral? hkeyword with ⟨ht, hu⟩ | ⟨t₁, u₁, rfl, rfl, hfront₁, hrest₁⟩
    · rcases hshape with hshape | hshape
      · exact absurd ht (hread _ _ hshape)
      · exact absurd hu (hread _ _ hshape)
    have hshape₁ : t₁ = gap ++ '(' :: rest ∨ u₁ = gap ++ '(' :: rest :=
      hshape.imp List.append_cancel_left List.append_cancel_left
    have hhead : (trimLeft t₁).head? = some '(' := by
      have hgroup : (trimLeft (gap ++ '(' :: rest)).head? = some '(' := by
        rw [trimLeft_append hgap, trimLeft_cons hparen, List.head?_cons]
      rcases hshape₁ with rfl | rfl
      · exact hgroup
      · rw [hrest₁.head?_trimLeft, hgroup]
    rcases hrest₁.trim with ⟨hblank, -⟩ | ⟨g, g', c, t', u', rfl, rfl, hg, hg', hc, hfront, hrest⟩
    · rw [trimLeft_eq_nil hblank] at hhead
      exact absurd hhead (by decide)
    rw [trimLeft_append hg, trimLeft_cons hc, List.head?_cons, Option.some.injEq] at hhead
    subst hhead
    refine .inr ⟨keyword ++ g, keyword ++ g', t', u', by simp, by simp, ?_, ?_, ?_, ?_⟩
    · exact LoopSpan.headerParen?_eq_some_iff.mpr ⟨keyword, hmem, g, t', hg, rfl, by simp⟩
    · exact LoopSpan.headerParen?_eq_some_iff.mpr ⟨keyword, hmem, g', u', hg', rfl, by simp⟩
    · simpa using hfront₁.append hfront
    · simpa [Nat.add_assoc] using hrest
  · have hnone : ∀ x : Text, x = t ∨ x = u → LoopSpan.headerParen? x = none := by
      intro x hx
      rw [Option.eq_none_iff_forall_ne_some]
      intro n hn
      obtain ⟨keyword, hmem, gap, rest, hgap, hshape, -⟩ := LoopSpan.headerParen?_eq_some_iff.mp hn
      refine hex ⟨keyword, hmem, gap, rest, hgap, ?_⟩
      rcases hx with rfl | rfl
      · exact .inl hshape
      · exact .inr hshape
    exact .inl ⟨hnone t (.inl rfl), hnone u (.inr rfl)⟩

end Thinned

/-! ### The texts before a place -/

/-- The second text is the first one with some blanks left out, wherever the texts stand. -/
def Alike (after before : Bool) (t u : Text) : Prop :=
  ∀ o o', Thinned (fun _ _ => True) after before o o' t u

/-- Corresponding texts are alike. -/
lemma Thinned.alike {R : Nat → Nat → Prop} {after before : Bool} {o o' : Nat} {t u : Text}
    (h : Thinned R after before o o' t u) : Alike after before t u := by
  induction h with
  | nil => exact fun _ _ => .nil
  | keep _ _ ih => exact fun o o' => .keep (.inr trivial) (ih (o + 1) (o' + 1))
  | drop hc hnext _ ih => exact fun o o' => .drop hc hnext (ih (o + 1) o')

/-- The texts before a place, given in reverse, stay alike as the pass goes on. -/
lemma Thinned.reverse_append {R : Nat → Nat → Prop} {after before : Bool} {o o' : Nat}
    {a a' : Text} (h : Thinned R after before o o' a a') {b b' : Text}
    (hbefore : before = startsBlank b') (hb : Alike true (startsBlankOr after a') b b') :
    Alike true after (a.reverse ++ b) (a'.reverse ++ b') := by
  induction h generalizing b b' with
  | nil => exact hb
  | @keep before o o' c t u _ _ ih =>
    rw [List.reverse_cons, List.reverse_cons, List.append_assoc, List.append_assoc]
    exact ih rfl fun o o' => .keep (.inr trivial) (hb (o + 1) (o' + 1))
  | @drop before o o' c t u hc hnext _ ih =>
    rw [List.reverse_cons, List.append_assoc]
    refine ih hbefore fun o o' => .drop hc ?_ (hb (o + 1) o')
    -- what is read forwards as the character before is read backwards as the one after
    have hstart : startsBlankOr true b' = startsBlank b' := by cases b' <;> rfl
    rw [hstart, ← hbefore]
    exact hnext.symm

/-- Texts that are alike end with the same words. -/
lemma Alike.endsWithWord_eq {t u : Text} (h : Alike true false t u) {words : List Text}
    (hwords : ∀ word ∈ words, ∀ c ∈ word, isBlank c = false) :
    LoopSpan.endsWithWord words t = LoopSpan.endsWithWord words u := by
  rw [LoopSpan.endsWithWord, LoopSpan.endsWithWord, Bool.eq_iff_iff, List.any_eq_true,
    List.any_eq_true]
  refine exists_congr fun word => and_congr_right fun hmem => ?_
  have hrev : ∀ c ∈ word.reverse, isBlank c = false :=
    fun c hc => hwords word hmem c (List.mem_reverse.mp hc)
  rcases (h 0 0).readLiteral? hrev with ⟨ht, hu⟩ | ⟨t', u', rfl, rfl, -, hrest⟩
  · rw [ht, hu]
  · rw [readLiteral?_eq_some_iff.mpr rfl, readLiteral?_eq_some_iff.mpr rfl]
    -- only the character in front of the word is looked at
    cases hrest with
    | nil => exact Iff.rfl
    | keep _ _ => exact Iff.rfl
    | @drop _ _ _ c t _ hc hnext _ =>
      have hword : (!isWordChar c && c != '.') = true := LoopSpan.admitsKeyword_blank hc []
      cases u' with
      | nil => exact iff_of_true hword rfl
      | cons d u =>
        have hd : isBlank d = true := hnext.resolve_left Bool.false_ne_true
        exact iff_of_true hword (LoopSpan.admitsKeyword_blank hd [])

/-- Texts that are alike stay so without the blanks in front of them. -/
lemma Alike.trimLeft {before : Bool} {t u : Text} (h : Alike true before t u) :
    Alike true false (trimLeft t) (trimLeft u) := by
  rcases (h 0 0).trim with ⟨ht, hu⟩ | ⟨g, g', c, t', u', rfl, rfl, hg, hg', hc, -, hrest⟩
  · rw [trimLeft_eq_nil ht, trimLeft_eq_nil hu]
    exact fun _ _ => .nil
  · rw [trimLeft_append hg, trimLeft_append hg', trimLeft_cons hc, trimLeft_cons hc]
    refine fun o o' => .keep (.inr trivial) ?_
    rw [hc]
    exact hrest.alike _ _

/-- A statement after texts that are alike is an unbraced body after both or after none. -/
lemma Alike.isBareBody_eq {before : Bool} {t u : Text} (h : Alike true before t u) :
    LoopSpan.isBareBody t = LoopSpan.isBareBody u := by
  have htrim := h.trimLeft
  rw [LoopSpan.isBareBody, LoopSpan.isBareBody, (h 0 0).head?_trimLeft]
  split
  · -- behind a parenthesis the word in front of the group decides
    rcases (htrim 0 0).closingFrom ')' '(' (by decide) (by decide) 0 with
      ⟨ht, hu⟩ | ⟨a, a', x, x', hx, hx', ht, hu, -, -, hafter⟩
    · rw [ht, hu]
    · have hdrop : ∀ y z : Text, (y ++ '(' :: z).drop (y.length + 1) = z := by
        intro y z
        rw [← List.singleton_append, ← List.append_assoc, List.drop_left' (by simp)]
      rw [ht, hu, hx, hx']
      simp only [hdrop]
      exact hafter.alike.trimLeft.endsWithWord_eq fun word hmem =>
        isBlank_keyword (List.mem_of_mem_drop (i := 2) hmem)
  · exact htrim.endsWithWord_eq fun word hmem =>
      isBlank_keyword (List.mem_of_mem_take (i := 2) hmem)

end Text

/-! ### Loops that correspond -/

/-- Two loops with the same header text at corresponding offsets. -/
structure LoopSpan.Matches (R : Nat → Nat → Prop) (span span' : LoopSpan) : Prop where
  keyword : R span.keyword span'.keyword
  parenClose : R span.parenClose span'.parenClose
  headerText : span.headerText = span'.headerText
  bareBody : span.bareBody = span'.bareBody
  brace : Option.Rel R span.brace span'.brace
  bodyEnd : Option.Rel R span.bodyEnd span'.bodyEnd

/-- Two states of the pass that differ at most in their loops, which correspond. -/
def LoopScan.Matches (R : Nat → Nat → Prop) (scan scan' : LoopScan) : Prop :=
  ∃ spans, List.Forall₂ (LoopSpan.Matches R) scan.spans spans ∧ scan' = { scan with spans }

/-- Changes that keep the correspondence of one element keep that of the lists. -/
lemma forall₂_modify {α β : Type*} {S : α → β → Prop} {f : α → α} {g : β → β}
    (hfg : ∀ a b, S a b → S (f a) (g b)) {l : List α} {r : List β} (h : List.Forall₂ S l r) :
    ∀ i, List.Forall₂ S (l.modify i f) (r.modify i g) := by
  induction h with
  | nil =>
    intro i
    cases i <;> exact .nil
  | cons hab hrest ih =>
    intro i
    cases i with
    | zero => exact .cons (hfg _ _ hab) hrest
    | succ i => exact .cons hab (ih i)

namespace LoopScan.Matches

variable {R : Nat → Nat → Prop} {scan scan' : LoopScan} {o o' : Nat}

/-- Ending a body at corresponding offsets. -/
lemma endBody (h : Matches R scan scan') (hplace : R o o') (index : Nat) :
    Matches R (scan.endBody index o) (scan'.endBody index o') := by
  obtain ⟨spans, hspans, rfl⟩ := h
  refine ⟨_, forall₂_modify ?_ hspans index, rfl⟩
  exact fun span span' hspan => { hspan with bodyEnd := .some hplace }

/-- Ending the loops without braces at corresponding offsets. -/
lemma endBraceless (h : Matches R scan scan') (hplace : R o o') :
    Matches R (scan.endBraceless o) (scan'.endBraceless o') := by
  have hfold : ∀ (entries : List (Nat × Int)) (s s' : LoopScan), Matches R s s' →
      Matches R (entries.foldl (fun scan entry => scan.endBody entry.1 o) s)
        (entries.foldl (fun scan entry => scan.endBody entry.1 o') s') := by
    intro entries
    induction entries with
    | nil => exact fun _ _ hs => hs
    | cons entry entries ih => exact fun s s' hs => ih _ _ (hs.endBody hplace entry.1)
  obtain ⟨spans, hspans, rfl⟩ := h
  exact hfold _ _ _ ⟨spans, hspans, rfl⟩

/-- Opening braces at corresponding offsets. -/
lemma openBrace (h : Matches R scan scan') (hplace : R o o') :
    Matches R (scan.openBrace o) (scan'.openBrace o') := by
  obtain ⟨spans, hspans, rfl⟩ := h
  rw [LoopScan.openBrace, LoopScan.openBrace]
  cases scan.awaiting with
  | none => exact ⟨spans, hspans, rfl⟩
  | some index =>
    refine ⟨_, forall₂_modify ?_ hspans index, rfl⟩
    exact fun span span' hspan => { hspan with brace := .some hplace }

/-- Closing braces at corresponding offsets. -/
lemma closeBrace (h : Matches R scan scan') (hplace : R o o') :
    Matches R (scan.closeBrace o) (scan'.closeBrace o') := by
  have hdepth : ∀ s s', Matches R s s' →
      Matches R { s with depth := s.depth - 1 } { s' with depth := s'.depth - 1 } := by
    rintro s s' ⟨spans, hspans, rfl⟩
    exact ⟨spans, hspans, rfl⟩
  rw [LoopScan.closeBrace, LoopScan.closeBrace]
  refine endBraceless (hdepth _ _ ?_) hplace
  obtain ⟨spans, hspans, rfl⟩ := h
  obtain ⟨loops, braced, braceless, awaiting, depth, parens, started⟩ := scan
  cases braced with
  | nil => exact ⟨spans, hspans, rfl⟩
  | cons entry outer =>
    dsimp only
    split
    · refine endBody ?_ hplace entry.1
      exact ⟨spans, hspans, rfl⟩
    · exact ⟨spans, hspans, rfl⟩

/-- Loop headers at corresponding offsets. -/
lemma addLoop (h : Matches R scan scan') (hplace : R o o') {k k' : Nat}
    (hclose : R (o + k) (o' + k')) (headerText : Text) (bareBody : Bool) (next : Option Char) :
    Matches R (scan.addLoop o k headerText bareBody next)
      (scan'.addLoop o' k' headerText bareBody next) := by
  obtain ⟨spans, hspans, rfl⟩ := h
  have hspan : List.Forall₂ (LoopSpan.Matches R)
      (scan.spans ++ [{ keyword := o, parenClose := o + k, headerText, bareBody }])
      (spans ++ [{ keyword := o', parenClose := o' + k', headerText, bareBody }]) := by
    refine List.rel_append hspans (.cons ?_ .nil)
    exact ⟨hplace, hclose, rfl, rfl, .none, .none⟩
  rw [LoopScan.addLoop, LoopScan.addLoop, hspans.length_eq]
  split
  · exact ⟨_, hspan, rfl⟩
  · exact ⟨_, hspan, rfl⟩

end LoopScan.Matches

namespace LoopScan

/-- A blank is passed over. -/
lemma run_blank (scan : LoopScan) {c : Char} (hc : isBlank c = true) (before t : Text)
    (offset : Nat) :
    scan.run before offset 0 (c :: t) = scan.run (c :: before) (offset + 1) 0 t := by
  have hgap : Text.isBlankOnly [c] = true := by simpa [Text.isBlankOnly] using hc
  simpa using scan.run_gap ⟨[c], hgap⟩ before t offset

end LoopScan

namespace Text.Thinned

/-- The pass over texts of at most `n` characters finds corresponding loops in corresponding
texts. -/
def RunsAlike (R : Nat → Nat → Prop) (n : Nat) : Prop :=
  ∀ {t u b b' : Text} {o o' : Nat} {scan scan' : LoopScan}, t.length ≤ n →
    Thinned R true (startsBlank b') o o' t u → Alike true (startsBlank u) b b' →
    scan.Matches R scan' → (scan.run b o 0 t).Matches R (scan'.run b' o' 0 u)

/-- The pass reads a loop header of both texts alike. -/
lemma run_header {R : Nat → Nat → Prop} {n : Nat} (ih : RunsAlike R n) {t u b b' : Text}
    {o o' : Nat} {scan scan' : LoopScan} (hn : t.length ≤ n + 1) (hR : R o o')
    (h : Thinned R true false o o' t u) (hb : Alike true false b b') (hscan : scan.Matches R scan')
    (hstarted : scan.started = true) (hparens : scan.parens = 0) (hword : startsWord b = false)
    (hheader : LoopSpan.headerParen? t ≠ none) :
    (scan.run b o 0 t).Matches R (scan'.run b' o' 0 u) := by
  obtain ⟨spans, hspans, hscan'⟩ := hscan
  have hstarted' : scan'.started = true := by rw [hscan', hstarted]
  have hparens' : scan'.parens = 0 := by rw [hscan', hparens]
  have hword' : startsWord b' = false := by rw [← (hb 0 0).startsWord_eq, hword]
  rcases h.headerParen? with ⟨hnone, -⟩ | ⟨a, a', x, x', rfl, rfl, hparen, hparen', hfront, hx⟩
  · exact absurd hnone hheader
  have hdrop : ∀ y z : Text, (y ++ '(' :: z).drop y.length = '(' :: z := fun y z => List.drop_left
  have hclosing : ∀ z : Text, Text.closingParen? ('(' :: z) =
      (Text.closingFrom '(' ')' 1 z).map (· + 1) := fun z => rfl
  rcases hx.closingFrom '(' ')' (by decide) (by decide) 1 with
    ⟨hnone, hnone'⟩ | ⟨g, g', r, r', rfl, rfl, hclose, hclose', hRclose, hfront', hrest⟩
  · -- the header closes in neither text
    obtain ⟨c, y, hy⟩ := List.exists_cons_of_ne_nil (l := a ++ '(' :: x) (by simp)
    obtain ⟨c', y', hy'⟩ := List.exists_cons_of_ne_nil (l := a' ++ '(' :: x') (by simp)
    have hopen : Text.closingParen? ((a ++ '(' :: x).drop a.length) = none := by
      rw [hdrop, hclosing, hnone]
      rfl
    have hopen' : Text.closingParen? ((a' ++ '(' :: x').drop a'.length) = none := by
      rw [hdrop, hclosing, hnone']
      rfl
    rw [hy] at hparen hopen ⊢
    rw [hy'] at hparen' hopen' ⊢
    rw [LoopScan.run_unclosed hstarted hparens hword hparen hopen,
      LoopScan.run_unclosed hstarted' hparens' hword' hparen' hopen']
    exact ⟨spans, hspans, hscan'⟩
  · -- the header closes at corresponding places, and what follows it is read alike
    have hclosed : ∀ y z w : Text, Text.closingFrom '(' ')' 1 (z ++ ')' :: w) = some z.length →
        Text.closingParen? (((y ++ '(' :: z) ++ ')' :: w).drop y.length) = some (z.length + 1) := by
      intro y z w hz
      rw [List.append_assoc, List.cons_append, hdrop, hclosing, hz]
      rfl
    have hlength : ∀ y z : Text, y.length + (z.length + 1) = (y ++ '(' :: z).length := by
      intro y z
      rw [List.length_append, List.length_cons]
    have hheaders : Front R false o o' ((a ++ '(' :: g) ++ [')']) ((a' ++ '(' :: g') ++ [')']) := by
      simpa using hfront.append hfront'
    rw [← List.cons_append, ← List.append_assoc] at hparen hparen' ⊢
    rw [← List.cons_append, ← List.append_assoc]
    rw [LoopScan.run_closed hstarted hparens hword hparen (hclosed a g r hclose) (hlength a g),
      LoopScan.run_closed hstarted' hparens' hword' hparen' (hclosed a' g' r' hclose')
      (hlength a' g'),
      ← hrest.head?_trimLeft, squeeze, squeeze, ← hheaders.thinned.words_eq, ← hb.isBareBody_eq]
    refine ih ?_ ?_ ?_ ?_
    · simp only [List.length_append, List.length_cons] at hn
      omega
    · have hstart : startsBlank (((a' ++ '(' :: g') ++ [')']).reverse ++ b') = false := by
        rw [List.reverse_append]
        exact (by decide : isBlank ')' = false)
      rw [hstart]
      simpa [Nat.add_assoc, Nat.add_comm 1] using hrest
    · have hbehind : Alike true false (((a ++ '(' :: g) ++ [')']).reverse ++ b)
          (((a' ++ '(' :: g') ++ [')']).reverse ++ b') :=
        hheaders.thinned.weaken.reverse_append rfl fun p p' => (hb p p').weaken
      exact fun p p' => (hbehind p p').weaken
    · split
      · exact ⟨spans, hspans, hscan'⟩
      · refine LoopScan.Matches.addLoop ⟨spans, hspans, hscan'⟩ hR ?_ _ _ _
        simpa [Nat.add_assoc, Nat.add_comm 1] using hRclose

/-- The pass reads a character of both texts alike. -/
lemma run_keep {R : Nat → Nat → Prop} {n : Nat} (ih : RunsAlike R n) {t u b b' : Text} {c : Char}
    {o o' : Nat} {scan scan' : LoopScan} (hn : t.length ≤ n) (hc : isBlank c = false) (hR : R o o')
    (h : Thinned R true false (o + 1) (o' + 1) t u) (hb : Alike true false b b')
    (hscan : scan.Matches R scan') :
    (scan.run b o 0 (c :: t)).Matches R (scan'.run b' o' 0 (c :: u)) := by
  have hgo : ∀ s s', LoopScan.Matches R s s' →
      (s.run (c :: b) (o + 1) 0 t).Matches R (s'.run (c :: b') (o' + 1) 0 u) := by
    refine fun s s' hs => ih hn ?_ ?_ hs
    · rw [startsBlank, hc]
      exact h
    · exact fun p p' => .keep (.inr trivial) (by rw [hc]; exact hb _ _)
  have hboth : Thinned R true false o o' (c :: t) (c :: u) := .keep (.inr hR) (by rwa [hc])
  by_cases hopen : c = '{'
  · subst hopen
    rw [LoopScan.run_openBrace, LoopScan.run_openBrace]
    exact hgo _ _ (hscan.openBrace hR)
  by_cases hclose : c = '}'
  · subst hclose
    have hbrace := hscan.closeBrace hR
    rw [LoopScan.run_closeBrace, LoopScan.run_closeBrace]
    obtain ⟨spans, hspans, heq⟩ := hbrace
    rw [heq]
    split
    · exact ⟨spans, hspans, rfl⟩
    · exact hgo _ _ ⟨spans, hspans, rfl⟩
  by_cases hsemi : c = ';' ∧ scan.parens = 0
  · obtain ⟨rfl, hparens⟩ := hsemi
    have hparens' : scan'.parens = 0 := by
      obtain ⟨spans, -, rfl⟩ := hscan
      exact hparens
    rw [LoopScan.run_semicolon scan hparens, LoopScan.run_semicolon scan' hparens']
    exact hgo _ _ (hscan.endBraceless hR)
  by_cases hloop : (scan.started = true ∧ scan.parens = 0 ∧ startsWord b = false) ∧
      LoopSpan.headerParen? (c :: t) ≠ none
  · obtain ⟨⟨hstarted, hparens, hword⟩, hheader⟩ := hloop
    exact run_header ih (by simpa using hn) hR hboth hb hscan hstarted hparens hword hheader
  · -- the character leaves no trace but the count of open parentheses
    have hquiet : scan.started = true → scan.parens = 0 → startsWord b = false →
        LoopSpan.headerParen? (c :: t) = none := by
      intro hstarted hparens hword
      by_contra hne
      exact hloop ⟨⟨hstarted, hparens, hword⟩, hne⟩
    have hquiet' : scan.started = true → scan.parens = 0 → startsWord b' = false →
        LoopSpan.headerParen? (c :: u) = none := by
      intro hstarted hparens hword
      have hnone := hquiet hstarted hparens (by rw [(hb 0 0).startsWord_eq, hword])
      rcases hboth.headerParen? with ⟨-, hnone'⟩ | ⟨a, a', x, x', -, -, hsome, -⟩
      · exact hnone'
      · rw [hnone] at hsome
        exact absurd hsome (by simp)
    obtain ⟨spans, hspans, rfl⟩ := hscan
    rw [LoopScan.run_cons_quiet scan hopen hclose (fun hp hc => hsemi ⟨hc, hp⟩) hquiet,
      LoopScan.run_cons_quiet { scan with spans } hopen hclose (fun hp hc => hsemi ⟨hc, hp⟩) hquiet']
    exact hgo _ _ ⟨spans, hspans, rfl⟩

/-- **The pass over a text with blanks left out finds the corresponding loops.** -/
theorem run {R : Nat → Nat → Prop} (n : Nat) : RunsAlike R n := by
  induction n with
  | zero =>
    intro t u b b' o o' scan scan' hn h hb hscan
    obtain rfl : t = [] := by simpa using hn
    cases h
    exact hscan
  | succ n ih =>
    intro t u b b' o o' scan scan' hn h hb hscan
    cases h with
    | nil => exact hscan
    | @drop _ _ _ c t _ hc hnext rest =>
      rw [LoopScan.run_blank scan hc]
      refine ih (by simpa using hn) rest (fun p p' => .drop hc ?_ (hb (p + 1) p')) hscan
      have hstart : startsBlankOr true b' = startsBlank b' := by cases b' <;> rfl
      have hstart' : startsBlankOr true u = startsBlank u := by cases u <;> rfl
      rw [hstart, ← hstart']
      exact hnext.symm
    | @keep _ _ _ c t u hplace rest =>
      have hlength : t.length ≤ n := by simpa using hn
      rw [startsBlank] at hb
      cases hc : isBlank c with
      | true =>
        rw [LoopScan.run_blank scan hc, LoopScan.run_blank scan' hc]
        exact ih hlength rest (fun p p' => .keep (.inr trivial) (hb (p + 1) (p' + 1))) hscan
      | false =>
        rw [hc] at hplace rest hb
        exact run_keep ih hlength hc (hplace.resolve_left Bool.false_ne_true) rest hb hscan

/-- The loops of a text with blanks left out correspond to those of the text. -/
theorem spans {R : Nat → Nat → Prop} {t u : Text} (h : Thinned R true true 0 0 t u) :
    List.Forall₂ (LoopSpan.Matches R) (Loop.spans t) (Loop.spans u) := by
  have hstart : LoopScan.Matches R {} {} := ⟨[], .nil, rfl⟩
  obtain ⟨spans, hspans, heq⟩ : LoopScan.Matches R (LoopScan.run {} [] 0 0 t)
    (LoopScan.run {} [] 0 0 u) := run t.length le_rfl h (fun _ _ => .nil) hstart
  rw [Loop.spans, Loop.spans, heq]
  exact hspans

/-! ### Trimmed lines -/

/-- Blanks are left out in front of a blank. -/
lemma append_gap {R : Nat → Nat → Prop} {after before : Bool} {t u g : Text}
    (hg : isBlankOnly g = true) (hu : startsBlankOr after u = true) {o o' : Nat}
    (h : Thinned R after before (o + g.length) o' t u) :
    Thinned R after before o o' (g ++ t) u := by
  induction g generalizing o with
  | nil => exact h
  | cons c g ih =>
    have hcg : isBlank c = true ∧ isBlankOnly g = true := by simpa [isBlankOnly] using hg
    refine .drop hcg.1 (.inr hu) (ih hcg.2 ?_)
    simpa only [List.length_cons, Nat.add_assoc, Nat.add_comm 1] using h

/-- A piece that stays. -/
lemma append_same {R : Nat → Nat → Prop} {after before : Bool} {t u w : Text} {o o' : Nat}
    (hw : ∀ k < w.length, R (o + k) (o' + k))
    (h : Thinned R after false (o + w.length) (o' + w.length) t u) :
    Thinned R after before o o' (w ++ t) (w ++ u) := by
  induction w generalizing before o o' with
  | nil => exact h.weaken
  | cons c w ih =>
    refine .keep (.inr (hw 0 (by simp))) (ih (fun k hk => ?_) ?_)
    · simpa only [Nat.add_assoc, Nat.add_comm 1] using hw (k + 1) (by simpa using hk)
    · simpa only [List.length_cons, Nat.add_assoc, Nat.add_comm 1] using h

/-- Lines trimmed on the right are the lines with blanks left out, and every character that stays
keeps its position. -/
lemma ofLines_map_trimRight (ls : List Text) : ∀ n : Nat,
    Thinned (fun o o' => FlatText.locateFrom n ls o = FlatText.locateFrom n (ls.map trimRight) o')
      true true 0 0 (ofLines ls) (ofLines (ls.map trimRight)) := by
  induction ls with
  | nil => exact fun _ => .nil
  | cons l ls ih =>
    intro n
    obtain ⟨g, hg, hl⟩ := exists_trimRight_append l
    have hlength : (trimRight l).length + g.length = l.length := by
      rw [← List.length_append, hl]
    cases ls with
    | nil =>
      have hkeep : Thinned (fun o o' => FlatText.locateFrom n [l] o =
          FlatText.locateFrom n [trimRight l] o') true true 0 0 (trimRight l ++ (g ++ []))
          (trimRight l ++ []) :=
        append_same (fun _ _ => rfl) (append_gap hg rfl .nil)
      rw [List.append_nil, List.append_nil, hl] at hkeep
      rw [List.map_singleton, ofLines_singleton, ofLines_singleton]
      exact hkeep
    | cons l' ls =>
      rw [List.map_cons, List.map_cons, ofLines_cons_cons, ofLines_cons_cons]
      nth_rewrite 3 [← hl]
      rw [List.append_assoc]
      refine append_same (fun k hk => ?_) (append_gap hg rfl (.keep (.inl (by decide)) ?_))
      · rw [Nat.zero_add, FlatText.locateFrom, if_pos (by omega), FlatText.locateFrom,
          if_pos (by omega)]
      · have hshift := (ih (n + 1)).shift (S := fun o o' =>
            FlatText.locateFrom n (l :: l' :: ls) o =
              FlatText.locateFrom n (trimRight l :: (l' :: ls).map trimRight) o')
          (l.length + 1) ((trimRight l).length + 1) ?_
        · rw [hlength.symm] at hshift
          simpa [isBlank_of_isWhitespace, Nat.add_assoc] using hshift
        · intro o o' h
          rw [List.map_cons, FlatText.locateFrom, if_neg (by omega), FlatText.locateFrom,
            if_neg (by omega), Nat.add_sub_cancel, Nat.add_sub_cancel]
          exact h

end Text.Thinned

/-- Corresponding elements with the same values give the same list of values. -/
lemma mapIdx_eq_of_forall₂ {α β γ : Type*} {S : α → β → Prop} {l : List α} {r : List β}
    {f : Nat → α → γ} {g : Nat → β → γ} (hfg : ∀ i a b, S a b → f i a = g i b)
    (h : List.Forall₂ S l r) : l.mapIdx f = r.mapIdx g := by
  induction h generalizing f g with
  | nil => rfl
  | cons hab _ ih =>
    rw [List.mapIdx_cons, List.mapIdx_cons, hfg 0 _ _ hab, ih fun i a b => hfg (i + 1) a b]

/-- Loops that correspond have the same positions. -/
lemma Loop.ofSpan_eq {flat flat' : FlatText} {span span' : LoopSpan}
    (h : LoopSpan.Matches (fun o o' => flat.locate o = flat'.locate o') span span') (index : Nat) :
    Loop.ofSpan flat span index = Loop.ofSpan flat' span' index := by
  have hmap : ∀ x y : Option Nat, Option.Rel (fun o o' => flat.locate o = flat'.locate o') x y →
      x.map flat.locate = y.map flat'.locate := by
    rintro x y (hxy | _)
    · exact congrArg some hxy
    · rfl
  have hline : ∀ (f : FlatText) (x : Option Nat),
      (x.map fun offset => (f.locate offset).line) = (x.map f.locate).map Position.line := by
    intro f x
    rw [Option.map_map]
    rfl
  rw [Loop.ofSpan, Loop.ofSpan, hline, hline, hmap _ _ h.brace, hmap _ _ h.bodyEnd, h.headerText,
    h.bareBody, h.keyword, h.parenClose]

/-- **Trimming the lines of code on the right changes no loop.** -/
theorem Loop.findInCode_map_trimRight (code : List Text) (start : Nat) :
    Loop.findInCode (code.map Text.trimRight) start = Loop.findInCode code start := by
  have h := (Text.Thinned.ofLines_map_trimRight (code.drop start) start).spans
  rw [Loop.findInCode, Loop.findInCode, ← List.map_drop]
  refine (mapIdx_eq_of_forall₂ (fun index span span' hspan => ?_) h).symm
  apply ofSpan_eq
  simp only [FlatText.locate_eq_locateFrom]
  exact hspan

end ShaderProbe
