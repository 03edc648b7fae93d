import Mathlib
import ShaderProbe.Proofs.CapPlaces
import ShaderProbe.Proofs.CopyReturns

/-!
# Captured return values

A helper that is probed at a `return` gets a copy in which the word `return` is exchanged for the
declaration of a variable, and a line behind it returns that variable.

* The word is exchanged at its first occurrence on the line where the statement starts, and a
  comment may hold that occurrence (`Comment.exists_blankLine_replaceWord`).
* Capping the loops in front of the statement leaves the statement and what it is the body of as
  they are (`Cap.exists_statement_of_apply`), and so does the new header
  (`Variant.exists_code_of_renameHeader`).
* Hence the declaration is the unbraced body of a condition exactly if the `return` was
  (`Probe.exists_declaration_of_copy`).
-/

namespace ShaderProbe

/-! ### The first occurrence of a word -/

namespace Text

variable {w p t : Text}

/-- A text whose last character belongs to no word, without its first character. -/
lemma startsWord_reverse_of_cons {c : Char} (h : startsWord (c :: p).reverse = false) :
    startsWord p.reverse = false := by
  rw [List.reverse_cons] at h
  cases hrev : p.reverse with
  | nil => rfl
  | cons d r =>
    rw [hrev] at h
    exact h

/-- A word is read in front of a place between words whatever stands behind the place. -/
lemma readWord?_append (hw : isIdent w = true) (hp : p ≠ []) (hend : startsWord p.reverse = false)
    (t : Text) : readWord? w (p ++ t) = (readWord? w p).map (· ++ t) := by
  have hchars := isWordChar_of_isIdent hw
  -- the word does not reach to the place
  have hlast : ∀ x y : Text, w = x ++ y → ∀ z, p = z ++ x → x = [] := by
    rintro x y rfl z rfl
    rcases List.eq_nil_or_concat x with rfl | ⟨x, c, rfl⟩
    · rfl
    · rw [List.concat_eq_append, List.reverse_append, List.reverse_append] at hend
      exact absurd (hchars c (by simp)) (by rw [show isWordChar c = false from hend]; simp)
  cases hread : readLiteral? w p with
  | some rest =>
    have hsplit := readLiteral?_eq_some_iff.mp hread
    have hrest : rest ≠ [] := by
      rintro rfl
      have := hlast w [] (List.append_nil w).symm [] (by rw [hsplit, List.append_nil]; rfl)
      rw [this] at hw
      exact absurd hw (by decide)
    obtain ⟨c, r, rfl⟩ := List.exists_cons_of_ne_nil hrest
    have hlong : readLiteral? w (p ++ t) = some (c :: (r ++ t)) :=
      readLiteral?_eq_some_iff.mpr (by rw [hsplit, List.append_assoc, List.cons_append])
    rw [readWord?, readWord?, hread, hlong, Option.filter_some, Option.filter_some, startsWord,
      startsWord]
    by_cases hc : isWordChar c = true <;> simp [hc]
  | none =>
    have hnone : readLiteral? w (p ++ t) = none := by
      rw [Option.eq_none_iff_forall_ne_some]
      intro rest hrest
      rcases List.append_eq_append_iff.mp (readLiteral?_eq_some_iff.mp hrest) with
        ⟨x, hx, -⟩ | ⟨x, hx, -⟩
      · exact hp (hlast p x hx [] rfl)
      · rw [readLiteral?_eq_some_iff.mpr hx] at hread
        exact absurd hread (by simp)
    rw [readWord?, readWord?, hread, hnone]
    rfl

/-- **The first occurrence of a word in two texts** is in the first one, or the first one of the
second. -/
lemma splitAtWordFrom_append (hw : isIdent w = true) (t : Text) :
    ∀ (p : Text) (inWord : Bool), startsWord p.reverse = false → (p = [] → inWord = false) →
      splitAtWordFrom w inWord (p ++ t) = match splitAtWordFrom w inWord p with
        | some (front, rest) => some (front, rest ++ t)
        | none => (splitAtWord w t).map fun (front, rest) => (p ++ front, rest) := by
  intro p
  induction p with
  | nil =>
    intro inWord _ hin
    rw [hin rfl, List.nil_append, splitAtWordFrom, splitAtWord]
    simp
  | cons c p ih =>
    intro inWord hend _
    have hrest := ih (isWordChar c) (startsWord_reverse_of_cons hend) (by rintro rfl; exact hend)
    have hread := readWord?_append hw (List.cons_ne_nil c p) hend t
    rw [List.cons_append] at hread ⊢
    rw [splitAtWordFrom, splitAtWordFrom, hread, hrest]
    cases inWord with
    | true =>
      cases splitAtWordFrom w (isWordChar c) p with
      | some found => rfl
      | none => simp [Function.comp_def]
    | false =>
      cases readWord? w (c :: p) with
      | some rest => rfl
      | none =>
        cases splitAtWordFrom w (isWordChar c) p with
        | some found => rfl
        | none => simp [Function.comp_def]

/-- **The first of a word is exchanged**: the one in front of a place, if there is one, and the one
right behind the place otherwise. -/
lemma replaceWord_append (hw : isIdent w = true) (hend : startsWord p.reverse = false) {v : Text}
    (hv : startsWord v = false) (new : Text) :
    (hasWord w p = false ∧ replaceWord w new (p ++ (w ++ v)) = p ++ (new ++ v)) ∨
      ∃ front rest, hasWord w p = true ∧ p = front ++ (w ++ rest) ∧
        replaceWord w new (p ++ (w ++ v)) = front ++ (new ++ (rest ++ (w ++ v))) := by
  have hne : w ≠ [] := by
    rintro rfl
    exact absurd hw (by decide)
  have hfirst : splitAtWord w (w ++ v) = some ([], v) := by
    obtain ⟨c, u, rfl⟩ := List.exists_cons_of_ne_nil hne
    have hread : readWord? (c :: u) (c :: (u ++ v)) = some v := by
      rw [readWord?, readLiteral?_eq_some_iff.mpr (rfl : c :: (u ++ v) = (c :: u) ++ v)]
      simp [hv]
    rw [splitAtWord, List.cons_append, splitAtWordFrom]
    simp [hread]
  have hsplit := splitAtWordFrom_append hw (w ++ v) p false hend fun _ => rfl
  rw [hfirst] at hsplit
  cases hfound : splitAtWordFrom w false p with
  | none =>
    rw [hfound] at hsplit
    refine .inl ⟨by rw [hasWord, splitAtWord, hfound]; rfl, ?_⟩
    rw [replaceWord, splitAtWord, hsplit]
    simp
  | some found =>
    rw [hfound] at hsplit
    refine .inr ⟨found.1, found.2, by rw [hasWord, splitAtWord, hfound]; rfl,
      (append_of_splitAtWordFrom hfound).symm, ?_⟩
    rw [replaceWord, splitAtWord, hsplit]
    simp

end Text

/-! ### A word of the code of a line -/

namespace Comment

variable {inBlock : Bool} {l gap r : Text} {c : Char}

/-- A character of the code stands where the line has it, and the line is read from there on as
code. -/
lemma exists_of_blankLine (h : (blankLine inBlock l).1 = gap ++ c :: r) (hc : c ≠ ' ') :
    ∃ p v, l = p ++ c :: v ∧ p.length = gap.length ∧ blankLine inBlock p = (gap, false) ∧
      hasLineComment inBlock p = false ∧ r = (blankLine false v).1 ∧
      (blankLine inBlock l).2 = (blankLine false v).2 := by
  fun_induction hasLineComment inBlock l generalizing gap with
  | case1 x d l hmark ih =>
    rw [blankLine_close hmark] at h ⊢
    rcases gap with _ | ⟨g, _ | ⟨g', gap⟩⟩
    · exact absurd (List.cons.inj h).1.symm hc
    · exact absurd (List.cons.inj (List.cons.inj h).2).1.symm hc
    · obtain ⟨rfl, htail⟩ := List.cons.inj h
      obtain ⟨rfl, hrest⟩ := List.cons.inj htail
      obtain ⟨p, v, rfl, hlength, hp, hline, hr, hflag⟩ := ih hrest
      refine ⟨x :: d :: p, v, rfl, by simp [hlength], by rw [blankLine_close hmark, hp], ?_, hr, hflag⟩
      rw [hasLineComment, if_pos rfl, if_pos hmark, hline]
  | case2 x d l hmark ih =>
    rw [blankLine_inside hmark] at h ⊢
    cases gap with
    | nil => exact absurd (List.cons.inj h).1.symm hc
    | cons g gap =>
      obtain ⟨rfl, hrest⟩ := List.cons.inj h
      obtain ⟨p, v, heq, hlength, hp, hline, hr, hflag⟩ := ih hrest
      cases p with
      | nil => exact absurd (Prod.mk.inj hp).2 (by simp)
      | cons y p =>
        obtain ⟨rfl, rfl⟩ := List.cons.inj heq
        refine ⟨x :: d :: p, v, rfl, by simpa using
          hlength, by rw [blankLine_inside hmark, hp], ?_, hr, hflag⟩
        rw [hasLineComment, if_pos rfl, if_neg hmark, hline]
  | case3 inBlock x d l hblock hline =>
    rw [Bool.not_eq_true] at hblock
    subst hblock
    rw [blankLine_line hline] at h
    exact absurd h.symm (by simp)
  | case4 inBlock x d l hblock hline hopen ih =>
    rw [Bool.not_eq_true] at hblock
    subst hblock
    rw [blankLine_open hopen] at h ⊢
    rcases gap with _ | ⟨g, _ | ⟨g', gap⟩⟩
    · exact absurd (List.cons.inj h).1.symm hc
    · exact absurd (List.cons.inj (List.cons.inj h).2).1.symm hc
    · obtain ⟨rfl, htail⟩ := List.cons.inj h
      obtain ⟨rfl, hrest⟩ := List.cons.inj htail
      obtain ⟨p, v, rfl, hlength, hp, hcomment, hr, hflag⟩ := ih hrest
      refine ⟨x :: d :: p, v, rfl, by simp [hlength], by rw [blankLine_open hopen, hp], ?_, hr, hflag⟩
      rw [hasLineComment, if_neg (by simp), if_neg hline, if_pos hopen, hcomment]
  | case5 inBlock x d l hblock hline hopen ih =>
    rw [Bool.not_eq_true] at hblock
    subst hblock
    rw [blankLine_code hline hopen] at h ⊢
    cases gap with
    | nil =>
      obtain ⟨rfl, hr⟩ := List.cons.inj h
      exact ⟨[], d :: l, rfl, rfl, rfl, rfl, hr.symm, rfl⟩
    | cons g gap =>
      obtain ⟨rfl, hrest⟩ := List.cons.inj h
      obtain ⟨p, v, heq, hlength, hp, hcomment, hr, hflag⟩ := ih hrest
      refine ⟨x :: p, v, by rw [heq, List.cons_append], by simp [hlength], ?_, ?_, hr, hflag⟩
      · cases p with
        | nil =>
          obtain ⟨rfl, -⟩ := Prod.mk.inj hp
          rfl
        | cons y p =>
          obtain ⟨rfl, -⟩ := List.cons.inj heq
          rw [blankLine_code hline hopen, hp]
      · cases p with
        | nil => rfl
        | cons y p =>
          obtain ⟨rfl, -⟩ := List.cons.inj heq
          rw [hasLineComment, if_neg (by simp), if_neg hline, if_neg hopen, hcomment]
  | case6 l inBlock hshort =>
    rcases eq_nil_or_singleton hshort with rfl | ⟨x, rfl⟩
    · exact absurd h.symm (by simp [blankLine])
    · rw [blankLine] at h ⊢
      obtain ⟨rfl, h⟩ := List.append_eq_singleton_iff.mp h.symm |>.resolve_right (by simp)
      obtain ⟨rfl, rfl⟩ := List.cons.inj h
      cases inBlock with
      | true => exact absurd rfl hc
      | false => exact ⟨[], [], rfl, rfl, rfl, rfl, rfl, rfl⟩

/-- A text at the start of the code is the start of the line. -/
lemma exists_append_of_blankLine {w : Text} (hw : ∀ c ∈ w, c ≠ ' ')
    (h : (blankLine false l).1 = w ++ r) :
    ∃ v, l = w ++ v ∧ r = (blankLine false v).1 ∧
      (blankLine false l).2 = (blankLine false v).2 := by
  induction w generalizing l with
  | nil => exact ⟨l, rfl, h.symm, rfl⟩
  | cons c w ih =>
    obtain ⟨p, v, rfl, hlength, -, -, hrest, hflag⟩ :=
      exists_of_blankLine (show (blankLine false l).1 = [] ++ c :: (w ++ r) from h)
        (hw c List.mem_cons_self)
    obtain rfl := List.length_eq_zero_iff.mp hlength
    obtain ⟨v, rfl, hr, hflag'⟩ := ih (fun x hx => hw x (List.mem_cons_of_mem c hx)) hrest.symm
    exact ⟨v, rfl, hr, hflag.trans hflag'⟩

/-- **The first word of the code** is a word of the line. -/
lemma exists_word_of_blankLine {w : Text} (hw : Text.isIdent w = true)
    (hgap : Text.isBlankOnly gap = true) (h : (blankLine inBlock l).1 = gap ++ (w ++ r))
    (hr : Text.startsWord r = false) :
    ∃ p v, l = p ++ (w ++ v) ∧ p.length = gap.length ∧ blankLine inBlock p = (gap, false) ∧
      hasLineComment inBlock p = false ∧ r = (blankLine false v).1 ∧
      (blankLine inBlock l).2 = (blankLine false v).2 ∧ Text.startsWord p.reverse = false ∧
      Text.startsWord v = false := by
  have hchars := Text.isWordChar_of_isIdent hw
  have hspace : ∀ c ∈ w, c ≠ ' ' := by
    rintro c hc rfl
    exact absurd (hchars ' ' hc) (by decide)
  obtain ⟨c, u, rfl⟩ : ∃ c u, w = c :: u := List.exists_cons_of_ne_nil (by
    rintro rfl
    exact absurd hw (by decide))
  obtain ⟨p, v, rfl, hlength, hp, hline, hrest, hflag⟩ :=
    exists_of_blankLine h (hspace c List.mem_cons_self)
  obtain ⟨v, rfl, rfl, hflag'⟩ := exists_append_of_blankLine
    (fun x hx => hspace x (List.mem_cons_of_mem c hx)) hrest.symm
  refine ⟨p, v, rfl, hlength, hp, hline, rfl, hflag.trans hflag', ?_, ?_⟩
  · -- a word character in front of the word would be one of the code
    rcases List.eq_nil_or_concat p with rfl | ⟨q, d, rfl⟩
    · rfl
    rw [List.concat_eq_append] at hp hlength ⊢
    rw [List.reverse_append]
    change isWordChar d = false
    by_contra hd
    rw [Bool.not_eq_false] at hd
    have hseam : Seam q [d] := by
      rintro x - y ⟨⟩
      have hmark : d ≠ '/' ∧ d ≠ '*' := by
        constructor <;> rintro rfl <;> exact absurd hd (by decide)
      simp [isMark, opens, hmark]
    rw [blankLine_append inBlock q [d] hseam] at hp
    split at hp
    · have hle : gap.length ≤ q.length := by
        have := length_blankLine_le inBlock q
        rwa [hp] at this
      rw [List.length_append, List.length_singleton] at hlength
      omega
    · obtain ⟨hcode, hopen⟩ := Prod.mk.inj hp
      have hfree : isMarkFree [d] = true := rfl
      rw [blankLine_of_isMarkFree hfree] at hcode hopen
      rw [show (blankLine inBlock q).2 = false from hopen] at hcode
      have hmem : d ∈ gap := by
        rw [← hcode]
        simp
      exact absurd (isBlank_eq_false_of_isWordChar hd)
        (by rw [Text.isBlankOnly_iff.mp hgap d hmem]; simp)
  · cases v with
    | nil => rfl
    | cons d v =>
      change isWordChar d = false
      by_contra hd
      rw [Bool.not_eq_false] at hd
      have hcode := blankLine_cons (c := d) (t := v) fun x _ => by
        have hslash : d ≠ '/' := by rintro rfl; exact absurd hd (by decide)
        simp [opens, hslash]
      rw [hcode] at hr
      exact absurd hd (by rw [show isWordChar d = false from hr]; simp)

/-- A solid text in a line of comments and code is blanked as a whole or not at all. -/
lemma blankLine_append_isSolid {w : Text} (hw : isSolid w = true) {s : Text}
    (hs : hasLineComment inBlock s = false) (t : Text) :
    blankLine inBlock (s ++ (w ++ t)) =
      ((blankLine inBlock s).1 ++ ((w.map fun c => if (blankLine inBlock s).2 then ' ' else c) ++
        (blankLine (blankLine inBlock s).2 t).1), (blankLine (blankLine inBlock s).2 t).2) := by
  have hinset := isInset_of_isSolid hw
  rw [blankLine_append _ _ _ (seam_append_of_isSolid hw s t), if_neg (by simp [hs]),
    blankLine_append _ _ _ (hinset.seam t),
    if_neg (by simp [hasLineComment_of_isMarkFree hinset.isMarkFree]),
    blankLine_of_isMarkFree hinset.isMarkFree]

/-- **The code of a line in which a word is exchanged.**  The word is the first one of the code.  It
is the one that is exchanged, unless a comment in front of it holds the word. -/
lemma exists_blankLine_replaceWord {w new : Text} (hw : Text.isIdent w = true)
    (hnew : isSolid new = true) (hgap : Text.isBlankOnly gap = true)
    (h : (blankLine inBlock l).1 = gap ++ (w ++ r)) (hr : Text.startsWord r = false) :
    ∃ gap', Text.isBlankOnly gap' = true ∧ blankLine inBlock (Text.replaceWord w new l) =
      (gap' ++ ((if Text.hasWord w (l.take gap.length) then w else new) ++ r),
        (blankLine inBlock l).2) := by
  have hsolid := isSolid_of_isIdent hw
  obtain ⟨p, v, rfl, hlength, hp, hline, rfl, hflag, hend, hstart⟩ :=
    exists_word_of_blankLine hw hgap h hr
  rw [← hlength, List.take_left]
  rcases Text.replaceWord_append hw hend hstart new
    with ⟨hnone, hreplace⟩ | ⟨s, x, hsome, rfl, hreplace⟩
  · refine ⟨gap, hgap, ?_⟩
    rw [hreplace, blankLine_append_isSolid hnew hline, hp, hnone, hflag]
    simp
  · -- the comment is open in front of the word that is exchanged
    have hfront : hasLineComment inBlock s = false := by
      by_contra hcomment
      rw [Bool.not_eq_false] at hcomment
      rw [blankLine_append _ _ _ (seam_append_of_isSolid hsolid s x), if_pos hcomment] at hp
      have hle : gap.length ≤ s.length := by
        have := length_blankLine_le inBlock s
        rwa [hp] at this
      have hpos := List.length_pos_iff.mpr (ne_nil_of_isSolid hsolid)
      rw [List.length_append, List.length_append] at hlength
      omega
    have hopen : (blankLine inBlock s).2 = true := by
      by_contra hclosed
      rw [Bool.not_eq_true] at hclosed
      rw [blankLine_append_isSolid hsolid hfront, hclosed] at hp
      obtain ⟨c, u, rfl⟩ := List.exists_cons_of_ne_nil (ne_nil_of_isSolid hsolid)
      have hmem : c ∈ gap := by
        rw [← (Prod.mk.inj hp).1]
        simp
      exact absurd (Text.isBlankOnly_iff.mp hgap c hmem) (by
        rw [isBlank_eq_false_of_isWordChar (Text.isWordChar_of_isIdent hw c List.mem_cons_self)]
        simp)
    rw [blankLine_append_isSolid hsolid hfront, hopen] at hp
    obtain ⟨rfl, -⟩ := Prod.mk.inj hp
    have hassoc : s ++ (w ++ x) ++ (w ++ v) = s ++ (w ++ (x ++ (w ++ v))) := by simp
    rw [hassoc] at hreplace h ⊢
    rw [blankLine_append_isSolid hsolid hfront, hopen] at h ⊢
    have hrest : (blankLine true (x ++ (w ++ v))).1 =
        (blankLine true x).1 ++ (w ++ (blankLine false v).1) := by
      simpa using h
    refine ⟨(blankLine inBlock s).1 ++ ((new.map fun c => if true then ' ' else c) ++
      (blankLine true x).1), ?_, ?_⟩
    · simp only [Text.isBlankOnly_append, Bool.and_eq_true] at hgap ⊢
      refine ⟨hgap.1, Text.isBlankOnly_iff.mpr fun c hc => ?_, hgap.2.2⟩
      obtain ⟨d, -, rfl⟩ := List.mem_map.mp hc
      exact (by decide : isBlank ' ' = true)
    · rw [hreplace, blankLine_append_isSolid hnew hfront, hopen, hrest, hsome, if_pos rfl]
      simp only [List.append_assoc]

end Comment

/-! ### The code of the lines that are kept -/

namespace Text

/-- What follows the first line does not depend on it. -/
lemma exists_ofLines_cons (ls : List Text) :
    ∃ tail, (tail = [] ∨ ∃ u, tail = '\n' :: u) ∧ ∀ l, ofLines (l :: ls) = l ++ tail := by
  cases ls with
  | nil => exact ⟨[], .inl rfl, fun l => by rw [ofLines_singleton, List.append_nil]⟩
  | cons l' ls => exact ⟨_, .inr ⟨_, rfl⟩, fun l => ofLines_cons_cons l l' ls⟩

/-- A front that holds a character reaches at least to the first of it. -/
lemma exists_of_isPrefix_of_mem {front s t : Text} {c : Char} (h : front <+: s ++ c :: t)
    (hc : c ∈ front) (hs : c ∉ s) : ∃ t', front = s ++ c :: t' := by
  rcases List.prefix_or_prefix_of_prefix h (List.prefix_append s (c :: t)) with hle | ⟨x, rfl⟩
  · exact absurd (hle.subset hc) hs
  · cases x with
    | nil => exact absurd (by simpa using hc) hs
    | cons d x =>
      obtain ⟨rfl, -⟩ := List.cons_prefix_cons.mp ((List.prefix_append_right_inj s).mp h)
      exact ⟨x, rfl⟩

/-- The characters of lines. -/
lemma mem_ofLines {ls : List Text} {n : Nat} {l : Text} {c : Char} (hl : ls[n]? = some l)
    (hc : c ∈ l) : c ∈ ofLines ls := by
  obtain ⟨k, hk, hget⟩ := List.mem_iff_getElem.mp hc
  exact List.mem_of_getElem? ((FlatText.getElem?_ofLines hl hk).trans
    ((List.getElem?_eq_getElem hk).trans (congrArg some hget)))

/-- The lines up to one that holds a character reach at least to the first of it. -/
lemma exists_ofLines_take {ls : List Text} {n : Nat} {l s t : Text} {c : Char}
    (h : ofLines ls = s ++ c :: t) (hl : ls[n]? = some l) (hc : c ∈ l) (hs : c ∉ s) :
    ∃ t', ofLines (ls.take (n + 1)) = s ++ c :: t' := by
  have hprefix := ofLines_take_isPrefix ls (n + 1)
  rw [h] at hprefix
  have hkept : (ls.take (n + 1))[n]? = some l := by
    rw [List.getElem?_take_of_lt (Nat.lt_succ_self n), hl]
  exact exists_of_isPrefix_of_mem hprefix (mem_ofLines hkept hc) hs

/-- A text without a line break in front of some lines stands on the first of them. -/
lemma exists_of_append_tail {l w s tail : Text} (h : l ++ tail = w ++ s)
    (htail : tail = [] ∨ ∃ u, tail = '\n' :: u) (hw : '\n' ∉ w) :
    ∃ r, l = w ++ r ∧ r ++ tail = s := by
  have hprefix : w <+: l := by
    have hwhole : w <+: l ++ tail := ⟨s, h.symm⟩
    rcases htail with rfl | ⟨u, rfl⟩
    · rwa [List.append_nil] at hwhole
    · exact isPrefix_of_not_mem hwhole hw
  obtain ⟨r, rfl⟩ := hprefix
  exact ⟨r, rfl, List.append_cancel_left ((List.append_assoc w r tail).symm.trans h)⟩

/-- The front of a text that starts with no word starts with none. -/
lemma startsWord_of_append_eq {r tail e t : Text} {c : Char} (h : r ++ tail = e ++ c :: t)
    (he : startsWord e = false) (hc : isWordChar c = false) : startsWord r = false := by
  cases r with
  | nil => rfl
  | cons d r =>
    cases e with
    | nil =>
      obtain ⟨rfl, -⟩ := List.cons.inj h
      exact hc
    | cons d' e =>
      obtain ⟨rfl, -⟩ := List.cons.inj h
      exact he

end Text

/-- The code of the first lines. -/
lemma Comment.blankFrom_take (ls : List Text) (n : Nat) :
    blankFrom false (ls.take n) = (blankFrom false ls).take n := by
  rcases Nat.lt_or_ge n ls.length with hlt | hge
  · exact (blankFrom_split (List.getElem?_eq_getElem hlt)).2.1.symm
  · rw [List.take_of_length_le hge, List.take_of_length_le (by rwa [length_blankFrom])]

/-- The code of lines of which one is exchanged for a line that leaves a comment open as before. -/
lemma Comment.blankFrom_modify {ls : List Text} {n : Nat} {l : Text} {f : Text → Text}
    (hl : ls[n]? = some l) (hflag : (blankLine (isOpenAfter false (ls.take n)) (f l)).2 =
      (blankLine (isOpenAfter false (ls.take n)) l).2) :
    blankFrom false (ls.modify n f) = (blankFrom false ls).take n ++
      (blankLine (isOpenAfter false (ls.take n)) (f l)).1 :: (blankFrom false ls).drop (n + 1) := by
  obtain ⟨-, htake, hdrop⟩ := blankFrom_split hl
  obtain ⟨hn, hget⟩ := List.getElem?_eq_some_iff.mp hl
  rw [List.modify_eq_take_drop, List.drop_eq_getElem_cons hn, hget, List.modifyHead_cons,
    blankFrom_append, blankFrom, htake, hdrop, hflag]

/-- **The code of the lines of a captured `return`.**  The statement starts on the line `first` with
the word, and the lines are kept up to one with a `;`.  In the code the word is exchanged for the
declaration, unless a comment in front of it holds the word. -/
lemma Variant.exists_code_of_capture {lines : List Text} {start first last : Nat}
    {gap e rest new : Text} (hstart : start ≤ first) (hlast : first ≤ last)
    (hstatement : Text.ofLines ((Loop.blankCode lines start).drop (first - start)) =
      gap ++ ("return".toList ++ (e ++ ';' :: rest)))
    (hgap : Text.isBlankOnly gap = true) (hline : '\n' ∉ gap) (hword : Text.startsWord e = false)
    (hends : ';' ∉ e) (hnew : Comment.isSolid new = true)
    (hsemi : ∃ l, (Comment.blankFrom false lines)[last]? = some l ∧ ';' ∈ l) :
    ∃ (back : List Text) (gap' rest' : Text), Text.isBlankOnly gap' = true ∧ back ≠ [] ∧
      Loop.blankCode ((lines.modify first (Text.replaceWord "return" new)).take (last + 1)) start =
        (Loop.blankCode lines start).take (first - start) ++ back ∧
      Text.ofLines back = gap' ++ ((if Text.hasWord "return" ((lines.getD first []).take gap.length)
        then "return".toList else new) ++ (e ++ ';' :: rest')) := by
  obtain ⟨k, rfl⟩ := Nat.exists_eq_add_of_le hstart
  obtain ⟨m, rfl⟩ := Nat.exists_eq_add_of_le hlast
  obtain ⟨final, hfinal, hmem⟩ := hsemi
  have hlength := (List.getElem?_eq_some_iff.mp hfinal).1
  rw [Comment.length_blankFrom] at hlength
  set l := lines.getD (start + k) [] with hl
  have hget : lines[start + k]? = some l := by
    rw [hl, List.getD_eq_getElem?_getD, List.getElem?_eq_getElem (by omega), Option.getD_some]
  rw [Nat.add_sub_cancel_left] at hstatement ⊢
  obtain ⟨hcode, htake, hdrop⟩ := Comment.blankFrom_split hget
  set st := Comment.isOpenAfter false (lines.take (start + k)) with hst
  -- the code from the statement on
  set more := (Comment.blankFrom false lines).drop (start + k + 1) with hmore
  have hfirst : (Loop.blankCode lines start).drop k = (Comment.blankLine st l).1 :: more := by
    obtain ⟨hn, hcode'⟩ := List.getElem?_eq_some_iff.mp hcode
    rw [Loop.blankCode, List.drop_drop, List.drop_eq_getElem_cons hn, hcode']
  rw [hfirst] at hstatement
  -- the lines that are kept hold the `;`
  have hfree : ';' ∉ gap ++ ("return".toList ++ e) := by
    simp only [List.mem_append, not_or]
    refine ⟨fun hc => absurd (Text.isBlankOnly_iff.mp hgap _ hc) (by decide), by decide, hends⟩
  have hindex : ((Comment.blankLine st l).1 :: more)[m]? = some final := by
    rw [← hfirst, Loop.blankCode, List.getElem?_drop, List.getElem?_drop, ← Nat.add_assoc, hfinal]
  obtain ⟨rest', hkept⟩ := Text.exists_ofLines_take (t := rest)
    (s := gap ++ ("return".toList ++ e)) (by rw [hstatement]; simp) hindex hmem hfree
  -- the first line of the statement starts with the word
  obtain ⟨tail, htail, hlines⟩ := Text.exists_ofLines_cons (more.take m)
  rw [List.take_succ_cons, hlines, ← List.append_assoc gap, List.append_assoc] at hkept
  obtain ⟨r, hr, hrest⟩ := Text.exists_of_append_tail hkept htail (by simpa using hline)
  have hstartsWord := Text.startsWord_of_append_eq hrest hword (by decide)
  obtain ⟨gap', hgap', hreplaced⟩ := Comment.exists_blankLine_replaceWord
    (by decide : Text.isIdent "return" = true) hnew hgap (by rw [hr, List.append_assoc]) hstartsWord
  have hmodified := Comment.blankFrom_modify (f := Text.replaceWord "return" new) hget
    (by rw [← hst, hreplaced])
  rw [← hst, hreplaced] at hmodified
  set word := if Text.hasWord "return" (l.take gap.length) then "return".toList else new
  refine ⟨(gap' ++ (word ++ r)) :: more.take m, gap', rest', hgap', List.cons_ne_nil _ _, ?_, ?_⟩
  · have hlong : ((Comment.blankFrom false lines).take (start + k)).length = start + k := by
      rw [List.length_take, Comment.length_blankFrom]
      omega
    rw [Loop.blankCode, Comment.blankFrom_take, hmodified, Nat.add_assoc (start + k),
      List.take_append,
      hlong, Nat.add_sub_cancel_left, List.take_of_length_le (by rw [hlong]; omega),
      List.take_succ_cons, List.drop_append_of_le_length (by rw [hlong]; omega), List.drop_take,
      Nat.add_sub_cancel_left, Loop.blankCode]
  · rw [hlines, List.append_assoc, List.append_assoc, hrest]

/-! ### The code of the copy -/

/-- **A statement behind the last statement or block stays where it is when loops are capped.**  It
is the body of what it was the body of. -/
lemma Cap.exists_statement_of_apply {kept result : List Text} {start : Nat} {caps : Caps}
    (h : apply {} kept start caps = .ok result) {prior lead gap word e rest : Text} {c : Char}
    (hcode : Text.ofLines (Loop.blankCode kept start) =
      prior ++ c :: (lead ++ '\n' :: (gap ++ (word ++ (e ++ ';' :: rest)))))
    (hc : c ∈ [';', '{', '}']) (hlead : lead.IsStretch) (hgap : Text.isBlankOnly gap = true)
    (hword : word.IsStretch) (hink : ∃ d ∈ word.head?, isBlank d = false) (he : e.IsStretch)
    (hseam : Text.startsWord e = false) :
    ∃ front lead' rest', Text.IsEnded front ∧ Text.isBalanced lead' = true ∧
      LoopSpan.isBareBody lead'.reverse = LoopSpan.isBareBody lead.reverse ∧
      Text.ofLines (Loop.blankCode result start) =
        front ++ (lead' ++ (word ++ (e ++ ';' :: rest'))) := by
  have hnewline : Text.isBlankOnly ('\n' :: gap) = true := by
    rw [← List.singleton_append, Text.isBlankOnly_append, hgap]
    decide
  obtain ⟨whole, hwhole⟩ : ∃ whole, whole = lead ++ '\n' :: gap := ⟨_, rfl⟩
  have hstretch : whole.IsStretch := by
    rw [hwhole]
    exact hlead.append (Text.isStretch_of_isBlankOnly hnewline)
      (.inr (by decide : isWordChar '\n' = false))
  have hsplit := Text.indent_append_trimLeft whole
  have hindent := Text.isBlankOnly_indent whole
  have hrest : (Text.trimLeft whole).IsStretch := by
    rw [← hsplit] at hstretch
    exact hstretch.of_append hindent
  -- the line in front of the word is blank
  have hend : Text.startsWord (Text.trimLeft whole).reverse = false := by
    have hwords : Text.startsWord whole.reverse = false := by
      rw [hwhole, List.reverse_append]
      cases hrev : ('\n' :: gap).reverse with
      | nil => exact absurd hrev (by simp)
      | cons x xs =>
        exact Text.isWordChar_of_isBlankOnly hnewline x
          (List.mem_reverse.mp (hrev ▸ List.mem_cons_self))
    rw [← hsplit, List.reverse_append] at hwords
    cases hrev : (Text.trimLeft whole).reverse with
    | nil => rfl
    | cons x xs =>
      rw [hrev] at hwords
      exact hwords
  have hended : Text.IsEnded (prior ++ c :: Text.indent whole) := ⟨prior, c, _, rfl, hc, hindent⟩
  have hstretched : Text.ofLines (Loop.blankCode kept start) = (prior ++ c :: Text.indent whole) ++
      ((Text.trimLeft whole ++ (word ++ e)) ++ ';' :: rest) := by
    rw [hcode, show lead ++ '\n' :: (gap ++ (word ++ (e ++ ';' :: rest))) =
      whole ++ (word ++ (e ++ ';' :: rest)) by rw [hwhole]; simp]
    conv_lhs => rw [← hsplit]
    simp
  have hhead : ∃ d ∈ (Text.trimLeft whole ++ (word ++ e)).head?, isBlank d = false := by
    cases htrim : Text.trimLeft whole with
    | nil =>
      obtain ⟨d, hd, hblank⟩ := hink
      obtain ⟨u, rfl⟩ := List.head?_eq_some_iff.mp hd
      exact ⟨d, rfl, hblank⟩
    | cons d u =>
      have hd := List.head?_dropWhile_not isBlank whole
      rw [show whole.dropWhile isBlank = d :: u from htrim] at hd
      exact ⟨d, rfl, by simpa using hd⟩
  obtain ⟨front, rest', hfront, hresult⟩ := exists_code_of_apply h hstretched hended
    (hrest.append (hword.append he (.inr hseam)) (.inl hend)) hhead
  refine ⟨front, Text.trimLeft whole, rest', hfront, hrest.isBalanced, ?_, by rw [hresult]; simp⟩
  have hall : prior ++ c :: Text.indent whole ++ Text.trimLeft whole = prior ++ [c] ++ whole := by
    rw [List.append_assoc, List.cons_append, hsplit, List.append_assoc, List.singleton_append]
  have hreverse : whole.reverse = ('\n' :: gap).reverse ++ lead.reverse := by
    rw [hwhole, List.reverse_append]
  rw [← LoopSpan.isBareBody_append hended hrest.isBalanced, hall,
    LoopSpan.isBareBody_append ⟨prior, c, [], rfl, hc, rfl⟩ hstretch.isBalanced, hreverse,
    LoopSpan.isBareBody_gap (Text.isBlankOnly_reverse hnewline)]

namespace Variant

/-- **A header line that is renamed** changes the code in front of the first parenthesis only, so
what stands behind an ended front stays as it is. -/
lemma exists_code_of_renameHeader {line type name : Text} {body : List Text}
    (htype : Comment.isSolid type = true) (hname : Comment.isSolid name = true) {front rest : Text}
    (hfront : front.IsEnded)
    (hcode : Text.ofLines (Comment.blankFrom false (line :: body)) = front ++ rest) :
    ∃ front', Text.IsEnded front' ∧
      Text.ofLines (Comment.blankFrom false (renameHeader line type name :: body)) =
        front' ++ rest := by
  rw [renameHeader]
  cases hread : Header.read? line with
  | none => exact ⟨front, hfront, hcode⟩
  | some header =>
    obtain ⟨rfl, hheader⟩ := Header.read?_eq_some_iff.mp hread
    have hrenamed : ({ header with returnType := type, name } : Header).text =
        (header.lead ++ (type ++ (header.gap ++ (name ++ header.tail)))) ++ header.rest :=
      Header.text_eq _
    have hfree : Text.isFreeOf [';', '{', '}'] header.front = true := by
      refine Text.isFreeOf_iff.mpr fun c hc hmem => ?_
      have hcases := hheader.cases_of_mem_front hc
      simp only [List.mem_cons, List.not_mem_nil, or_false] at hmem
      rcases hmem with rfl | rfl | rfl <;> exact absurd hcases (by decide)
    dsimp only
    rw [Header.text_eq, Comment.blankFrom,
      (hheader.isInset (List.Subset.refl header.front)).blankLine_append] at hcode
    rw [hrenamed, Comment.blankFrom, (hheader.isInset_exchange htype hname).blankLine_append]
    obtain ⟨tail, -, hlines⟩ :=
      Text.exists_ofLines_cons (Comment.blankFrom (Comment.blankLine false header.rest).2 body)
    rw [hlines, List.append_assoc] at hcode
    obtain ⟨y, -, hy, hended⟩ := hfront.exists_of_append_eq hfree hcode
    exact ⟨_, hended.append_left _, by rw [hlines, List.append_assoc, hy, ← List.append_assoc]⟩

end Variant

namespace Probe

variable {lines : List Text} {function : Signature} {line last : Nat} {v : Variable} {s : Statement}
  {expression : Text}

/-- **At a `return` the captured value is shown**, with the type that the helper returns. -/
lemma shown_of_planLine (h : planLine {} lines function line = .ok (.value function line v last))
    (hfind : Statement.find ({} : Config).maxStatementLines (Comment.strip lines) line =
      .ok (some s)) (hreturned : Statement.returned? s.text = some expression) :
    v = ⟨({} : Config).captured, function.returnType⟩ := by
  obtain ⟨found, hfound, h⟩ := bind_eq_ok_iff.mp h
  have hshown : ∀ span, found.span? ≠ some span := by
    intro span hspan
    obtain ⟨s', hfind', -, hclassify⟩ := Target.find_of_classify hfound hspan
    obtain rfl := Option.some.inj (Except.ok.inj (hfind.symm.trans hfind'))
    rw [Statement.classify_of_returned? hreturned] at hclassify
    obtain rfl := Except.ok.inj hclassify
    exact absurd hspan (by simp [Classification.span?])
  cases found with
  | declaration shown first last => exact absurd rfl (hshown _)
  | assignment shown operator first last => exact absurd rfl (hshown _)
  | noMatch cause =>
    dsimp only at h
    split at h
    · exact absurd (Except.ok.inj h) (by simp)
    · obtain ⟨returned, -, h⟩ := bind_eq_ok_iff.mp h
      split at h
      · obtain ⟨-, -, rfl, -⟩ := Plan.value.inj (Except.ok.inj h)
        rfl
      · split at h <;> exact absurd (Except.ok.inj h) (by simp)

/-- The line on which the word `return` is exchanged. -/
lemma captureReturn_of_returned (htype : Text.isIdent v.type = true)
    (hname : v.name = ({} : Config).captured)
    (hfind : Statement.find ({} : Config).maxStatementLines (Comment.strip lines) line =
      .ok (some s)) (hreturned : Statement.returned? s.text = some expression) :
    Variant.captureReturn {} lines line v = .ok (lines.modify s.startLine
      (Text.replaceWord "return" (v.type ++ " _dbgReturn =".toList))) := by
  have hplain : ∀ {t : Text}, Text.isIdent t = true → '\\' ∉ t := fun ht hmem =>
    absurd (Text.isWordChar_of_isIdent ht _ hmem) (by decide)
  have hident : Text.isIdent v.name = true := by
    rw [hname]
    decide
  rw [Variant.captureReturn, if_pos hname, ReturnStatement.find_of_find hfind, hreturned,
    Variant.captureDeclaration_of_plain (hplain htype) (hplain hident), hname, List.append_assoc,
    List.append_assoc]
  rfl

/-- The declaration of a captured value is a stretch that holds no comment. -/
lemma isStretch_declaration {type : Text} (htype : Text.isIdent type = true)
    (hcontrol : type ∉ Header.controlKeywords) :
    Text.IsStretch (type ++ " _dbgReturn =".toList) ∧
      Comment.isSolid (type ++ " _dbgReturn =".toList) = true := by
  have hchars := Text.isWordChar_of_isIdent htype
  refine ⟨.append (Text.isStretch_of_plain (fun c hc hmem => ?_) fun keyword hkeyword => ?_) (by decide)
    (.inr (by decide)), Comment.isSolid_append (Comment.isSolid_of_isIdent htype) (by decide)⟩
  · have hword := hchars c hc
    simp only [List.mem_cons, List.not_mem_nil, or_false] at hmem
    rcases hmem with rfl | rfl | rfl | rfl | rfl <;> exact absurd hword (by decide)
  · have hall : ∀ keyword ∈ LoopSpan.keywords, keyword ∈ Header.controlKeywords := by decide
    rw [Text.countWord_of_word hchars, if_neg]
    rintro rfl
    exact hcontrol (hall _ hkeyword)

end Probe

/-- The type of a function is no control word. -/
lemma Outline.returnType_not_mem {lines : List Text} {f : Signature} (h : f ∈ functions {} lines) :
    f.returnType ∉ Header.controlKeywords := by
  obtain ⟨header, more, list, -, -, hfunction, -, hf⟩ :=
    Signature.exists_of_ofCode? (ofCode?_of_mem_functionsFrom h)
  rw [hf]
  exact (Header.isFunction_iff.mp hfunction).1

/-- The code of a function, as read by itself. -/
lemma Loop.blankCode_of_take {lines : List Text} {start : Nat}
    (h : Comment.isOpenAfter false (lines.take start) = false) :
    blankCode lines start = Comment.blankFrom false (lines.drop start) := by
  rcases Nat.le_total start lines.length with hle | hle
  · conv_lhs => rw [← List.take_append_drop start lines]
    rw [blankCode, Comment.blankFrom_append, h, List.drop_left' (by simpa using hle)]
  · rw [blankCode, List.drop_eq_nil_of_le (by simpa using hle), List.drop_eq_nil_of_le hle]
    rfl

/-- The lines that are kept if no loop is around the statement. -/
lemma Variant.apply_of_truncated {settings : Settings} {lines kept : List Text}
    {function : Signature} {statementEnd : Nat} {shown : Variable} {value : Text}
    (h : truncated {} settings lines function statementEnd shown [] = .ok (kept, value)) :
    Cap.apply {} (lines.take (statementEnd + 1)) function.startLine settings.caps = .ok kept := by
  obtain ⟨⟨marked, shadow⟩, hinsert, h⟩ := bind_eq_ok_iff.mp h
  obtain ⟨capped, hcapped, h⟩ := bind_eq_ok_iff.mp h
  obtain ⟨rfl, -⟩ := Prod.mk.inj (Except.ok.inj h)
  obtain ⟨rfl, -⟩ := Prod.mk.inj (Except.ok.inj hinsert)
  exact hcapped

namespace Probe

/-- **The declaration of a captured value.**  Let a helper be probed at a `return` outside of loops
that stands in front on its line, and let `lead` be the code between the last `;` or brace in front
of it and its line.  The code of the copy is a front, the statement with its `return` exchanged, and
what shares the last line of the statement.  If a comment in front of the `return` on its line holds
that word, the `return` of the code stays.  The statement is the unbraced body of a condition in the
copy exactly if it is in the source. -/
theorem exists_declaration_of_copy {settings : Variant.Settings} {source answer : Text} {line : Int}
    {shown : Option Text} {function : Signature} {target last : Nat} {v : Variable} {s : Statement}
    {expression prior lead gap e rest : Text} {c : Char}
    (hplan : plan {} (Text.lines source) line shown = .ok (.value function target v last))
    (hhelper : function.isEntryPoint {} = false)
    (hanswer : instrument {} settings source line shown = .ok (some answer))
    (hfind : Statement.find ({} : Config).maxStatementLines (Comment.strip (Text.lines source))
      target = .ok (some s))
    (hreturned : Statement.returned? s.text = some expression)
    (hloops : loopsAround {} (Text.lines source) function target = .ok [])
    (hopen : Comment.isOpenAfter false ((Text.lines source).take function.startLine) = false)
    (hfront : Text.ofLines ((Loop.blankCode (Text.lines source) function.startLine).take
      (s.startLine - function.startLine)) = prior ++ c :: lead)
    (hstatement : Text.ofLines ((Loop.blankCode (Text.lines source) function.startLine).drop
      (s.startLine - function.startLine)) = gap ++ ("return".toList ++ (e ++ ';' :: rest)))
    (hc : c ∈ [';', '{', '}']) (hlead : lead.IsStretch) (hgap : Text.isBlankOnly gap = true)
    (hline : '\n' ∉ gap) (he : e.IsStretch) (hword : Text.startsWord e = false) :
    ∃ (own body : List Text) (closers closers' : Nat) (front rest' : Text),
      Variant.functionLines (Text.lines source) function = .ok own ∧
      Text.lines answer = Variant.linesBefore {} (Text.lines source) function ++ (own ++ ([] ::
        ((body ++ "  return _dbgReturn;".toList :: List.replicate closers ['}']) ++ ([] ::
          ((Variant.callingEntryPoint {} settings (({} : Config).copyStem ++ function.name)
            function.parameters function.returnType).flatMap Text.lines ++
              List.replicate closers' ['}']))))) ∧
      Text.ofLines (Comment.blankFrom false body) = front ++
        ((if Text.hasWord "return" (((Text.lines source).getD s.startLine []).take gap.length) then
            "return".toList
          else function.returnType ++ " _dbgReturn =".toList) ++ (e ++ ';' :: rest')) ∧
      LoopSpan.isBareBody front.reverse = LoopSpan.isBareBody (prior ++ c :: lead).reverse := by
  have hrun := hanswer
  rw [instrument_eq_run, hplan] at hrun
  rcases exists_plan (Text.lines source) line shown with
    hnothing | ⟨target', function', p, -, hfunction, hplanLine, hplan', hfor⟩
  · exact absurd (hplan.symm.trans hnothing) (by simp)
  obtain rfl := Except.ok.inj (hplan.symm.trans hplan')
  cases hfor with
  | @value _ s' hfind' hshown hknown hcapture =>
  obtain rfl := Option.some.inj (Except.ok.inj (hfind.symm.trans hfind'))
  have hmem := Outline.mem_of_enclosingIn? hfunction
  have hlines : ∀ l ∈ Text.lines source, '\n' ∉ l := fun l hl => Text.not_mem_lines hl
  have hplain := Outline.isPlain_of_mem_functions hmem
  obtain rfl := shown_of_planLine hplanLine hfind hreturned
  obtain ⟨loops, hloops', hshow⟩ := bind_eq_ok_iff.mp (map_some_eq_ok_iff.mp hrun)
  obtain rfl := Except.ok.inj (hloops.symm.trans hloops')
  rw [if_neg (Bool.eq_false_iff.mp hhelper)] at hshow
  obtain ⟨working, own, copy, closers', hworking, hcopy, hown, hanswerLines⟩ :=
    Variant.exists_lines_of_helper hlines hplain.name hshown hcapture hshow
  have htype : Text.isIdent function.returnType = true := hplain.returnType
  obtain rfl := Except.ok.inj (hworking.symm.trans
    (captureReturn_of_returned htype rfl hfind hreturned))
  obtain ⟨kept, value, header, body, closers, hkept, hdrop, -, rfl⟩ :=
    Variant.exists_of_debugCopy hcopy
  obtain rfl := Variant.value_of_truncated hkept
  have happly := Variant.apply_of_truncated hkept
  obtain ⟨hdeclaration, hsolid⟩ := isStretch_declaration htype (Outline.returnType_not_mem hmem)
  -- the statement stands on a line behind the header
  have hnil : (Loop.blankCode (Text.lines source) function.startLine).take
      (s.startLine - function.startLine) ≠ [] := by
    intro hnil
    rw [hnil] at hfront
    exact absurd hfront (by simp [Text.ofLines])
  have hstart : function.startLine < s.startLine := by
    by_contra hle
    rw [Nat.sub_eq_zero_of_le (Nat.le_of_not_lt hle)] at hnil
    exact hnil rfl
  obtain ⟨-, -, -, hfirst, hend, -, -⟩ := Statement.bounds_of_find hfind
  obtain ⟨l, hl, hsemi⟩ := Statement.exists_semicolon_of_endAt (Statement.endAt_of_find hfind)
  -- the code of the lines that are kept, of the capped lines, and of the renamed lines
  obtain ⟨back, gap', rest', hgap', hback, hblank, hcode⟩ := Variant.exists_code_of_capture
    hstart.le (hfirst.trans hend) hstatement hgap hline hword
    (fun hmem => Text.isFreeOf_iff.mp he.isFreeOfEnds _ hmem (by decide)) hsolid
    ⟨l, hl, List.mem_of_getElem? hsemi⟩
  set word := if Text.hasWord "return" (((Text.lines source).getD s.startLine []).take
    gap.length) then "return".toList else function.returnType ++ " _dbgReturn =".toList with hset
  have hwordStretch : Text.IsStretch word ∧ ∃ d ∈ word.head?, isBlank d = false := by
    rw [hset]
    split
    · exact ⟨by decide, 'r', rfl, by decide⟩
    · refine ⟨hdeclaration, ?_⟩
      obtain ⟨d, t, ht⟩ := List.exists_cons_of_ne_nil (Text.ne_nil_of_isIdent htype)
      have hd := Text.isWordChar_of_isIdent htype d (ht ▸ List.mem_cons_self)
      exact ⟨d, by rw [ht]; rfl, isBlank_eq_false_of_isWordChar hd⟩
  have hkeptCode := hblank ▸ Text.ofLines_append hnil hback
  rw [hfront, hcode, List.append_assoc, List.cons_append] at hkeptCode
  obtain ⟨front, lead', rest'', hended, hbalanced, hbare, hcapped⟩ :=
    Cap.exists_statement_of_apply happly hkeptCode hc hlead hgap' hwordStretch.1 hwordStretch.2 he
      hword
  have hcut := isCut_of_find hfunction hfind hloops
  have htake : kept.take function.startLine = (Text.lines source).take function.startLine := by
    rw [Variant.take_of_truncated hcut.liesIn hcut.start hkept,
      ← Nat.min_eq_left hstart.le, ← List.take_take, ← List.take_take,
      Variant.take_of_captureReturn hcapture hfind hworking]
  rw [Loop.blankCode_of_take (htake ▸ hopen), hdrop] at hcapped
  obtain ⟨front', hended', hrenamed⟩ := Variant.exists_code_of_renameHeader
    (Comment.isSolid_of_isIdent htype)
    (Comment.isSolid_of_isIdent (Variant.isIdent_copyName hplain.name).1) hended hcapped
  refine ⟨own, _, closers, closers', front' ++ lead', rest'', hown, hanswerLines,
    hrenamed.trans (List.append_assoc _ _ _).symm, ?_⟩
  have hprior : Text.IsEnded (prior ++ [c]) := ⟨prior, c, [], rfl, hc, rfl⟩
  rw [LoopSpan.isBareBody_append hended' hbalanced, hbare,
    ← LoopSpan.isBareBody_append hprior hlead.isBalanced, List.append_assoc]
  rfl

/-- A helper with a loop and a return on two lines, between comments. -/
def commentedReturn : Text :=
  Text.ofLines
    ["float f(float x) \x7b", "  for (int i = 0; i < 4; i++) x += 0.5; // x: sum", "",
      "  /* result */ return x", "    * 2.0; // done", "\x7d"]

/-- The helper, as it is read from its header. -/
def commentedReturnSignature : Signature :=
  { name := "f"
    returnType := "float"
    parameters := [.ofType {} "x" "float" .input]
    startLine := 0
    endLine := some 5 }

/-- The copy declares the captured value behind the capped loop, outside of any condition. -/
theorem exists_declaration_of_copy_commented :
    ∃ (answer : Text) (own body rest : List Text) (front rest' : Text),
      instrument {} { caps := [(0, 2)] } commentedReturn 3 none = .ok (some answer) ∧
      Variant.functionLines (Text.lines commentedReturn) commentedReturnSignature = .ok own ∧
      Text.lines answer = own ++ ([] :: (body ++ "  return _dbgReturn;".toList :: rest)) ∧
      Text.ofLines (Comment.blankFrom false body) =
        front ++ ("float _dbgReturn = x\n    * 2.0;" ++ rest') ∧
      LoopSpan.isBareBody front.reverse = false := by
  have hplan : plan {} (Text.lines commentedReturn) 3 none =
      .ok (.value commentedReturnSignature 3 ⟨"_dbgReturn", "float"⟩ 4) :=
    eq_ok_of_toOption (by decide +kernel)
  have hfind : Statement.find ({} : Config).maxStatementLines
      (Comment.strip (Text.lines commentedReturn)) 3 =
        .ok (some ⟨"return x * 2.0;", 3, 4, 9⟩) := rfl
  have hsome : (instrument {} { caps := [(0, 2)] } commentedReturn 3 none).toOption.join.isSome =
      true := by decide +kernel
  obtain ⟨answer, hanswer⟩ := Option.isSome_iff_exists.mp hsome
  have hok := eq_ok_of_toOption (Option.join_eq_some_iff.mp hanswer)
  have hfront : Text.ofLines ((Loop.blankCode (Text.lines commentedReturn) 0).take 3) =
      "float f(float x) \x7b\n  for (int i = 0; i < 4; i++) x += 0.5".toList ++
        ';' :: " \n".toList := by decide +kernel
  have hstatement : Text.ofLines ((Loop.blankCode (Text.lines commentedReturn) 0).drop 3) =
      List.replicate 15 ' ' ++ ("return".toList ++ (" x\n    * 2.0".toList ++ ';' ::
        " \n\x7d".toList)) := by decide +kernel
  obtain ⟨own, body, closers, closers', front, rest', hown, hlines, hcode, hbare⟩ :=
    exists_declaration_of_copy hplan rfl hok hfind rfl (eq_ok_of_toOption (by decide +kernel))
      (by decide +kernel) hfront hstatement (by decide) (by decide) (by decide) (by decide)
      (by decide) (by decide)
  have hbefore : Variant.linesBefore {} (Text.lines commentedReturn) commentedReturnSignature = [] := by
    decide +kernel
  rw [hbefore, List.nil_append, List.append_assoc] at hlines
  exact ⟨answer, own, body, _, front, rest', hok, hown, hlines, hcode,
    hbare.trans (by decide +kernel)⟩

/-- A helper with a return that is the unbraced body of a condition. -/
def bareReturn : Text :=
  Text.ofLines
    ["float f(float x) \x7b", "  if (x > 0.5)", "    return x;", "  return 1.0;", "\x7d"]

/-- The answer for the first return, in which the copy follows the helper. -/
def bareReturnAnswer : Text :=
  Text.ofLines
    ["float f(float x) \x7b", "  if (x > 0.5)", "    return x;", "  return 1.0;", "\x7d", "",
      "float _dbg_f(float x) \x7b", "  if (x > 0.5)", "    float _dbgReturn = x;",
      "  return _dbgReturn;", "\x7d", "",
      "void mainImage(out vec4 fragColor, in vec2 fragCoord) \x7b", "  float result = _dbg_f(0.5);",
      "  fragColor = vec4(vec3(result), 1.0); // Debug: visualize float as grayscale", "\x7d"]

/-- The value that the copy returns is declared in the body of the condition. -/
theorem exists_declaration_of_copy_bare :
    instrument {} {} bareReturn 2 none = .ok (some bareReturnAnswer) ∧
      Text.ofLines (Comment.blankFrom false (((Text.lines bareReturnAnswer).drop 6).take 3)) =
        "float _dbg_f(float x) \x7b\n  if (x > 0.5)\n    " ++ "float _dbgReturn = x;" ∧
      LoopSpan.isBareBody "float _dbg_f(float x) \x7b\n  if (x > 0.5)\n    ".toList.reverse = true :=
  ⟨eq_ok_of_toOption (by decide +kernel), by decide +kernel, by decide +kernel⟩

end Probe

end ShaderProbe
