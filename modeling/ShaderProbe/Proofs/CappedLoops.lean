import Mathlib
import ShaderProbe.Proofs.CapGroups

/-!
# What capping does to the loops of a function

Capping takes effect on exactly the selected loops.  The loops of the capped text are those of the
text, with the same headers.  A selected loop has braces, its guard is the first statement behind
the opening one, and its counter is declared right in front of it (`Cap.find_of_apply`).

Texts that are put in at one place keep the order of the loops they belong to.  The guard comes
first where the body starts, since only loops inside the body have texts there
(`Cap.IsCappable.textsAt_guard`); the declaration comes last in front of the loop, since only loops
that start earlier have texts there (`Cap.IsCappable.textsAt_declaration`).
-/

namespace ShaderProbe

namespace Edit

/-! ### The parts of a text that has grown -/

variable {text : Text} {inserts : List (Nat × Text)} {o : Nat}

/-- The length of a front of the text that has grown. -/
lemma length_weaveFront (inserts : List (Nat × Text)) (column : Nat) (t : Text) :
    shiftFront inserts column + (weaveFront inserts column t).length =
      shiftFront inserts (column + t.length) := by
  induction t generalizing column with
  | nil => rfl
  | cons c t ih =>
    have hrest := ih (column + 1)
    rw [shiftFront_succ, shift_eq] at hrest
    rw [weaveFront, List.length_append, List.length_cons, List.length_cons, Nat.add_comm t.length,
      ← Nat.add_assoc column, ← hrest]
    omega

/-- A character of the text in the text that has grown. -/
lemma weave_split (inserts : List (Nat × Text)) {c : Char} (hc : text[o]? = some c) :
    weave inserts 0 text = (weaveFront inserts 0 (text.take o) ++ (textsAt inserts o).flatten) ++
        c :: weave inserts (o + 1) (text.drop (o + 1)) ∧
      (weaveFront inserts 0 (text.take o) ++ (textsAt inserts o).flatten).length =
        shift inserts o := by
  have hlt : o < text.length := (List.getElem?_eq_some_iff.mp hc).1
  have htake : (text.take o).length = o := by
    rw [List.length_take]
    omega
  have hdrop : text.drop o = c :: text.drop (o + 1) := by
    rw [List.drop_eq_getElem_cons hlt]
    rw [List.getElem?_eq_getElem hlt, Option.some.injEq] at hc
    rw [hc]
  have hzero : shiftFront inserts 0 = 0 := by
    rw [shiftFront, List.filter_eq_nil_iff.mpr (by simp)]
    rfl
  constructor
  · conv_lhs => rw [← List.take_append_drop o text, weave_append_eq, htake, hdrop, weave_cons,
      Nat.zero_add]
    rw [List.append_assoc]
  · have hlength := length_weaveFront inserts 0 (text.take o)
    rw [hzero, htake, Nat.zero_add, Nat.zero_add] at hlength
    rw [List.length_append, hlength, shift_eq]

/-- The text that has grown, from both sides of a character. -/
lemma take_drop_weave (inserts : List (Nat × Text)) {c : Char} (hc : text[o]? = some c) :
    (weave inserts 0 text).take (shift inserts o) =
        weaveFront inserts 0 (text.take o) ++ (textsAt inserts o).flatten ∧
      (weave inserts 0 text).drop (shift inserts o + 1) =
        weave inserts (o + 1) (text.drop (o + 1)) := by
  obtain ⟨hsplit, hlength⟩ := weave_split inserts hc
  refine ⟨?_, ?_⟩
  · rw [hsplit, List.take_left' hlength]
  · rw [← List.drop_drop, hsplit, List.drop_left' hlength]
    rfl

/-- What is put in at a place comes first behind it. -/
lemma exists_weave_append (hbound : ∀ insert ∈ inserts, insert.1 ≤ o + text.length) :
    ∃ rest, weave inserts o text = (textsAt inserts o).flatten ++ rest := by
  cases text with
  | nil => exact ⟨[], by rw [weave_end (by simpa using hbound), List.append_nil]⟩
  | cons c t => exact ⟨_, weave_cons inserts o c t⟩

/-- A stretch into which nothing is put. -/
lemma weaveFront_quiet {n : Nat} (hlength : o + n ≤ text.length)
    (h : ∀ insert ∈ inserts, ¬(o < insert.1 ∧ insert.1 ≤ o + n)) :
    weaveFront inserts 0 (text.take (o + n)) ++ (textsAt inserts (o + n)).flatten =
      weaveFront inserts 0 (text.take o) ++
        ((textsAt inserts o).flatten ++ (text.drop o).take n) := by
  induction n with
  | zero => simp
  | succ n ih =>
    have hlt : o + n < text.length := by omega
    have hnone : textsAt inserts (o + (n + 1)) = [] :=
      textsAt_eq_nil fun insert hinsert heq => h insert hinsert (by omega)
    have hlast : ∀ (s : Text) (c : Char), weaveFront inserts 0 (s ++ [c]) =
        weaveFront inserts 0 s ++ ((textsAt inserts s.length).flatten ++ [c]) := by
      intro s c
      have hfront : ∀ (s : Text) (column : Nat), weaveFront inserts column (s ++ [c]) =
          weaveFront inserts column s ++
            ((textsAt inserts (column + s.length)).flatten ++ [c]) := by
        intro s
        induction s with
        | nil => exact fun column => by simp [weaveFront]
        | cons d s ihs =>
          intro column
          rw [List.cons_append, weaveFront, ihs, weaveFront, List.append_assoc, List.cons_append,
            List.length_cons, Nat.add_assoc column, Nat.add_comm 1]
      have hall := hfront s 0
      rwa [Nat.zero_add] at hall
    have hprevious := ih (by omega) fun insert hinsert hin => h insert hinsert (by omega)
    have htake : (text.take (o + n)).length = o + n := by
      rw [List.length_take]
      omega
    have hnext : text.take (o + (n + 1)) = text.take (o + n) ++ [text[o + n]] := by
      rw [← Nat.add_assoc, List.take_succ_eq_append_getElem hlt]
    have hdrop : (text.drop o).take (n + 1) = (text.drop o).take n ++ [text[o + n]] := by
      rw [List.take_add_one, List.getElem?_drop, List.getElem?_eq_getElem hlt]
      rfl
    rw [hnone, List.flatten_nil, List.append_nil, hnext, hlast, htake, ← List.append_assoc,
      hprevious, hdrop]
    simp only [List.append_assoc]

/-! ### Texts at one place -/

/-- A text at a place or elsewhere. -/
lemma textsAt_cons (insert : Nat × Text) (inserts : List (Nat × Text)) (o : Nat) :
    textsAt (insert :: inserts) o =
      (if insert.1 = o then [insert.2] else []) ++ textsAt inserts o := by
  rw [textsAt, textsAt, List.filter_cons]
  by_cases h : insert.1 = o <;> simp [h]

/-- Texts of one rank keep their order. -/
lemma textsAt_byRank {edits : List Edit} {ls : List Text} {first r : Nat}
    (h : ∀ e ∈ edits, (e.flat ls first).1 = o → e.rank = r) :
    textsAt ((byRank edits).map (flat ls first)) o = textsAt (edits.map (flat ls first)) o := by
  have hsome : textsAt ((edits.filter fun e => e.rank = r).map (flat ls first)) o =
      textsAt (edits.map (flat ls first)) o := by
    rw [textsAt, textsAt, List.filter_map, List.filter_map, List.filter_filter]
    congr 2
    refine List.filter_congr fun e he => ?_
    simp only [Function.comp_apply, Bool.and_eq_left_iff_imp, decide_eq_true_eq]
    exact h e he
  have hnone : ∀ k, k ≠ r →
      textsAt ((edits.filter fun e => e.rank = k).map (flat ls first)) o = [] := by
    intro k hk
    refine textsAt_eq_nil fun insert hinsert heq => ?_
    obtain ⟨e, he, rfl⟩ := List.mem_map.mp hinsert
    obtain ⟨he, hrank⟩ := List.mem_filter.mp he
    exact hk ((of_decide_eq_true hrank).symm.trans (h e he heq))
  rw [byRank, List.map_append, List.map_append, textsAt_append, textsAt_append]
  rcases Nat.lt_or_ge 2 r with hr | hr
  · rw [hnone 0 (by omega), hnone 1 (by omega), hnone 2 (by omega), ← hsome]
    refine (textsAt_eq_nil fun insert hinsert heq => ?_).symm
    obtain ⟨e, he, rfl⟩ := List.mem_map.mp hinsert
    have hrank := of_decide_eq_true (List.mem_filter.mp he).2
    have hle : e.rank ≤ 2 := by cases e <;> simp [rank]
    omega
  · interval_cases r
    · rw [hsome, hnone 1 (by decide), hnone 2 (by decide), List.append_nil, List.append_nil]
    · rw [hsome, hnone 0 (by decide), hnone 2 (by decide), List.nil_append, List.append_nil]
    · rw [hsome, hnone 0 (by decide), hnone 1 (by decide), List.nil_append, List.nil_append]

end Edit

namespace LoopSpan

/-! ### Places of other loops -/

variable {text : Text} {span other : LoopSpan} {o rank : Nat}

/-- The body of a loop does not end with the character behind which another one starts. -/
lemma IsTrue.bodyEnd_ne_bodyStart (h : span.IsTrue text) (hother : other.IsTrue text) {last : Nat}
    (hlast : other.bodyEnd = some last) : last ≠ span.bodyStart := by
  rintro rfl
  rcases (hother.bodyEnd _ hlast).2.2 with hend | hend <;> rcases h.bodyStart with hc | hc <;>
    exact absurd (hend.symm.trans hc) (by decide)

/-- A loop that starts earlier has no place at the start of the body. -/
lemma IsTrue.not_isPlace_of_earlier (h : span.IsTrue text) (hother : other.IsTrue text)
    (hlt : other.parenClose < span.keyword) : ¬other.IsPlace text (span.bodyStart + 1) rank := by
  intro hplace
  have hkeyword := h.keyword_lt
  have hclose := h.parenClose_le
  have hother' := hother.keyword_lt
  generalize ho : span.bodyStart + 1 = o at hplace
  cases hplace with
  | front le blanks hrank => omega
  | body hrank =>
    have := hother.bodyStart_lt_keyword h hlt
    omega
  | behind hlast => exact h.bodyEnd_ne_bodyStart hother hlast (by omega)

/-- A loop that starts later has a place at the start of the body only if it starts there. -/
lemma IsTrue.rank_of_later (h : span.IsTrue text) (hother : other.IsTrue text)
    (hlt : span.parenClose < other.keyword)
    (hplace : other.IsPlace text (span.bodyStart + 1) rank) :
    rank = 1 ∧ ¬∀ c ∈ text[span.bodyStart + 1]?, isBlank c = true := by
  have hstart := h.bodyStart_lt_keyword hother hlt
  have hkeyword := hother.keyword_lt
  have hclose := hother.parenClose_le
  generalize ho : span.bodyStart + 1 = o at hplace ⊢
  cases hplace with
  | front le blanks hrank =>
    rcases hrank with ⟨-, hblank⟩ | ⟨rfl, rfl⟩
    · rcases h.bodyStart with hc | hc
      · exact absurd (hblank _ ho _ hc) (by decide)
      · exact absurd (hblank _ ho _ hc) (by decide)
    · refine ⟨rfl, fun hblank => ?_⟩
      rcases hother.keyword with hc | hc
      · exact absurd (hblank _ hc) (by decide)
      · exact absurd (hblank _ hc) (by decide)
  | body hrank => omega
  | behind hlast => exact absurd (by omega) (h.bodyEnd_ne_bodyStart hother hlast)

/-- A loop that starts later has no place in front of a loop. -/
lemma IsTrue.lt_of_later (h : span.IsTrue text) (hother : other.IsTrue text)
    (hlt : span.parenClose < other.keyword) (hplace : other.IsPlace text o rank) :
    span.keyword < o := by
  have hkeyword := h.keyword_lt
  rcases hother.place_cases hplace with ⟨-, blanks, -⟩ | ⟨m, c, rfl, -, hm, -⟩
  · by_contra hle
    rcases h.keyword with hc | hc
    · exact absurd (blanks _ (Nat.le_of_not_lt hle) (by omega) _ hc) (by decide)
    · exact absurd (blanks _ (Nat.le_of_not_lt hle) (by omega) _ hc) (by decide)
  · have := hother.keyword_lt
    have := hother.parenClose_le
    omega

/-- A loop that starts earlier has a place in a stretch of blanks only at its first character, and
then right behind a character that is not blank. -/
lemma IsTrue.cases_of_earlier (hother : other.IsTrue text) (hlt : other.keyword < span.keyword)
    (hplace : other.IsPlace text o rank) {p : Nat} (hle : p ≤ o) (hhigh : o ≤ span.keyword)
    (hblanks : ∀ i, p ≤ i → i < span.keyword → ∀ c ∈ text[i]?, isBlank c = true) :
    o = p ∧ (∃ m c, m + 1 = p ∧ text[m]? = some c ∧ isBlank c = false) ∧
      (rank = 1 ∨ rank = 2 ∧ ∀ c ∈ text[o]?, isBlank c = true) := by
  rcases hother.place_cases hplace with ⟨hle', -⟩ | ⟨m, c, rfl, -, -, hc, hblank, -, hrank⟩
  · rcases hother.keyword with hc | hc
    · exact absurd (hblanks _ (hle.trans hle') hlt _ hc) (by decide)
    · exact absurd (hblanks _ (hle.trans hle') hlt _ hc) (by decide)
  · by_cases hm : p ≤ m
    · exact absurd (hblanks m hm (by omega) c hc) (by simp [hblank])
    · exact ⟨by omega, ⟨m, c, by omega, hc, hblank⟩, hrank⟩

end LoopSpan

namespace Cap

variable {lines : List Text} {start : Nat} {caps : Caps} {index : Nat} {span : LoopSpan} {cap : Int}
  {e : Edit}

/-- The edits of the loops that are found earlier. -/
lemma IsCappable.earlier (h : IsCappable lines start caps)
    (hspan : (Loop.spans (Loop.flatCode lines start))[index]? = some span)
    (he : e ∈ ((Loop.find lines start).take index).flatMap (group lines caps)) :
    ∃ other : LoopSpan, other.IsTrue (Loop.flatCode lines start) ∧
      other.parenClose < span.keyword ∧ other.IsPlace (Loop.flatCode lines start)
        (e.flat (Loop.codeFrom lines start) start).1 e.rank := by
  obtain ⟨i, other, cap', hother, hmem, -, hgroup, he⟩ :=
    h.exists_of_mem (fun loop hloop => List.mem_of_mem_take hloop) he
  refine ⟨other, (Loop.isTrue_of_mem_spans (List.mem_of_getElem? hother)).1, ?_, hgroup.isPlace he⟩
  obtain ⟨j, hj, heq⟩ := List.mem_take_iff_getElem.mp hmem
  have hget := List.getElem?_eq_getElem (Nat.lt_of_lt_of_le hj (Nat.min_le_right _ _))
  rw [heq, getElem?_find, Option.map_eq_some_iff] at hget
  obtain ⟨span', hspan', hloop⟩ := hget
  obtain rfl : j = i := congrArg Loop.index hloop
  exact Loop.parenClose_lt_of_lt (by omega) hother hspan

/-- The edits of the loops that are found later. -/
lemma IsCappable.later (h : IsCappable lines start caps)
    (hspan : (Loop.spans (Loop.flatCode lines start))[index]? = some span)
    (he : e ∈ ((Loop.find lines start).drop (index + 1)).flatMap (group lines caps)) :
    ∃ other : LoopSpan, other.IsTrue (Loop.flatCode lines start) ∧
      span.parenClose < other.keyword ∧ other.IsPlace (Loop.flatCode lines start)
        (e.flat (Loop.codeFrom lines start) start).1 e.rank := by
  obtain ⟨i, other, cap', hother, hmem, -, hgroup, he⟩ :=
    h.exists_of_mem (fun loop hloop => List.mem_of_mem_drop hloop) he
  refine ⟨other, (Loop.isTrue_of_mem_spans (List.mem_of_getElem? hother)).1, ?_, hgroup.isPlace he⟩
  obtain ⟨j, hj, heq⟩ := List.mem_drop_iff_getElem.mp hmem
  have hbound : index + 1 + j < (Loop.find lines start).length := by omega
  have hget := List.getElem?_eq_getElem hbound
  rw [heq, getElem?_find, Option.map_eq_some_iff] at hget
  obtain ⟨span', hspan', hloop⟩ := hget
  obtain rfl : index + 1 + j = i := congrArg Loop.index hloop
  exact Loop.parenClose_lt_of_lt (by omega) hspan hother

/-- The edits of a text around the group of a loop. -/
lemma flatMap_group_eq (caps : Caps)
    (hspan : (Loop.spans (Loop.flatCode lines start))[index]? = some span) :
    (Loop.find lines start).flatMap (group lines caps) =
      ((Loop.find lines start).take index).flatMap (group lines caps) ++
        (group lines caps (loopAt lines start span index) ++
          ((Loop.find lines start).drop (index + 1)).flatMap (group lines caps)) := by
  have hloop : (Loop.find lines start)[index]? = some (loopAt lines start span index) := by
    rw [getElem?_find, hspan]
    rfl
  obtain ⟨hlt, hget⟩ := List.getElem?_eq_some_iff.mp hloop
  conv_lhs => rw [← List.take_append_drop index (Loop.find lines start), List.flatMap_append,
    List.drop_eq_getElem_cons hlt, List.flatMap_cons, hget]

/-- The declaration is the only edit of a group in front of its loop, and the guard is the only one
at the start of the body. -/
lemma IsGroup.exists_own {declaration guard : Text} {es : List Edit}
    (h : IsGroup lines start span declaration guard es)
    (htrue : span.IsTrue (Loop.flatCode lines start)) :
    ∃ d g, Declares lines start span declaration d ∧ Guards lines start span guard g ∧
      (∀ e ∈ es, (e.flat (Loop.codeFrom lines start) start).1 ≤ span.keyword → e = d) ∧
      (∀ e ∈ es, (e.flat (Loop.codeFrom lines start) start).1 = span.bodyStart + 1 → e = g) ∧
      Edit.textsAt (es.map (Edit.flat (Loop.codeFrom lines start) start))
          (d.flat (Loop.codeFrom lines start) start).1 =
        [(d.flat (Loop.codeFrom lines start) start).2] ∧
      Edit.textsAt (es.map (Edit.flat (Loop.codeFrom lines start) start)) (span.bodyStart + 1) =
        [(g.flat (Loop.codeFrom lines start) start).2] := by
  obtain ⟨d, g, last, closer, hd, hg, hlast, hcloser, rfl⟩ := h
  have hkeyword := htrue.keyword_lt
  have hclose := htrue.parenClose_le
  have hend := htrue.bodyStart_lt hlast
  have hle := hd.le
  have hguard : (g.flat (Loop.codeFrom lines start) start).1 = span.bodyStart + 1 := hg.offset
  have hlate : (closer.flat (Loop.codeFrom lines start) start).1 = last + 1 := by rw [hcloser.flat]
  have hcases : ∀ e ∈ (d :: if span.bareBody = true then [closer] else []) ++
      (g :: if span.brace = none then [closer] else []), e = d ∨ e = g ∨ e = closer := by
    intro e he
    simp only [List.mem_append, List.mem_cons] at he
    rcases he with (he | he) | he | he
    · exact .inl he
    · split at he
      · exact .inr (.inr (List.mem_singleton.mp he))
      · exact absurd he List.not_mem_nil
    · exact .inr (.inl he)
    · split at he
      · exact .inr (.inr (List.mem_singleton.mp he))
      · exact absurd he List.not_mem_nil
  -- closing braces come later
  have hnone : ∀ (p : Prop) [Decidable p] (o : Nat), o ≤ span.bodyStart + 1 →
      Edit.textsAt ((if p then [closer] else []).map (Edit.flat (Loop.codeFrom lines start) start))
        o = [] := by
    intro p _ o ho
    refine Edit.textsAt_eq_nil fun insert hinsert => ?_
    obtain ⟨e, he, rfl⟩ := List.mem_map.mp hinsert
    split at he
    · rw [List.mem_singleton.mp he]
      omega
    · exact absurd he List.not_mem_nil
  refine ⟨d, g, hd, hg, fun e he hfront => ?_, fun e he hfront => ?_, ?_, ?_⟩
  · rcases hcases e he with rfl | rfl | rfl
    · rfl
    · omega
    · omega
  · rcases hcases e he with rfl | rfl | rfl
    · omega
    · rfl
    · omega
  · rw [List.map_append, Edit.textsAt_append, List.map_cons, Edit.textsAt_cons, if_pos rfl,
      hnone _ _ (by omega), List.map_cons, Edit.textsAt_cons, if_neg (by omega),
      hnone _ _ (by omega)]
    rfl
  · rw [List.map_append, Edit.textsAt_append, List.map_cons, Edit.textsAt_cons, if_neg (by omega),
      hnone _ _ le_rfl, List.map_cons, Edit.textsAt_cons, if_pos hguard, hnone _ _ le_rfl]
    rfl

/-- **The guard comes first where the body of its loop starts.** -/
theorem IsCappable.textsAt_guard (h : IsCappable lines start caps)
    (hspan : (Loop.spans (Loop.flatCode lines start))[index]? = some span)
    (hcap : capOf? caps (loopAt lines start span index) = some cap) :
    ∃ front rest, Edit.textsAt (inserts lines start caps) (span.bodyStart + 1) =
        (front ++ guard {} (loopAt lines start span index) cap) :: rest ∧
      if span.brace = none then front = " \x7b " else Text.isBlankOnly front = true := by
  have htrue := (Loop.isTrue_of_mem_spans (List.mem_of_getElem? hspan)).1
  obtain ⟨d, g, -, hg, -, hown, -, htexts⟩ := (h.isGroup hspan hcap).2.exists_own htrue
  have hoffset : (g.flat (Loop.codeFrom lines start) start).1 = span.bodyStart + 1 := hg.offset
  have hrank : ∀ e ∈ (Loop.find lines start).flatMap (group lines caps),
      (e.flat (Loop.codeFrom lines start) start).1 = span.bodyStart + 1 → e.rank = g.rank := by
    intro e he heq
    rw [flatMap_group_eq caps hspan, List.mem_append, List.mem_append] at he
    rcases he with he | he | he
    · obtain ⟨other, hother, hlt, hplace⟩ := h.earlier hspan he
      rw [heq] at hplace
      exact absurd hplace (htrue.not_isPlace_of_earlier hother hlt)
    · rw [hown e he heq]
    · obtain ⟨other, hother, hlt, hplace⟩ := h.later hspan he
      rw [heq] at hplace
      obtain ⟨hone, hink⟩ := htrue.rank_of_later hother hlt hplace
      rcases hg.rank with hguard | ⟨-, hblank⟩
      · rw [hone, hguard]
      · rw [hoffset] at hblank
        exact absurd hblank hink
  have hfirst : Edit.textsAt ((((Loop.find lines start).take index).flatMap (group lines caps)).map
      (Edit.flat (Loop.codeFrom lines start) start)) (span.bodyStart + 1) = [] := by
    refine Edit.textsAt_eq_nil fun insert hinsert heq => ?_
    obtain ⟨e, he, rfl⟩ := List.mem_map.mp hinsert
    obtain ⟨other, hother, hlt, hplace⟩ := h.earlier hspan he
    rw [heq] at hplace
    exact htrue.not_isPlace_of_earlier hother hlt hplace
  obtain ⟨front, htext, hfront⟩ := hg.text
  rw [inserts, Edit.textsAt_byRank hrank, flatMap_group_eq caps hspan, List.map_append,
    Edit.textsAt_append, hfirst, List.nil_append, List.map_append, Edit.textsAt_append, htexts, htext]
  exact ⟨front, _, rfl, hfront⟩

/-- **The declaration comes last in front of its loop**: nothing but blanks follows it there. -/
theorem IsCappable.textsAt_declaration (h : IsCappable lines start caps)
    (hspan : (Loop.spans (Loop.flatCode lines start))[index]? = some span)
    (hcap : capOf? caps (loopAt lines start span index) = some cap) :
    ∃ o front back rest, o ≤ span.keyword ∧
      (∀ i, o ≤ i → i < span.keyword → ∀ c ∈ (Loop.flatCode lines start)[i]?, isBlank c = true) ∧
      (∀ insert ∈ inserts lines start caps, ¬(o < insert.1 ∧ insert.1 ≤ span.keyword)) ∧
      Edit.textsAt (inserts lines start caps) o =
        rest ++ [front ++ (declaration {} (loopAt lines start span index) ++ back)] ∧
      Text.isBlankOnly back = true := by
  have htrue := (Loop.isTrue_of_mem_spans (List.mem_of_getElem? hspan)).1
  obtain ⟨d, g, hd, -, hown, -, htexts, -⟩ := (h.isGroup hspan hcap).2.exists_own htrue
  have hink : ¬∀ c ∈ (Loop.flatCode lines start)[span.keyword]?, isBlank c = true := by
    intro hblank
    rcases htrue.keyword with hc | hc
    · exact absurd (hblank _ hc) (by decide)
    · exact absurd (hblank _ hc) (by decide)
  have hrank : ∀ e ∈ (Loop.find lines start).flatMap (group lines caps),
      (e.flat (Loop.codeFrom lines start) start).1 =
        (d.flat (Loop.codeFrom lines start) start).1 → e.rank = d.rank := by
    intro e he heq
    rw [flatMap_group_eq caps hspan, List.mem_append, List.mem_append] at he
    rcases he with he | he | he
    · obtain ⟨other, hother, hlt, hplace⟩ := h.earlier hspan he
      have := hother.keyword_lt
      obtain ⟨-, ⟨m, c, hm, hc, hblank⟩, hrank⟩ :=
        hother.cases_of_earlier (by omega) hplace heq.ge (heq.le.trans hd.le) hd.blanks
      rcases hd.rank with ⟨-, hfront⟩ | ⟨hone, hkeyword⟩
      · exact absurd (hfront m hm c hc) (by simp [hblank])
      · rcases hrank with hrank | ⟨-, hrank⟩
        · rw [hrank, hone]
        · rw [heq, hkeyword] at hrank
          exact absurd hrank hink
    · rw [hown e he (heq.le.trans hd.le)]
    · obtain ⟨other, hother, hlt, hplace⟩ := h.later hspan he
      have := htrue.lt_of_later hother hlt hplace
      have := hd.le
      omega
  have hquiet : ∀ insert ∈ inserts lines start caps,
      ¬((d.flat (Loop.codeFrom lines start) start).1 < insert.1 ∧ insert.1 ≤ span.keyword) := by
    rintro insert hinsert ⟨hlow, hhigh⟩
    obtain ⟨e, he, rfl⟩ := List.mem_map.mp hinsert
    have he := (Edit.byRank_perm _).mem_iff.mp he
    rw [flatMap_group_eq caps hspan, List.mem_append, List.mem_append] at he
    rcases he with he | he | he
    · obtain ⟨other, hother, hlt, hplace⟩ := h.earlier hspan he
      have := hother.keyword_lt
      have := (hother.cases_of_earlier (by omega) hplace hlow.le hhigh hd.blanks).1
      omega
    · rw [hown e he hhigh] at hlow
      omega
    · obtain ⟨other, hother, hlt, hplace⟩ := h.later hspan he
      have := htrue.lt_of_later hother hlt hplace
      omega
  have hlast : Edit.textsAt ((((Loop.find lines start).drop (index + 1)).flatMap
      (group lines caps)).map (Edit.flat (Loop.codeFrom lines start) start))
      (d.flat (Loop.codeFrom lines start) start).1 = [] := by
    refine Edit.textsAt_eq_nil fun insert hinsert heq => ?_
    obtain ⟨e, he, rfl⟩ := List.mem_map.mp hinsert
    obtain ⟨other, hother, hlt, hplace⟩ := h.later hspan he
    have := htrue.lt_of_later hother hlt hplace
    have := hd.le
    omega
  obtain ⟨front, back, htext, hback, -⟩ := hd.text
  refine ⟨(d.flat (Loop.codeFrom lines start) start).1, front, back,
    Edit.textsAt ((((Loop.find lines start).take index).flatMap (group lines caps)).map
      (Edit.flat (Loop.codeFrom lines start) start)) (d.flat (Loop.codeFrom lines start) start).1,
    hd.le, hd.blanks, hquiet, ?_, hback⟩
  rw [inserts, Edit.textsAt_byRank hrank, flatMap_group_eq caps hspan, List.map_append,
    Edit.textsAt_append, List.map_append, Edit.textsAt_append, htexts, hlast, List.append_nil, htext]

/-- Nothing is put between the header of a capped loop and its opening brace. -/
lemma IsCappable.quiet_brace (h : IsCappable lines start caps)
    (hspan : (Loop.spans (Loop.flatCode lines start))[index]? = some span)
    (hcap : capOf? caps (loopAt lines start span index) = some cap) {b : Nat}
    (hbrace : span.brace = some b) :
    ∀ insert ∈ inserts lines start caps, ¬(span.parenClose < insert.1 ∧ insert.1 ≤ b) := by
  rintro insert hinsert ⟨hlow, hhigh⟩
  have htrue := (Loop.isTrue_of_mem_spans (List.mem_of_getElem? hspan)).1
  have hkeyword := htrue.keyword_lt
  have hstart : span.bodyStart = b := by rw [LoopSpan.bodyStart, hbrace, Option.getD_some]
  obtain ⟨e, he, rfl⟩ := List.mem_map.mp hinsert
  have he := (Edit.byRank_perm _).mem_iff.mp he
  rw [flatMap_group_eq caps hspan, List.mem_append, List.mem_append] at he
  rcases he with he | he | he
  · obtain ⟨other, hother, hlt, hplace⟩ := h.earlier hspan he
    have hfirst := hother.keyword_lt
    generalize (e.flat (Loop.codeFrom lines start) start).1 = o at hplace hlow hhigh
    generalize e.rank = rank at hplace
    cases hplace with
    | front le blanks hrank => omega
    | body hrank =>
      have := hother.bodyStart_lt_keyword htrue hlt
      omega
    | @behind last hlast =>
      -- a body ends at no blank and at no `)`
      have hend := (hother.bodyEnd last hlast).2.2
      rcases Nat.eq_or_lt_of_le (Nat.le_of_lt_succ hlow) with rfl | hlow
      · rcases hend with hc | hc <;> exact absurd (hc.symm.trans htrue.parenClose) (by decide)
      · rcases hend with hc | hc <;>
          rcases (htrue.brace b hbrace).cases hlow (by omega) hc with hblank | ⟨-, heq⟩
        · exact absurd hblank (by decide)
        · omega
        · exact absurd hblank (by decide)
        · omega
  · have hplace := (h.isGroup hspan hcap).2.isPlace he
    generalize (e.flat (Loop.codeFrom lines start) start).1 = o at hplace hlow hhigh
    generalize e.rank = rank at hplace
    cases hplace with
    | front le blanks hrank => omega
    | body hrank => omega
    | behind hlast =>
      have := htrue.bodyStart_lt hlast
      omega
  · obtain ⟨other, hother, hlt, hplace⟩ := h.later hspan he
    have hnext := htrue.bodyStart_lt_keyword hother hlt
    rcases hother.place_cases hplace with ⟨-, blanks, -⟩ | ⟨m, c, heq, -, hm, -⟩
    · have hblank := blanks b hhigh (by omega) '{' (htrue.brace b hbrace).getElem?
      exact absurd hblank (by decide)
    · have := hother.keyword_lt
      have := hother.parenClose_le
      omega

/-! ### The capped text -/

/-- The capped lines. -/
def capped (lines : List Text) (start : Nat) (caps : Caps) : List Text :=
  Edit.apply ((Loop.find lines start).flatMap (group lines caps)) lines

/-- Capping succeeds. -/
lemma IsCappable.apply_eq (h : IsCappable lines start caps) :
    apply {} lines start caps = .ok (capped lines start caps) := by
  have hnone : (caps.find? fun entry => entry.1 < 0 || entry.2 < 0) = none := by
    rw [List.find?_eq_none]
    intro entry hentry
    have := h.valid entry hentry
    simp only [Bool.or_eq_true, decide_eq_true_eq]
    omega
  rw [apply, hnone]
  dsimp only
  rw [h.edits_eq]
  rfl

/-- **The code of the capped lines is the code with the texts put in.** -/
theorem IsCappable.flatCode_capped (h : IsCappable lines start caps) :
    Loop.flatCode (capped lines start caps) start =
      Edit.weave (inserts lines start caps) 0 (Loop.flatCode lines start) := by
  have hplaced : ∀ e ∈ (Loop.find lines start).flatMap (group lines caps),
      e.IsPlaced (Loop.codeFrom lines start) start ∧ e.Fits lines := by
    intro e he
    obtain ⟨i, other, cap, -, -, -, hgroup, he⟩ := h.exists_of_mem (fun _ hloop => hloop) he
    exact hgroup.placed he
  have hline : ∀ e ∈ (Loop.find lines start).flatMap (group lines caps), 0 + start ≤ e.line := by
    intro e he
    obtain ⟨n, l, hline, -⟩ := (hplaced e he).1
    omega
  have hcode : Loop.codeFrom (capped lines start caps) start =
      Edit.applyFrom ((Loop.find lines start).flatMap (group lines caps)) start
        (Loop.codeFrom lines start) := by
    rw [Loop.codeFrom, capped, Edit.strip_apply h.closed fun e he => (hplaced e he).2,
      Edit.apply_eq_applyFrom, (Edit.applyFrom_split hline _).2, Nat.zero_add]
    rfl
  rw [Loop.flatCode, hcode, Edit.ofLines_applyFrom fun e he => (hplaced e he).1]
  rfl

/-- The headers of the loops of a text. -/
lemma map_headerText_find (lines : List Text) (start : Nat) :
    (Loop.find lines start).map Loop.headerText =
      ((Loop.spans (Loop.flatCode lines start)).map LoopSpan.core).map fun core => core.2.2 := by
  refine List.ext_getElem? fun i => ?_
  rw [List.getElem?_map, getElem?_find, List.getElem?_map, List.getElem?_map, Option.map_map,
    Option.map_map]
  rfl

/-- **The loops of the capped text are those of the text**, moved by the texts put in. -/
theorem IsCappable.cores_capped (h : IsCappable lines start caps)
    (hclean : Edit.IsClean (Loop.flatCode lines start)) :
    (Loop.spans (Loop.flatCode (capped lines start caps) start)).map LoopSpan.core =
      ((Loop.spans (Loop.flatCode lines start)).map LoopSpan.core).map
        (LoopScan.grown (inserts lines start caps)) := by
  obtain ⟨hgrows, htotal⟩ := h.grows hclean
  obtain ⟨extra, hcores, hextra⟩ := Loop.cores_weave hgrows
  rw [h.flatCode_capped, hcores, hextra hclean htotal, List.append_nil]

/-- A loop of the text in the capped text. -/
lemma IsCappable.exists_span (h : IsCappable lines start caps)
    (hclean : Edit.IsClean (Loop.flatCode lines start))
    (hspan : (Loop.spans (Loop.flatCode lines start))[index]? = some span) :
    ∃ span', (Loop.spans (Loop.flatCode (capped lines start caps) start))[index]? = some span' ∧
      span'.keyword = Edit.shift (inserts lines start caps) span.keyword ∧
      span'.parenClose = Edit.shift (inserts lines start caps) span.parenClose := by
  have hcore : ((Loop.spans (Loop.flatCode (capped lines start caps) start)).map
      LoopSpan.core)[index]? = some (LoopScan.grown (inserts lines start caps) span.core) := by
    rw [h.cores_capped hclean, List.getElem?_map, List.getElem?_map, hspan]
    rfl
  rw [List.getElem?_map, Option.map_eq_some_iff] at hcore
  obtain ⟨span', hspan', hcore⟩ := hcore
  exact ⟨span', hspan', congrArg Prod.fst hcore, congrArg (fun core => core.2.1) hcore⟩

/-- A loop whose header is followed by a brace, and what follows the brace. -/
lemma opensAt_of_drop {text gap t : Text} (hgap : Text.isBlankOnly gap = true)
    (hdrop : text.drop (span.parenClose + 1) = gap ++ '{' :: t) :
    span.OpensAt text (span.parenClose + 1 + gap.length) ∧
      text.drop (span.parenClose + 1 + gap.length + 1) = t := by
  refine ⟨⟨gap, t, hgap, hdrop, rfl⟩, ?_⟩
  rw [Nat.add_assoc _ gap.length, ← List.drop_drop, hdrop, ← List.drop_drop, List.drop_left]
  rfl

/-- **A capped loop has a brace, and its guard follows.** -/
theorem IsCappable.exists_guard (h : IsCappable lines start caps)
    (hclean : Edit.IsClean (Loop.flatCode lines start))
    (hspan : (Loop.spans (Loop.flatCode lines start))[index]? = some span)
    (hcap : capOf? caps (loopAt lines start span index) = some cap) {span' : LoopSpan}
    (hclose : span'.parenClose = Edit.shift (inserts lines start caps) span.parenClose) :
    ∃ b gap rest, span'.OpensAt (Loop.flatCode (capped lines start caps) start) b ∧
      Text.isBlankOnly gap = true ∧ (Loop.flatCode (capped lines start caps) start).drop (b + 1) =
        gap ++ (guard {} (loopAt lines start span index) cap ++ rest) := by
  have htrue := (Loop.isTrue_of_mem_spans (List.mem_of_getElem? hspan)).1
  obtain ⟨front, more, htexts, hfront⟩ := h.textsAt_guard hspan hcap
  have hdrop := (Edit.take_drop_weave (inserts lines start caps) htrue.parenClose).2
  rw [← h.flatCode_capped, ← hclose] at hdrop
  -- what is put in where the body starts comes first there
  obtain ⟨rest, hrest⟩ : ∃ rest, Edit.weave (inserts lines start caps) (span.bodyStart + 1)
      ((Loop.flatCode lines start).drop (span.bodyStart + 1)) =
        front ++ (guard {} (loopAt lines start span index) cap ++ rest) := by
    have hlt : span.bodyStart < (Loop.flatCode lines start).length := by
      rcases htrue.bodyStart with hc | hc <;> exact (List.getElem?_eq_some_iff.mp hc).1
    have hbound : ∀ insert ∈ inserts lines start caps, insert.1 ≤ span.bodyStart + 1 +
        ((Loop.flatCode lines start).drop (span.bodyStart + 1)).length := by
      intro insert hinsert
      have := (h.grows hclean).1.bound insert hinsert
      rw [List.length_drop]
      omega
    obtain ⟨rest, hrest⟩ := Edit.exists_weave_append hbound
    exact ⟨more.flatten ++ rest, by rw [hrest, htexts]; simp⟩
  cases hbrace : span.brace with
  | none =>
    -- the guard brings its own brace
    have hstart : span.bodyStart = span.parenClose := by rw [LoopSpan.bodyStart, hbrace]; rfl
    rw [hbrace, if_pos rfl] at hfront
    rw [hstart, hfront] at hrest
    have hsplit : (Loop.flatCode (capped lines start caps) start).drop (span'.parenClose + 1) =
        [' '] ++ '{' :: ([' '] ++ (guard {} (loopAt lines start span index) cap ++ rest)) :=
      hdrop.trans hrest
    obtain ⟨hopens, htail⟩ := opensAt_of_drop (by decide) hsplit
    exact ⟨_, _, rest, hopens, by decide, htail⟩
  | some b =>
    have hstart : span.bodyStart = b := by rw [LoopSpan.bodyStart, hbrace]; rfl
    rw [hbrace, if_neg (by simp)] at hfront
    obtain ⟨gap, t, hgap, hbody, hb⟩ := htrue.brace b hbrace
    have hquiet := h.quiet_brace hspan hcap hbrace
    have hnone : ∀ insert ∈ inserts lines start caps, ¬(span.parenClose + 1 ≤ insert.1 ∧
        insert.1 < span.parenClose + 1 + (gap ++ ['{']).length) := by
      rintro insert hinsert ⟨hlow, hhigh⟩
      rw [List.length_append, List.length_singleton] at hhigh
      exact hquiet insert hinsert ⟨hlow, by omega⟩
    have hsplit : (Loop.flatCode lines start).drop (span.parenClose + 1) = (gap ++ ['{']) ++ t := by
      rw [hbody]
      simp
    have htail : (Loop.flatCode lines start).drop (span.bodyStart + 1) = t := by
      rw [hstart, hb, Nat.add_assoc _ gap.length, ← List.drop_drop, hsplit,
        List.drop_left' (by simp)]
    rw [htail, hstart] at hrest
    have hlength : span.parenClose + 1 + (gap ++ ['{']).length = b + 1 := by
      rw [List.length_append, List.length_singleton]
      omega
    rw [hsplit, Edit.weave_append hnone, hlength, hrest] at hdrop
    have hdrop' : (Loop.flatCode (capped lines start caps) start).drop (span'.parenClose + 1) =
        gap ++ '{' :: (front ++ (guard {} (loopAt lines start span index) cap ++ rest)) := by
      rw [hdrop]
      simp
    obtain ⟨hopens, hbehind⟩ := opensAt_of_drop hgap hdrop'
    exact ⟨_, front, rest, hopens, hfront, hbehind⟩

/-- **The counter of a capped loop is declared right in front of it.** -/
theorem IsCappable.exists_declaration (h : IsCappable lines start caps)
    (hspan : (Loop.spans (Loop.flatCode lines start))[index]? = some span)
    (hcap : capOf? caps (loopAt lines start span index) = some cap) :
    ∃ front gap, Text.isBlankOnly gap = true ∧
      (Loop.flatCode (capped lines start caps) start).take
          (Edit.shift (inserts lines start caps) span.keyword) =
        front ++ (declaration {} (loopAt lines start span index) ++ gap) := by
  have htrue := (Loop.isTrue_of_mem_spans (List.mem_of_getElem? hspan)).1
  obtain ⟨c, hc, -⟩ := htrue.mark (LoopSpan.mem_marks_iff.mpr (.inl rfl))
  obtain ⟨o, front, back, rest, hle, hblanks, hquiet, htexts, hback⟩ :=
    h.textsAt_declaration hspan hcap
  obtain ⟨n, hn⟩ := Nat.exists_eq_add_of_le hle
  have hlength : o + n ≤ (Loop.flatCode lines start).length := by
    have := (List.getElem?_eq_some_iff.mp hc).1
    omega
  have hfront := Edit.weaveFront_quiet hlength (by rw [← hn]; exact hquiet)
  have hgap : Text.isBlankOnly (((Loop.flatCode lines start).drop o).take n) = true := by
    refine Text.isBlankOnly_iff.mpr fun x hx => ?_
    obtain ⟨i, hi, rfl⟩ := List.mem_iff_getElem.mp hx
    rw [List.length_take, List.length_drop] at hi
    refine hblanks (o + i) (by omega) (by omega) _ ?_
    rw [List.getElem_take, List.getElem_drop]
    exact List.getElem?_eq_getElem _
  refine ⟨Edit.weaveFront (inserts lines start caps) 0 ((Loop.flatCode lines start).take o) ++
    (rest.flatten ++ front), back ++ ((Loop.flatCode lines start).drop o).take n, ?_, ?_⟩
  · rw [Text.isBlankOnly, List.all_append, Bool.and_eq_true]
    exact ⟨hback, hgap⟩
  · rw [h.flatCode_capped, (Edit.take_drop_weave (inserts lines start caps) hc).1, hn, hfront, htexts]
    simp

end Cap

end ShaderProbe
