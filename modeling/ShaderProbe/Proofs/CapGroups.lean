import Mathlib
import ShaderProbe.Proofs.CapStatements

/-!
# The edits of all capped loops

Each capped loop has its own group of edits: the declaration of its counter, its guard, and a
closing brace for each block that these two open (`Cap.IsGroup`).  The edits of a text are the
groups of its capped loops, one after the other.

A group closes the blocks it opens, and it opens them in front of the place where it closes them, so
no order of the texts at one place closes a block too early (`Edit.Nests`).  Together with where the
edits stand (`LoopSpan.IsPlace`) this gives `Cap.grows_edits`: the loops of the text are found
again.
-/

namespace ShaderProbe

namespace Edit

/-! ### Blocks that are closed behind their start -/

/-- The number of blocks that the texts at a place close, as a negative number. -/
def closing (inserts : List (Nat × Text)) (o : Nat) : Int :=
  ((textsAt inserts o).map fun t => min (Text.braceDelta t) 0).sum

/-- The texts at a place close no more blocks than the texts in front of it have opened. -/
def Nests (inserts : List (Nat × Text)) : Prop :=
  ∀ o, 0 ≤ pendingFront inserts o + closing inserts o

variable {inserts inserts' : List (Nat × Text)} {o : Nat}

/-- Two lists of texts put together. -/
lemma Nests.append (h : Nests inserts) (h' : Nests inserts') : Nests (inserts ++ inserts') := by
  intro o
  have hfirst := h o
  have hsecond := h' o
  rw [pendingFront, closing, List.filter_append, List.map_append, List.sum_append, textsAt_append,
    List.map_append, List.sum_append]
  rw [pendingFront, closing] at hfirst hsecond
  omega

/-- The order of the texts does not matter. -/
lemma Nests.of_perm (h : Nests inserts) (hperm : inserts'.Perm inserts) : Nests inserts' := by
  intro o
  have hfront : pendingFront inserts' o = pendingFront inserts o :=
    ((hperm.filter _).map _).sum_eq
  have hclosing : closing inserts' o = closing inserts o :=
    (((hperm.filter _).map _).map _).sum_eq
  rw [hfront, hclosing]
  exact h o

/-- The texts of several lists. -/
lemma nests_flatMap {α : Type} {l : List α} {f : α → List (Nat × Text)}
    (h : ∀ a ∈ l, Nests (f a)) : Nests (l.flatMap f) := by
  induction l with
  | nil => exact fun o => le_rfl
  | cons a l ih =>
    rw [List.flatMap_cons]
    exact (h a List.mem_cons_self).append (ih fun b hb => h b (List.mem_cons_of_mem a hb))

/-- A text that closes no block. -/
lemma nests_singleton {t : Text} (h : 0 ≤ Text.braceDelta t) : Nests [(o, t)] := by
  intro p
  rw [pendingFront, closing, textsAt]
  rcases Nat.lt_trichotomy o p with hlt | rfl | hlt
  · simpa [hlt, hlt.ne] using h
  · simpa using h
  · simp [hlt.not_gt, hlt.ne']

/-- A block that is closed behind its start. -/
lemma nests_pair {p : Nat} {t t' : Text} (hlt : o < p) (h : Text.braceDelta t = 1)
    (h' : Text.braceDelta t' = -1) : Nests [(o, t), (p, t')] := by
  intro q
  rw [pendingFront, closing, textsAt]
  rcases Nat.lt_trichotomy q o with hq | rfl | hq
  · simp [hq.not_gt, hq.ne', (hq.trans hlt).not_gt, (hq.trans hlt).ne']
  · simp [hlt.not_gt, hlt.ne', h]
  · rcases Nat.lt_trichotomy q p with hq' | rfl | hq'
    · simp [hq, hq.ne, hq'.not_gt, hq'.ne', h]
    · simp [hq, hq.ne, h, h']
    · simp [hq, hq.ne, hq', hq'.ne, h, h']

/-- What some of the texts at a place close is no more than what all of them close. -/
lemma sum_min_le (ts : List Text) :
    (ts.map fun t => min (Text.braceDelta t) 0).sum ≤ 0 ∧
      (ts.map fun t => min (Text.braceDelta t) 0).sum ≤ Text.braceDelta ts.flatten := by
  induction ts with
  | nil => exact ⟨le_rfl, le_rfl⟩
  | cons t ts ih =>
    rw [List.map_cons, List.sum_cons, List.flatten_cons, Text.braceDelta_append]
    omega

/-- Blocks are only closed where they are open. -/
lemma Nests.pending (h : Nests inserts) (o : Nat) : 0 ≤ pending inserts o := by
  have hplace := h o
  have hle := (sum_min_le (textsAt inserts o)).2
  rw [closing] at hplace
  rw [pending_eq]
  omega

/-- Blocks are only closed where they are open, text by text. -/
lemma Nests.order (h : Nests inserts) {front back : List Text} {seg : Text}
    (hsplit : textsAt inserts o = front ++ seg :: back) :
    0 ≤ pendingFront inserts o + Text.braceDelta (front ++ [seg]).flatten := by
  have hplace := h o
  have hback := (sum_min_le back).1
  have hfront := (sum_min_le (front ++ [seg])).2
  have hsplit' : front ++ seg :: back = (front ++ [seg]) ++ back := by simp
  rw [closing, hsplit, hsplit', List.map_append, List.sum_append] at hplace
  omega

/-- What the texts of several lists open in total. -/
lemma total_flatMap {α : Type} {l : List α} {f : α → List (Nat × Text)}
    (h : ∀ a ∈ l, total (f a) = 0) : total (l.flatMap f) = 0 := by
  induction l with
  | nil => rfl
  | cons a l ih =>
    have hfirst := h a List.mem_cons_self
    have hrest := ih fun b hb => h b (List.mem_cons_of_mem a hb)
    rw [total] at hfirst hrest ⊢
    rw [List.flatMap_cons, List.map_append, List.sum_append, hfirst, hrest]
    rfl

end Edit

namespace LoopSpan

/-! ### Places of edits -/

/-- The character behind which the body of a loop starts: its opening brace, or the end of its
header. -/
def bodyStart (span : LoopSpan) : Nat := span.brace.getD span.parenClose

variable {text : Text} {span : LoopSpan}

/-- The body starts behind the header. -/
lemma IsTrue.parenClose_le (h : span.IsTrue text) : span.parenClose ≤ span.bodyStart := by
  rw [bodyStart]
  cases hbrace : span.brace with
  | none => exact le_rfl
  | some b =>
    obtain ⟨gap, t, -, -, rfl⟩ := h.brace b hbrace
    rw [Option.getD_some]
    omega

/-- The body ends behind its start. -/
lemma IsTrue.bodyStart_lt (h : span.IsTrue text) {last : Nat} (hlast : span.bodyEnd = some last) :
    span.bodyStart < last := by
  obtain ⟨hclose, hbrace, -⟩ := h.bodyEnd last hlast
  rw [bodyStart]
  cases hb : span.brace with
  | none => exact hclose
  | some b => exact hbrace b hb

/-- The character behind which a body starts. -/
lemma IsTrue.bodyStart (h : span.IsTrue text) :
    text[span.bodyStart]? = some ')' ∨ text[span.bodyStart]? = some '{' := by
  rw [LoopSpan.bodyStart]
  cases hb : span.brace with
  | none => exact .inl h.parenClose
  | some b => exact .inr (h.brace b hb).getElem?

/-- Only blanks stand between a header and the start of the body. -/
lemma IsTrue.bodyStart_lt_of_ink (h : span.IsTrue text) {m : Nat} {c : Char}
    (hlt : span.parenClose < m) (hc : text[m]? = some c) (hblank : isBlank c = false)
    (hbrace : c ≠ '{') : span.bodyStart < m := by
  rw [LoopSpan.bodyStart]
  cases hb : span.brace with
  | none => exact hlt
  | some b =>
    by_contra hle
    rcases (h.brace b hb).cases hlt (Nat.le_of_not_lt hle) hc with hblank' | ⟨rfl, -⟩
    · exact absurd (hblank'.symm.trans hblank) (by simp)
    · exact hbrace rfl

/-- A body starts in front of the next loop. -/
lemma IsTrue.bodyStart_lt_keyword (h : span.IsTrue text) {next : LoopSpan}
    (hnext : next.IsTrue text)
    (hlt : span.parenClose < next.keyword) : span.bodyStart < next.keyword := by
  rcases hnext.keyword with hc | hc
  · exact h.bodyStart_lt_of_ink hlt hc (by decide) (by decide)
  · exact h.bodyStart_lt_of_ink hlt hc (by decide) (by decide)

/-- The offset and the rank of an edit of a loop: in front of the loop, at the start of its body or
behind it. -/
inductive IsPlace (text : Text) (span : LoopSpan) : Nat → Nat → Prop
  | front {o rank : Nat} (le : o ≤ span.keyword)
      (blanks : ∀ i, o ≤ i → i < span.keyword → ∀ c ∈ text[i]?, isBlank c = true)
      (hrank : rank = 0 ∧ (∀ i, i + 1 = o → ∀ c ∈ text[i]?, isBlank c = true) ∨
        rank = 1 ∧ o = span.keyword) : IsPlace text span o rank
  | body {rank : Nat}
      (hrank : rank = 1 ∨ rank = 2 ∧ ∀ c ∈ text[span.bodyStart + 1]?, isBlank c = true) :
      IsPlace text span (span.bodyStart + 1) rank
  | behind {last : Nat} (hlast : span.bodyEnd = some last) : IsPlace text span (last + 1) 1

/-- A place is in front of the loop, or right behind a character of it that is not blank. -/
lemma IsTrue.place_cases (h : span.IsTrue text) {o rank : Nat} (hplace : span.IsPlace text o rank) :
    (o ≤ span.keyword ∧ (∀ i, o ≤ i → i < span.keyword → ∀ c ∈ text[i]?, isBlank c = true) ∧
      (rank = 0 ∧ (∀ i, i + 1 = o → ∀ c ∈ text[i]?, isBlank c = true) ∨
        rank = 1 ∧ o = span.keyword)) ∨
    ∃ m c, o = m + 1 ∧ span.IsTail m ∧ span.bodyStart ≤ m ∧ text[m]? = some c ∧
      isBlank c = false ∧ isWordChar c = false ∧
      (rank = 1 ∨ rank = 2 ∧ ∀ c ∈ text[o]?, isBlank c = true) := by
  have hink : ∀ c ∈ [')', '{', ';', '}'], isBlank c = false ∧ isWordChar c = false := by
    intro c hc
    simp only [List.mem_cons, List.not_mem_nil, or_false] at hc
    rcases hc with rfl | rfl | rfl | rfl <;> exact ⟨by decide, by decide⟩
  cases hplace with
  | front le blanks hrank => exact .inl ⟨le, blanks, hrank⟩
  | body hrank =>
    have htail : span.IsTail span.bodyStart := by
      rw [LoopSpan.bodyStart]
      cases hb : span.brace with
      | none => exact .inl rfl
      | some b => exact .inr (.inl hb)
    obtain ⟨c, hc, hget⟩ := h.tail htail
    exact .inr ⟨_, c, rfl, htail, le_rfl, hget, (hink c hc).1, (hink c hc).2, hrank⟩
  | behind hlast =>
    have htail : span.IsTail _ := .inr (.inr hlast)
    obtain ⟨c, hc, hget⟩ := h.tail htail
    exact .inr ⟨_, c, rfl, htail, (h.bodyStart_lt hlast).le, hget, (hink c hc).1, (hink c hc).2,
      .inl rfl⟩

/-- A place stands beside its loop. -/
lemma IsTrue.isBeside (h : span.IsTrue text) {o rank : Nat} (hplace : span.IsPlace text o rank) :
    span.IsBeside text o := by
  rcases h.place_cases hplace with ⟨le, blanks, -⟩ | ⟨m, c, rfl, htail, -⟩
  · exact .inl ⟨le, blanks⟩
  · exact .inr ⟨m, htail, Nat.lt_succ_self m, fun i hlow hhigh => by omega⟩

/-- No word is cut at a place. -/
lemma IsTrue.startsWord_take (h : span.IsTrue text) {o rank : Nat}
    (hplace : span.IsPlace text o rank) : Text.startsWord (text.take o).reverse = false := by
  rcases h.place_cases hplace
    with ⟨le, -, ⟨-, hblank⟩ | ⟨-, rfl⟩⟩ | ⟨m, c, rfl, -, -, hc, -, hword, -⟩
  · obtain ⟨c, hc, -⟩ := h.mark (mem_marks_iff.mpr (.inl rfl))
    exact Text.startsWord_take_of_blank (le.trans (List.getElem?_eq_some_iff.mp hc).1.le) hblank
  · exact h.isWordStart
  · rw [Text.startsWord_take_succ hc, hword]

/-- A block is open at a place. -/
lemma IsTrue.mem_take (h : span.IsTrue text) {o rank : Nat} (hplace : span.IsPlace text o rank) :
    '{' ∈ text.take o := by
  rcases h.place_cases hplace with ⟨le, blanks, -⟩ | ⟨m, c, rfl, -, hm, -⟩
  · obtain ⟨i, hi, hbrace⟩ := List.mem_iff_getElem.mp h.isInside
    have hget : text[i]? = some '{' := by
      rw [List.getElem_take] at hbrace
      rw [← hbrace]
      exact List.getElem?_eq_getElem _
    have hlt : i < o := by
      by_contra hge
      rw [List.length_take] at hi
      have hblank := blanks i (Nat.le_of_not_lt hge) (by omega) '{' hget
      exact absurd hblank (by decide)
    rw [List.mem_iff_getElem?]
    exact ⟨i, by rw [List.getElem?_take_of_lt hlt, hget]⟩
  · have hlt := h.keyword_lt
    have hle := h.parenClose_le
    exact List.take_subset_take_left text (by omega) h.isInside

end LoopSpan

namespace Cap

/-! ### Groups -/

/-- The edits that cap a loop: its counter is declared, its guard is put in, and each block that
these two open is closed behind the body. -/
def IsGroup (lines : List Text) (start : Nat) (span : LoopSpan) (declaration guard : Text)
    (es : List Edit) : Prop :=
  ∃ d g last closer, Declares lines start span declaration d ∧ Guards lines start span guard g ∧
    span.bodyEnd = some last ∧ Closes lines start last closer ∧
    es = (d :: if span.bareBody then [closer] else []) ++
      (g :: if span.brace = none then [closer] else [])

variable {lines : List Text} {start : Nat} {span : LoopSpan} {declaration guard : Text}
  {es : List Edit} {e : Edit}

/-- An edit of a group declares, guards or closes. -/
lemma IsGroup.cases (h : IsGroup lines start span declaration guard es) (he : e ∈ es) :
    Declares lines start span declaration e ∨ Guards lines start span guard e ∨
      ∃ last, span.bodyEnd = some last ∧ Closes lines start last e := by
  obtain ⟨d, g, last, closer, hd, hg, hlast, hcloser, rfl⟩ := h
  rcases List.mem_append.mp he with he | he
  · rcases List.mem_cons.mp he with rfl | he
    · exact .inl hd
    · split at he
      · exact .inr (.inr ⟨last, hlast, List.mem_singleton.mp he ▸ hcloser⟩)
      · exact absurd he List.not_mem_nil
  · rcases List.mem_cons.mp he with rfl | he
    · exact .inr (.inl hg)
    · split at he
      · exact .inr (.inr ⟨last, hlast, List.mem_singleton.mp he ▸ hcloser⟩)
      · exact absurd he List.not_mem_nil

/-- The edits of a group stand beside their loop. -/
lemma IsGroup.isPlace (h : IsGroup lines start span declaration guard es) (he : e ∈ es) :
    span.IsPlace (Loop.flatCode lines start) (e.flat (Loop.codeFrom lines start) start).1 e.rank := by
  rcases h.cases he with hd | hg | ⟨last, hlast, hcloser⟩
  · exact .front hd.le hd.blanks hd.rank
  · have hrank := hg.rank
    rw [hg.offset] at hrank ⊢
    exact .body hrank
  · rw [hcloser.flat, hcloser.rank]
    exact .behind hlast

/-- The edits of a group are made in the code. -/
lemma IsGroup.placed (h : IsGroup lines start span declaration guard es) (he : e ∈ es) :
    e.IsPlaced (Loop.codeFrom lines start) start ∧ e.Fits lines := by
  rcases h.cases he with hd | hg | ⟨last, -, hcloser⟩
  · exact ⟨hd.placed, hd.fits⟩
  · exact ⟨hg.placed, hg.fits⟩
  · exact ⟨hcloser.placed, hcloser.fits⟩

/-- The text in front of a loop holds no loop, and opens a block if the loop is an unbraced body. -/
lemma Declares.isInert (h : Declares lines start span declaration e)
    (hinert : LoopScan.IsInert declaration) (hdelta : Text.braceDelta declaration = 0) :
    LoopScan.IsInert (e.flat (Loop.codeFrom lines start) start).2 ∧
      Text.braceDelta (e.flat (Loop.codeFrom lines start) start).2 =
        if span.bareBody then 1 else 0 := by
  obtain ⟨front, back, htext, hback, hfront⟩ := h.text
  have hbackDelta := LoopScan.braceDelta_of_isBlankOnly hback
  have hrest : LoopScan.IsInert (declaration ++ back) :=
    hinert.append (LoopScan.isInert_blank hback) hdelta.ge (.inr hdelta)
  have hrestDelta : Text.braceDelta (declaration ++ back) = 0 := by
    rw [Text.braceDelta_append, hdelta, hbackDelta]
    rfl
  rw [htext, Text.braceDelta_append, hrestDelta, add_zero]
  cases hbare : span.bareBody with
  | true =>
    rw [hbare, if_pos rfl] at hfront
    have hopen : LoopScan.IsInert "\x7b ".toList :=
      LoopScan.isInert_openBrace.append (LoopScan.isInert_blank (by decide)) (by decide)
        (.inl (by decide))
    rw [hfront]
    exact ⟨hopen.append hrest (by decide) (.inl hrestDelta.ge), by decide⟩
  | false =>
    rw [hbare, if_neg (by simp)] at hfront
    have hzero := LoopScan.braceDelta_of_isBlankOnly hfront
    exact ⟨(LoopScan.isInert_blank hfront).append hrest hzero.ge (.inr hzero), hzero⟩

/-- The text at the start of a body holds no loop, and opens a block if the body has no brace. -/
lemma Guards.isInert (h : Guards lines start span guard e) (hinert : LoopScan.IsInert guard)
    (hdelta : Text.braceDelta guard = 0) :
    LoopScan.IsInert (e.flat (Loop.codeFrom lines start) start).2 ∧
      Text.braceDelta (e.flat (Loop.codeFrom lines start) start).2 =
        if span.brace = none then 1 else 0 := by
  obtain ⟨front, htext, hfront⟩ := h.text
  rw [htext, Text.braceDelta_append, hdelta, add_zero]
  by_cases hnone : span.brace = none
  · rw [if_pos hnone] at hfront ⊢
    have hopen : LoopScan.IsInert "\x7b ".toList :=
      LoopScan.isInert_openBrace.append (LoopScan.isInert_blank (by decide)) (by decide)
        (.inl (by decide))
    have hblock : LoopScan.IsInert " \x7b ".toList :=
      (LoopScan.isInert_blank (g := [' ']) (by decide)).append hopen (by decide) (.inl (by decide))
    rw [hfront]
    exact ⟨hblock.append hinert (by decide) (.inl hdelta.ge), by decide⟩
  · rw [if_neg hnone] at hfront ⊢
    have hzero := LoopScan.braceDelta_of_isBlankOnly hfront
    exact ⟨(LoopScan.isInert_blank hfront).append hinert hzero.ge (.inr hzero), hzero⟩

/-- The text that closes a block holds no loop. -/
lemma isInert_closer : LoopScan.IsInert " \x7d".toList :=
  (LoopScan.isInert_blank (g := [' ']) (by decide)).append LoopScan.isInert_closeBrace (by decide)
    (.inr (by decide))

/-- The texts of a group hold no loops. -/
lemma IsGroup.isInert (h : IsGroup lines start span declaration guard es) (he : e ∈ es)
    (hd : LoopScan.IsInert declaration ∧ Text.braceDelta declaration = 0)
    (hg : LoopScan.IsInert guard ∧ Text.braceDelta guard = 0) :
    LoopScan.IsInert (e.flat (Loop.codeFrom lines start) start).2 := by
  rcases h.cases he with hdeclares | hguards | ⟨last, -, hcloser⟩
  · exact (hdeclares.isInert hd.1 hd.2).1
  · exact (hguards.isInert hg.1 hg.2).1
  · rw [hcloser.flat]
    exact isInert_closer

/-- A group closes the blocks it opens, behind the places where it opens them. -/
lemma IsGroup.nests (h : IsGroup lines start span declaration guard es)
    (htrue : span.IsTrue (Loop.flatCode lines start))
    (hd : LoopScan.IsInert declaration ∧ Text.braceDelta declaration = 0)
    (hg : LoopScan.IsInert guard ∧ Text.braceDelta guard = 0) :
    Edit.Nests (es.map (Edit.flat (Loop.codeFrom lines start) start)) ∧
      Edit.total (es.map (Edit.flat (Loop.codeFrom lines start) start)) = 0 := by
  obtain ⟨d, g, last, closer, hdeclares, hguards, hlast, hcloser, rfl⟩ := h
  have hpart : ∀ (x : Edit) (opens : Prop) [Decidable opens],
      (x.flat (Loop.codeFrom lines start) start).1 < last + 1 →
      Text.braceDelta (x.flat (Loop.codeFrom lines start) start).2 = (if opens then 1 else 0) →
      Edit.Nests ((x :: if opens then [closer] else []).map
        (Edit.flat (Loop.codeFrom lines start) start)) ∧
      Edit.total ((x :: if opens then [closer] else []).map
        (Edit.flat (Loop.codeFrom lines start) start)) = 0 := by
    intro x opens _ hlt hdelta
    by_cases hopens : opens
    · rw [if_pos hopens] at hdelta
      rw [if_pos hopens, List.map_cons, List.map_singleton, hcloser.flat]
      refine ⟨Edit.nests_pair hlt hdelta (by decide), ?_⟩
      rw [Edit.total, List.map_cons, List.sum_cons, hdelta, List.map_singleton, List.sum_singleton]
      exact (by decide : (1 : Int) + Text.braceDelta " \x7d".toList = 0)
    · rw [if_neg hopens] at hdelta
      rw [if_neg hopens, List.map_singleton]
      refine ⟨Edit.nests_singleton hdelta.ge, ?_⟩
      rw [Edit.total, List.map_singleton, List.sum_singleton, hdelta]
  have hkeyword := htrue.keyword_lt
  have hclose := htrue.parenClose_le
  have hstart := htrue.bodyStart_lt hlast
  have hfront := hdeclares.le
  have hoffset : (g.flat (Loop.codeFrom lines start) start).1 = span.bodyStart + 1 := hguards.offset
  obtain ⟨hnests, htotal⟩ :=
    hpart d (span.bareBody = true) (by omega) (hdeclares.isInert hd.1 hd.2).2
  obtain ⟨hnests', htotal'⟩ := hpart g (span.brace = none) (by omega) (hguards.isInert hg.1 hg.2).2
  rw [List.map_append]
  refine ⟨hnests.append hnests', ?_⟩
  rw [Edit.total, List.map_append, List.sum_append, ← Edit.total, ← Edit.total, htotal, htotal']
  rfl

/-! ### The groups of a text -/

/-- What is asked of a text whose loops are capped: its lines close their comments, the caps are not
negative, and the loops that are capped have an end. -/
structure IsCappable (lines : List Text) (start : Nat) (caps : Caps) : Prop where
  closed : Comment.AreClosed lines
  valid : ∀ entry ∈ caps, 0 ≤ entry.1 ∧ 0 ≤ entry.2
  ends : ∀ loop ∈ Loop.find lines start, (capOf? caps loop).isSome = true →
    loop.bodyEnd.isSome = true

/-- The edits of a loop; there are none without a cap. -/
def group (lines : List Text) (caps : Caps) (loop : Loop) : List Edit :=
  match capOf? caps loop with
  | none => []
  | some cap =>
    (counterEdits {} lines (Comment.strip lines) loop).toOption.getD [] ++
      (guardEdits {} lines (Comment.strip lines) loop cap).toOption.getD []

/-- A loop of a text by its offsets. -/
def loopAt (lines : List Text) (start : Nat) (span : LoopSpan) (index : Nat) : Loop :=
  Loop.ofSpan ⟨Loop.codeFrom lines start, start⟩ span index

variable {caps : Caps} {index : Nat} {cap : Int}

/-- The loops of a text by their offsets. -/
lemma getElem?_find (lines : List Text) (start index : Nat) :
    (Loop.find lines start)[index]? =
      (Loop.spans (Loop.flatCode lines start))[index]?.map fun span =>
        loopAt lines start span index := by
  rw [Loop.find_eq_mapIdx, List.getElem?_mapIdx]
  rfl

/-- **A capped loop has a group of edits.** -/
lemma IsCappable.exists_group (h : IsCappable lines start caps)
    (hspan : (Loop.spans (Loop.flatCode lines start))[index]? = some span)
    (hcap : capOf? caps (loopAt lines start span index) = some cap) :
    ∃ counter guards, counterEdits {} lines (Comment.strip lines) (loopAt lines start span index) =
        .ok counter ∧
      guardEdits {} lines (Comment.strip lines) (loopAt lines start span index) cap = .ok guards ∧
      0 ≤ cap ∧ IsGroup lines start span (Cap.declaration {} (loopAt lines start span index))
        (Cap.guard {} (loopAt lines start span index) cap) (counter ++ guards) := by
  have hmem := List.mem_of_getElem? hspan
  have hnonneg : 0 ≤ cap := by
    obtain ⟨entry, hentry, rfl⟩ := Option.map_eq_some_iff.mp hcap
    exact (h.valid entry (List.mem_of_find?_eq_some hentry)).2
  have hfind : loopAt lines start span index ∈ Loop.find lines start := by
    refine List.mem_of_getElem? (i := index) ?_
    rw [getElem?_find, hspan]
    rfl
  obtain ⟨last, hlast⟩ : ∃ last, span.bodyEnd = some last := by
    have hend := h.ends _ hfind (by rw [hcap]; rfl)
    cases hend' : span.bodyEnd with
    | some last => exact ⟨last, rfl⟩
    | none =>
      have hnone : (loopAt lines start span index).bodyEnd = none := congrArg (Option.map _) hend'
      rw [hnone] at hend
      exact absurd hend (by simp)
  obtain ⟨closer, hcloseBody, hcloser⟩ := exists_closes h.closed hmem hlast index
  obtain ⟨d, hcounter, hd⟩ := counterEdits_eq h.closed hmem {} index (isStatement_declaration _)
  obtain ⟨g, hguard, hg⟩ := guardEdits_eq h.closed hmem
    (by decide : Text.isBlankOnly ({} : Config).indent = true) index cap
    (isStatement_guard _ hnonneg)
  rw [hcloseBody] at hcounter hguard
  exact ⟨_, _, hcounter, hguard, hnonneg, d, g, last, closer, hd, hg, hlast, hcloser, rfl⟩

/-- The group of a loop with its cap. -/
lemma IsCappable.isGroup (h : IsCappable lines start caps)
    (hspan : (Loop.spans (Loop.flatCode lines start))[index]? = some span)
    (hcap : capOf? caps (loopAt lines start span index) = some cap) :
    0 ≤ cap ∧ IsGroup lines start span (Cap.declaration {} (loopAt lines start span index))
      (Cap.guard {} (loopAt lines start span index) cap)
      (group lines caps (loopAt lines start span index)) := by
  obtain ⟨counter, guards, hcounter, hguards, hnonneg, hgroup⟩ := h.exists_group hspan hcap
  rw [group, hcap]
  dsimp only
  rw [hcounter, hguards]
  exact ⟨hnonneg, hgroup⟩

/-- **The edits of a text are the groups of its loops.** -/
theorem IsCappable.edits_eq (h : IsCappable lines start caps) :
    edits {} lines start caps = .ok ((Loop.find lines start).flatMap (group lines caps)) := by
  have hfor : ∀ loops : List Loop, (∀ loop ∈ loops, loop ∈ Loop.find lines start) →
      editsFor {} lines (Comment.strip lines) caps loops =
        .ok (loops.flatMap (group lines caps)) := by
    intro loops hloops
    induction loops with
    | nil => rfl
    | cons loop loops ih =>
      have hrest := ih fun x hx => hloops x (List.mem_cons_of_mem loop hx)
      obtain ⟨index, hindex⟩ := List.mem_iff_getElem?.mp (hloops loop List.mem_cons_self)
      rw [getElem?_find, Option.map_eq_some_iff] at hindex
      obtain ⟨span, hspan, rfl⟩ := hindex
      rw [editsFor, List.flatMap_cons, group]
      cases hcap : capOf? caps (loopAt lines start span index) with
      | none => exact hrest
      | some cap =>
        obtain ⟨counter, guards, hcounter, hguards, -⟩ := h.exists_group hspan hcap
        dsimp only
        rw [hcounter, hguards, hrest]
        rfl
  exact hfor _ fun _ hloop => hloop

/-- An edit belongs to the group of a capped loop. -/
lemma IsCappable.exists_of_mem (h : IsCappable lines start caps) {loops : List Loop}
    (hloops : ∀ loop ∈ loops, loop ∈ Loop.find lines start)
    (he : e ∈ loops.flatMap (group lines caps)) :
    ∃ index span cap, (Loop.spans (Loop.flatCode lines start))[index]? = some span ∧
      loopAt lines start span index ∈ loops ∧ 0 ≤ cap ∧
      IsGroup lines start span (Cap.declaration {} (loopAt lines start span index))
        (Cap.guard {} (loopAt lines start span index) cap)
        (group lines caps (loopAt lines start span index)) ∧
      e ∈ group lines caps (loopAt lines start span index) := by
  obtain ⟨loop, hloop, he⟩ := List.mem_flatMap.mp he
  obtain ⟨index, hindex⟩ := List.mem_iff_getElem?.mp (hloops loop hloop)
  rw [getElem?_find, Option.map_eq_some_iff] at hindex
  obtain ⟨span, hspan, rfl⟩ := hindex
  cases hcap : capOf? caps (loopAt lines start span index) with
  | none =>
    rw [group, hcap] at he
    exact absurd he List.not_mem_nil
  | some cap =>
    obtain ⟨hnonneg, hgroup⟩ := h.isGroup hspan hcap
    exact ⟨index, span, cap, hspan, hloop, hnonneg, hgroup, he⟩

/-- The texts that are put into the flat code, with their offsets. -/
def inserts (lines : List Text) (start : Nat) (caps : Caps) : List (Nat × Text) :=
  (Edit.byRank ((Loop.find lines start).flatMap (group lines caps))).map
    (Edit.flat (Loop.codeFrom lines start) start)

/-- The inserted texts in the order of the loops. -/
lemma inserts_perm (lines : List Text) (start : Nat) (caps : Caps) :
    (inserts lines start caps).Perm ((Loop.find lines start).flatMap fun loop =>
      (group lines caps loop).map (Edit.flat (Loop.codeFrom lines start) start)) := by
  rw [inserts, ← List.map_flatMap]
  exact (Edit.byRank_perm _).map _

/-- **The edits that cap loops leave the loops where they are**, and close all blocks they open. -/
theorem IsCappable.grows (h : IsCappable lines start caps)
    (hclean : Edit.IsClean (Loop.flatCode lines start)) :
    Edit.Grows (Loop.flatCode lines start) (inserts lines start caps) ∧
      Edit.total (inserts lines start caps) = 0 := by
  have hedit : ∀ insert ∈ inserts lines start caps, ∃ (span : LoopSpan) (e : Edit),
      span ∈ Loop.spans (Loop.flatCode lines start) ∧ span.IsTrue (Loop.flatCode lines start) ∧
      insert = e.flat (Loop.codeFrom lines start) start ∧
      e.IsPlaced (Loop.codeFrom lines start) start ∧ LoopScan.IsInert insert.2 ∧
      span.IsPlace (Loop.flatCode lines start) insert.1 e.rank := by
    intro insert hinsert
    obtain ⟨e, he, rfl⟩ := List.mem_map.mp hinsert
    obtain ⟨index, span, cap, hspan, -, hnonneg, hgroup, he⟩ :=
      h.exists_of_mem (fun _ hloop => hloop) ((Edit.byRank_perm _).mem_iff.mp he)
    have hmem := List.mem_of_getElem? hspan
    exact ⟨span, e, hmem, (Loop.isTrue_of_mem_spans hmem).1, rfl, (hgroup.placed he).1,
      hgroup.isInert he ⟨isInert_declaration _, braceDelta_declaration _⟩
        ⟨isInert_guard _ hnonneg, braceDelta_guard _ hnonneg⟩, hgroup.isPlace he⟩
  have hgroups : ∀ loop ∈ Loop.find lines start,
      Edit.Nests ((group lines caps loop).map (Edit.flat (Loop.codeFrom lines start) start)) ∧
        Edit.total ((group lines caps loop).map (Edit.flat (Loop.codeFrom lines start) start)) = 0 := by
    intro loop hloop
    obtain ⟨index, hindex⟩ := List.mem_iff_getElem?.mp hloop
    rw [getElem?_find, Option.map_eq_some_iff] at hindex
    obtain ⟨span, hspan, rfl⟩ := hindex
    cases hcap : capOf? caps (loopAt lines start span index) with
    | none =>
      rw [group, hcap]
      exact ⟨fun _ => le_rfl, rfl⟩
    | some cap =>
      obtain ⟨hnonneg, hgroup⟩ := h.isGroup hspan hcap
      exact hgroup.nests (Loop.isTrue_of_mem_spans (List.mem_of_getElem? hspan)).1
        ⟨isInert_declaration _, braceDelta_declaration _⟩
        ⟨isInert_guard _ hnonneg, braceDelta_guard _ hnonneg⟩
  have hnests : Edit.Nests (inserts lines start caps) :=
    (Edit.nests_flatMap fun loop hloop => (hgroups loop hloop).1).of_perm (inserts_perm _ _ _)
  refine ⟨⟨?_, ?_, ?_, ?_, ?_, hnests.pending, ?_⟩, ?_⟩
  · intro insert hinsert
    obtain ⟨span, e, -, -, rfl, hplaced, -⟩ := hedit insert hinsert
    exact hplaced.flat_le
  · intro insert hinsert
    obtain ⟨span, e, -, -, -, -, hinert, -⟩ := hedit insert hinsert
    exact hinert
  · intro insert hinsert
    obtain ⟨span, e, hmem, htrue, -, -, -, hplace⟩ := hedit insert hinsert
    exact ⟨span, hmem, htrue.isBeside hplace⟩
  · intro insert hinsert
    obtain ⟨span, e, -, htrue, -, -, -, hplace⟩ := hedit insert hinsert
    exact htrue.startsWord_take hplace
  · intro insert hinsert
    obtain ⟨span, e, -, htrue, -, -, -, hplace⟩ := hedit insert hinsert
    exact htrue.mem_take hplace
  · exact fun o front seg back hsplit => .inr ⟨hclean, hnests.order hsplit⟩
  · have hperm : Edit.total (inserts lines start caps) = Edit.total
        ((Loop.find lines start).flatMap fun loop =>
          (group lines caps loop).map (Edit.flat (Loop.codeFrom lines start) start)) :=
      ((inserts_perm lines start caps).map _).sum_eq
    rw [hperm]
    exact Edit.total_flatMap fun loop hloop => (hgroups loop hloop).2

end Cap

end ShaderProbe
