import Mathlib
import ShaderProbe.Proofs.CapPlaces
import ShaderProbe.Proofs.OpenLoops
import ShaderProbe.Proofs.TypeScope

/-!
# Blocks in a text that has grown

Texts are put into code, and some of them open blocks that others close.

* Where every text closes at once what it closes, and the texts up to a place close no more than
  those in front of them have opened, a front of the text that has grown is at least as deep as some
  front of the text (`Edit.exists_isPrefix_of_weave`).
* The edits that cap the loops behind a place are such texts (`Cap.nests_of_editsFor`).
* Hence capping closes no block around a place of the code in front of which all loops have ended
  (`Cap.exists_keepsOpenBehind_of_apply`).
-/

namespace ShaderProbe

namespace Text

/-- The blocks around the start of a text are open wherever the text behind it is read. -/
def KeepsOpenBehind (text rest : Text) : Prop :=
  ∀ front, front <+: rest → 0 ≤ braceDelta (text ++ front)

instance (text rest : Text) : Decidable (KeepsOpenBehind text rest) :=
  decidable_of_iff (∀ front ∈ rest.inits, 0 ≤ braceDelta (text ++ front))
    (forall_congr' fun front => by rw [List.mem_inits])

/-- A text without braces in front does not matter. -/
lemma keepsOpenBehind_append_iff {gap : Text} (h : braceDelta gap = 0) (text rest : Text) :
    KeepsOpenBehind (gap ++ text) rest ↔ KeepsOpenBehind text rest := by
  refine forall_congr' fun front => ?_
  rw [List.append_assoc, braceDelta_append, h, zero_add]

end Text

namespace Edit

variable {inserts : List (Nat × Text)} {o : Nat}

/-! ### Texts that close blocks -/

/-- No front of the text closes more blocks than the text as a whole. -/
def ClosesAtOnce (t : Text) : Prop :=
  ∀ front, front <+: t → min (Text.braceDelta t) 0 ≤ Text.braceDelta front

/-- A text without a closing brace closes nothing. -/
lemma closesAtOnce_of_not_mem {t : Text} (h : '}' ∉ t) : ClosesAtOnce t := by
  intro front hfront
  have hnone : front.count '}' = 0 := List.count_eq_zero.mpr fun hmem => h (hfront.subset hmem)
  have hle : 0 ≤ Text.braceDelta front := by
    unfold Text.braceDelta
    omega
  omega

/-- The fronts of a text can be tried one by one. -/
lemma closesAtOnce_of_inits {t : Text}
    (h : ∀ front ∈ t.inits, min (Text.braceDelta t) 0 ≤ Text.braceDelta front) : ClosesAtOnce t :=
  fun front hfront => h front ((List.mem_inits front t).mpr hfront)

/-- A front of several texts closes at most what the texts close. -/
lemma sum_min_le_of_isPrefix {ts : List Text} (h : ∀ t ∈ ts, ClosesAtOnce t) {front : Text}
    (hfront : front <+: ts.flatten) :
    (ts.map fun t => min (Text.braceDelta t) 0).sum ≤ Text.braceDelta front := by
  induction ts generalizing front with
  | nil =>
    obtain rfl := List.prefix_nil.mp hfront
    exact le_rfl
  | cons t ts ih =>
    have hsum := (sum_min_le ts).1
    have ht := h t List.mem_cons_self
    rw [List.map_cons, List.sum_cons]
    rw [List.flatten_cons] at hfront
    rcases Text.isPrefix_append_iff.mp hfront with hfront | ⟨front', hfront', rfl⟩
    · have := ht front hfront
      omega
    · have := ih (fun t ht => h t (List.mem_cons_of_mem _ ht)) hfront'
      rw [Text.braceDelta_append]
      omega

/-! ### The depth of a text that has grown -/

/-- **A front of the text that has grown** is at least as deep as some front of the text. -/
lemma exists_isPrefix_of_weave (hnests : Nests inserts)
    (hclose : ∀ insert ∈ inserts, ClosesAtOnce insert.2) {t : Text}
    (hbound : ∀ insert ∈ inserts, insert.1 ≤ o + t.length) {front : Text}
    (h : front <+: weave inserts o t) :
    ∃ front', front' <+: t ∧
      Text.braceDelta front' ≤ pendingFront inserts o + Text.braceDelta front := by
  -- a front that ends among the texts at the first place
  have hfirst : ∀ {o : Nat} {front : Text}, front <+: (textsAt inserts o).flatten →
      0 ≤ pendingFront inserts o + Text.braceDelta front := by
    intro o front hfront
    have hsum := sum_min_le_of_isPrefix (fun t ht => hclose _ (exists_of_mem_textsAt ht)) hfront
    have := hnests o
    rw [closing] at this
    omega
  induction t generalizing o front with
  | nil =>
    rw [weave_end (by simpa using hbound)] at h
    exact ⟨[], List.nil_prefix, hfirst h⟩
  | cons c t ih =>
    rw [weave_cons] at h
    rcases Text.isPrefix_append_iff.mp h with h | ⟨behind, hbehind, rfl⟩
    · exact ⟨[], List.nil_prefix, hfirst h⟩
    rcases List.prefix_cons_iff.mp hbehind with rfl | ⟨back, rfl, hback⟩
    · refine ⟨[], List.nil_prefix, ?_⟩
      rw [List.append_nil]
      exact hfirst (List.prefix_refl _)
    · obtain ⟨front', hfront', hdelta⟩ := ih (fun insert hmem => by
        have := hbound insert hmem
        rw [List.length_cons] at this
        omega) hback
      refine ⟨c :: front', List.cons_prefix_cons.mpr ⟨rfl, hfront'⟩, ?_⟩
      rw [pendingFront_succ, pending_eq] at hdelta
      rw [Text.braceDelta_cons, Text.braceDelta_append, Text.braceDelta_cons c back]
      omega

/-- What the texts that are put into a front open. -/
lemma braceDelta_weaveFront (inserts : List (Nat × Text)) (o : Nat) (s : Text) :
    Text.braceDelta (weaveFront inserts o s) + pendingFront inserts o =
      Text.braceDelta s + pendingFront inserts (o + s.length) := by
  induction s generalizing o with
  | nil => simp [weaveFront]
  | cons c s ih =>
    have := ih (o + 1)
    rw [pendingFront_succ, pending_eq, show o + 1 + s.length = o + (c :: s).length by
      rw [List.length_cons]; omega] at this
    rw [weaveFront, Text.braceDelta_append, Text.braceDelta_cons, Text.braceDelta_cons c s]
    omega

/-- Texts behind a place open nothing in front of it. -/
lemma pendingFront_eq_zero (h : ∀ insert ∈ inserts, o ≤ insert.1) : pendingFront inserts o = 0 := by
  rw [pendingFront, List.filter_eq_nil_iff.mpr fun insert hmem => by
    have := h insert hmem
    simpa using this]
  rfl

/-- **The two parts of a text that has grown.**  A front that reaches into the second part is at
least as deep as some front of the text that reaches there. -/
theorem exists_isPrefix_of_append (hnests : Nests inserts)
    (hclose : ∀ insert ∈ inserts, ClosesAtOnce insert.2) (hfirst : ∀ insert ∈ inserts, o ≤ insert.1)
    {s t : Text} (hbound : ∀ insert ∈ inserts, insert.1 ≤ o + (s ++ t).length) {front : Text}
    (h : front <+: weave inserts (o + s.length) t) :
    ∃ front', front' <+: t ∧
      Text.braceDelta (s ++ front') ≤ Text.braceDelta (weaveFront inserts o s ++ front) := by
  obtain ⟨front', hfront', hdelta⟩ := exists_isPrefix_of_weave hnests hclose (fun insert hmem => by
    have := hbound insert hmem
    rw [List.length_append] at this
    omega) h
  refine ⟨front', hfront', ?_⟩
  have hweave := braceDelta_weaveFront inserts o s
  rw [pendingFront_eq_zero hfirst] at hweave
  rw [Text.braceDelta_append, Text.braceDelta_append]
  omega

/-- **A text without braces that is put in does not matter.** -/
lemma keepsOpenBehind_weave_iff {p : Nat} {a s t : Text} (hopen : '{' ∉ a) (hclose : '}' ∉ a)
    (hfirst : o ≤ p) (hbound : p ≤ o + (s ++ t).length) :
    Text.KeepsOpenBehind (weaveFront [(p, a)] o s) (weave [(p, a)] (o + s.length) t) ↔
      Text.KeepsOpenBehind s t := by
  have hdelta : Text.braceDelta a = 0 := by
    rw [Text.braceDelta, List.count_eq_zero.mpr hopen, List.count_eq_zero.mpr hclose]
    rfl
  have hpending : ∀ o, pendingFront [(p, a)] o = 0 := by
    intro o
    rw [pendingFront]
    by_cases hlt : p < o <;> simp [hlt, hdelta]
  have hsame : ∀ o s, Text.braceDelta (weaveFront [(p, a)] o s) = Text.braceDelta s := by
    intro o s
    have := braceDelta_weaveFront [(p, a)] o s
    rw [hpending, hpending] at this
    omega
  constructor
  · rintro h front ⟨rest, rfl⟩
    have := h (weaveFront [(p, a)] (o + s.length) front) (by
      rw [weave_append_eq]
      exact List.prefix_append _ _)
    rwa [Text.braceDelta_append, hsame, hsame, ← Text.braceDelta_append] at this
  · intro h front hfront
    obtain ⟨front', hfront', hle⟩ := exists_isPrefix_of_append (nests_singleton hdelta.ge)
      (by simpa using closesAtOnce_of_not_mem hclose) (by simpa using hfirst)
      (by simpa using hbound) hfront
    exact (h front' hfront').trans hle

/-- Texts in front of a place do not matter behind it. -/
lemma textsAt_filter {n column : Nat} (h : n ≤ column) :
    textsAt (inserts.filter fun insert => n ≤ insert.1) column = textsAt inserts column := by
  rw [textsAt, textsAt, List.filter_filter]
  congr 1
  refine List.filter_congr fun insert _ => ?_
  by_cases heq : insert.1 = column
  · simp [heq, h]
  · simp [heq]

lemma weave_filter {n column : Nat} (h : n ≤ column) (t : Text) :
    weave (inserts.filter fun insert => n ≤ insert.1) column t = weave inserts column t := by
  induction t generalizing column with
  | nil =>
    rw [weave, weave, List.filter_filter]
    congr 2
    refine List.filter_congr fun insert _ => ?_
    by_cases hle : column ≤ insert.1
    · simp [hle, h.trans hle]
    · simp [hle]
  | cons c t ih => rw [weave_cons, weave_cons, textsAt_filter h, ih (by omega)]

lemma weaveFront_filter {n column : Nat} (h : n ≤ column) (t : Text) :
    weaveFront (inserts.filter fun insert => n ≤ insert.1) column t =
      weaveFront inserts column t := by
  induction t generalizing column with
  | nil => rfl
  | cons c t ih => rw [weaveFront, weaveFront, textsAt_filter h, ih (by omega)]

lemma weaveFront_nil (column : Nat) (t : Text) : weaveFront [] column t = t := by
  induction t generalizing column with
  | nil => rfl
  | cons c t ih => exact congrArg (c :: ·) (ih (column + 1))

/-- A front is kept, with the texts put in. -/
lemma sublist_weaveFront (inserts : List (Nat × Text)) (column : Nat) (t : Text) :
    t.Sublist (weaveFront inserts column t) := by
  induction t generalizing column with
  | nil => exact List.nil_sublist _
  | cons c t ih =>
    rw [weaveFront]
    exact ((ih (column + 1)).cons_cons c).trans (List.sublist_append_right _ _)

/-- A mark of the text into which nothing is put stays in one piece. -/
lemma weave_mark {a w : Text} (hw : w ≠ [])
    (hside : ∀ insert ∈ inserts, insert.1 ≤ a.length ∨ (a ++ w).length ≤ insert.1) (t : Text) :
    weave inserts 0 (a ++ (w ++ t)) =
      (weaveFront inserts 0 a ++ (textsAt inserts a.length).flatten) ++
        (w ++ weave inserts (a ++ w).length t) := by
  obtain ⟨c, u, rfl⟩ := List.exists_cons_of_ne_nil hw
  have hlength : (a ++ c :: u).length = a.length + 1 + u.length := by
    rw [List.length_append, List.length_cons]
    omega
  have hinside : ∀ insert ∈ inserts,
      ¬(a.length + 1 ≤ insert.1 ∧ insert.1 < a.length + 1 + u.length) := by
    intro insert hmem
    have := hside insert hmem
    omega
  rw [weave_append_eq, Nat.zero_add, List.cons_append, weave_cons, weave_append hinside, ← hlength,
    List.append_assoc, List.cons_append]

/-- A front with the texts at its end is at least as deep as it was. -/
lemma Nests.le_braceDelta (h : Nests inserts) (a : Text) :
    Text.braceDelta a ≤
      Text.braceDelta (weaveFront inserts 0 a ++ (textsAt inserts a.length).flatten) := by
  have hfront := braceDelta_weaveFront inserts 0 a
  have hplace := h.pending a.length
  rw [pendingFront_eq_zero (by simp), Nat.zero_add] at hfront
  rw [pending_eq] at hplace
  rw [Text.braceDelta_append]
  omega

end Edit

namespace Cap

variable {lines : List Text} {start : Nat} {span : LoopSpan} {edits : List Edit}

/-! ### Caps in front of a place and behind it -/

/-- What ends a loop stands behind its keyword. -/
lemma keyword_lt_of_isTail {text : Text} (h : span.IsTrue text) {m : Nat} (hm : span.IsTail m) :
    span.keyword < m := by
  have hlt := h.keyword_lt
  rcases hm with rfl | hbrace | hend
  · exact hlt
  · obtain ⟨gap, t, -, -, rfl⟩ := h.brace m hbrace
    omega
  · have := (h.bodyEnd m hend).1
    omega

/-- An edit beside a loop is on the same side of a character of the code as the loop. -/
lemma Adjoins.side {e : Edit} (h : Adjoins lines start span e)
    (htrue : span.IsTrue (Text.ofLines (Loop.blankCode lines start))) {n : Nat} {y : Char}
    (hy : (Text.ofLines (Loop.blankCode lines start))[n]? = some y) (hink : isBlank y = false) :
    ((∀ m ∈ span.marks, m < n) → (flatInCode lines start e).1 ≤ n) ∧
      (n < span.keyword → n < (flatInCode lines start e).1) := by
  have hblank : ∀ {P : Prop}, (∀ c ∈ (Text.ofLines (Loop.blankCode lines start))[n]?,
      isBlank c = true) → P := fun hall => absurd (hall y hy) (by simp [hink])
  rw [flatInCode, Edit.flat_inCode]
  rcases h.isBeside with ⟨hle, hall⟩ | ⟨m, hm, hlt, hall⟩
  · constructor
    · intro hmarks
      have := hmarks span.keyword (LoopSpan.mem_marks_iff.mpr (.inl rfl))
      omega
    · intro hn
      by_contra hge
      exact hblank (hall n (by omega) hn)
  · constructor
    · intro hmarks
      by_contra hgt
      exact hblank (hall n (hmarks m hm.mem_marks) (by omega))
    · intro hn
      have := keyword_lt_of_isTail htrue hm
      omega

/-- A bound closes a block at once or not at all. -/
lemma Adjoins.closesAtOnce {e : Edit} (h : Adjoins lines start span e) :
    Edit.ClosesAtOnce (flatInCode lines start e).2 := by
  rcases h.isBound.closes with hnone | htext
  · exact Edit.closesAtOnce_of_not_mem (brace_not_mem_flatInCode hnone)
  · -- a brace is as much at once on a line of its own
    have hlines : ∀ inBlock, let t := (Comment.blankLine inBlock " \x7d".toList).1
        (∀ front ∈ (t ++ ['\n']).inits,
          min (Text.braceDelta (t ++ ['\n'])) 0 ≤ Text.braceDelta front) ∧
        ∀ front ∈ ('\n' :: t).inits,
          min (Text.braceDelta ('\n' :: t)) 0 ≤ Text.braceDelta front := by
      decide
    cases e with
    | inline line column text =>
      obtain rfl : text = _ := htext
      have hinits : ∀ front ∈ " \x7d".toList.inits,
          min (Text.braceDelta " \x7d".toList) 0 ≤ Text.braceDelta front := by decide
      exact Edit.closesAtOnce_of_inits hinits
    | lineBefore line text =>
      obtain rfl : text = _ := htext
      exact Edit.closesAtOnce_of_inits (hlines _).1
    | lineAfter line text =>
      obtain rfl : text = _ := htext
      exact Edit.closesAtOnce_of_inits (hlines _).2

/-- The edits that cap loops behind a place close what they open. -/
lemma nests_of_editsFor {caps : Caps} (hcaps : ∀ entry ∈ caps, 0 ≤ entry.2) {n : Nat}
    (hside : ∀ span ∈ Loop.spans (Text.ofLines (Loop.blankCode lines start)),
      (∀ e, Adjoins lines start span e → (flatInCode lines start e).1 < n) ∨
        ∀ e, Adjoins lines start span e → n ≤ (flatInCode lines start e).1) {loops : List Loop}
    (hloops : ∀ loop ∈ loops, loop ∈ Loop.find lines start)
    (h : editsFor {} lines (Comment.strip lines) caps loops = .ok edits) :
    Edit.Nests ((edits.map (flatInCode lines start)).filter fun insert => n ≤ insert.1) := by
  induction loops generalizing edits with
  | nil =>
    obtain rfl := Except.ok.inj h
    exact fun o => le_rfl
  | cons loop loops ih =>
    have hrest := fun other hother => hloops other (List.mem_cons_of_mem loop hother)
    rw [editsFor] at h
    split at h
    · exact ih hrest h
    · rename_i cap hcap
      obtain ⟨counter, hcounter, h⟩ := bind_eq_ok_iff.mp h
      obtain ⟨guard, hguard, h⟩ := bind_eq_ok_iff.mp h
      obtain ⟨others, hothers, h⟩ := bind_eq_ok_iff.mp h
      obtain rfl := Except.ok.inj h
      obtain ⟨index, hindex⟩ := List.mem_iff_getElem?.mp (hloops loop List.mem_cons_self)
      rw [Loop.getElem?_find_blankCode] at hindex
      obtain ⟨span, hspan, rfl⟩ := Option.map_eq_some_iff.mp hindex
      have hspan := List.mem_of_getElem? hspan
      obtain ⟨hadjoins, hnests⟩ := adjoins_of_counterEdits hspan hcounter
      obtain ⟨hadjoins', hnests'⟩ :=
        adjoins_of_guardEdits hspan (nonneg_of_capOf? hcaps hcap) hguard
      have hall : ∀ e ∈ counter ++ guard, Adjoins lines start span e := fun e he =>
        (List.mem_append.mp he).elim (hadjoins e) (hadjoins' e)
      rw [List.map_append, List.filter_append]
      refine Edit.Nests.append ?_ (ih hrest hothers)
      rcases hside span hspan with hfront | hback
      · rw [List.filter_eq_nil_iff.mpr]
        · exact fun o => le_rfl
        · intro insert hmem
          obtain ⟨e, he, rfl⟩ := List.mem_map.mp hmem
          have := hfront e (hall e he)
          simpa using this
      · rw [List.filter_eq_self.mpr]
        · rw [List.map_append]
          exact hnests.append hnests'
        · intro insert hmem
          obtain ⟨e, he, rfl⟩ := List.mem_map.mp hmem
          simpa using hback e (hall e he)

/-- The edits beside a loop are in front of a mark of the code, if the loop has ended there, and
behind the mark otherwise. -/
lemma side_of_ended {a w rest : Text}
    (hcode : Text.ofLines (Loop.blankCode lines start) = a ++ (w ++ rest))
    (hfirst : ∃ c ∈ w.head?, isBlank c = false) (hlast : ∃ c ∈ w.getLast?, isBlank c = false)
    (hspan : span ∈ Loop.spans (Text.ofLines (Loop.blankCode lines start)))
    (hended : span.keyword < (a ++ w).length → ∃ e ∈ span.bodyEnd, e < a.length) :
    (∀ e, Adjoins lines start span e → (flatInCode lines start e).1 ≤ a.length) ∨
      ∀ e, Adjoins lines start span e → (a ++ w).length ≤ (flatInCode lines start e).1 := by
  obtain ⟨htrue, -⟩ := Loop.isTrue_of_mem_spans hspan
  rcases Nat.lt_or_ge span.keyword (a ++ w).length with hlt | hge
  · obtain ⟨c, hc, hink⟩ := hfirst
    have hget : (Text.ofLines (Loop.blankCode lines start))[a.length]? = some c := by
      rw [hcode, ← List.head?_drop, List.drop_left, List.head?_append, hc]
      rfl
    refine .inl fun e he => (he.side htrue hget hink).1 fun m hm => ?_
    obtain ⟨last, hend, hbefore⟩ := hended hlt
    obtain ⟨hparen, hbrace, -⟩ := htrue.bodyEnd last hend
    have hkeyword := htrue.keyword_lt
    rcases LoopSpan.mem_marks_iff.mp hm with rfl | rfl | hm | hm
    · omega
    · omega
    · have := hbrace m hm
      omega
    · obtain rfl : m = last := Option.some.inj (hm.symm.trans hend)
      exact hbefore
  · obtain ⟨d, hd, hink⟩ := hlast
    have hne : w ≠ [] := List.ne_nil_of_mem (List.mem_of_getLast? hd)
    have hpos : 0 < w.length := List.length_pos_iff.mpr hne
    have hget : (Text.ofLines (Loop.blankCode lines start))[(a ++ w).length - 1]? = some d := by
      rw [hcode, ← List.append_assoc,
        List.getElem?_append_left (by rw [List.length_append]; omega), ← List.getLast?_eq_getElem?,
        List.getLast?_append_of_ne_nil _ hne]
      exact hd
    rw [List.length_append] at hget hge ⊢
    refine .inr fun e he => ?_
    have := (he.side htrue hget hink).2 (by omega)
    omega

/-- **Capping opens blocks and closes them again.**  Let the loops in front of a mark `w` of the
code have ended there.  The mark is at least as deep in the capped code as it was, and the blocks
around it stay open behind it if they did. -/
theorem exists_keepsOpenBehind_of_apply {caps : Caps} {result : List Text}
    (h : apply {} lines start caps = .ok result) {a w s t : Text}
    (hcode : Text.ofLines (Loop.blankCode lines start) = a ++ (w ++ (s ++ t)))
    (hfirst : ∃ c ∈ w.head?, isBlank c = false) (hlast : ∃ c ∈ w.getLast?, isBlank c = false)
    (hended : ∀ span ∈ Loop.spans (Text.ofLines (Loop.blankCode lines start)),
      span.keyword < (a ++ w).length → ∃ e ∈ span.bodyEnd, e < a.length) :
    ∃ a' s' t', Text.ofLines (Loop.blankCode result start) = a' ++ (w ++ (s' ++ t')) ∧
      a.Sublist a' ∧ s.Sublist s' ∧ t.Sublist t' ∧ (s = [] → s' = []) ∧
      (caps = [] → s' = s ∧ t' = t) ∧ Text.braceDelta a ≤ Text.braceDelta a' ∧
      (Text.KeepsOpenBehind s t → Text.KeepsOpenBehind s' t') := by
  have hcaps := fun entry hentry => (valid_of_apply h entry hentry).2
  have hne : w ≠ [] := by
    obtain ⟨c, hc, -⟩ := hfirst
    exact List.ne_nil_of_mem (List.mem_of_head? hc)
  obtain ⟨edits, hedits, rfl⟩ := exists_edits_of_apply h
  have hadjoins := adjoins_of_editsFor hcaps hedits
  rw [Edit.blankCode_apply (isBeside_of_editsFor hcaps hedits),
    Edit.ofLines_applyFrom fun e he => by
    obtain ⟨e, hmem, rfl⟩ := List.mem_map.mp he
    obtain ⟨span, -, hadjoin⟩ := hadjoins e hmem
    exact hadjoin.isPlaced.inCode _]
  set inserts := (Edit.byRank (edits.map (Edit.inCode fun n =>
    Comment.isOpenAfter false (lines.take n)))).map (Edit.flat (Loop.blankCode lines start) start)
    with hinserts
  have hperm : inserts.Perm (edits.map (flatInCode lines start)) := by
    have := (Edit.byRank_perm (edits.map (Edit.inCode fun n =>
      Comment.isOpenAfter false (lines.take n)))).map (Edit.flat (Loop.blankCode lines start) start)
    rwa [List.map_map] at this
  set n := (a ++ w).length with hn
  have hlong : a.length < n := by
    have := List.length_pos_iff.mpr hne
    rw [hn, List.length_append]
    omega
  -- every edit is in front of the mark or behind it
  have hside := fun span hspan => side_of_ended hcode hfirst hlast hspan (hended span hspan)
  have hall : ∀ insert ∈ inserts, (insert.1 ≤ a.length ∨ n ≤ insert.1) ∧
      insert.1 ≤ (Text.ofLines (Loop.blankCode lines start)).length ∧
      Edit.ClosesAtOnce insert.2 := by
    intro insert hmem
    obtain ⟨e, he, rfl⟩ := List.mem_map.mp (hperm.subset hmem)
    obtain ⟨span, hspan, hadjoin⟩ := hadjoins e he
    exact ⟨(hside span hspan).imp (· e hadjoin) (· e hadjoin), (hadjoin.isPlaced.inCode _).flat_le,
      hadjoin.closesAtOnce⟩
  have hnests : Edit.Nests inserts := by
    have := nests_of_editsFor hcaps (n := 0) (fun span _ => .inr fun e _ => Nat.zero_le _)
      (fun loop hloop => hloop) hedits
    rw [List.filter_eq_self.mpr (by simp)] at this
    exact this.of_perm hperm
  have hbehind : Edit.Nests (inserts.filter fun insert => n ≤ insert.1) :=
    (nests_of_editsFor hcaps (fun span hspan => (hside span hspan).imp
      (fun hfront e he => (hfront e he).trans_lt hlong) id) (fun loop hloop => hloop)
        hedits).of_perm (hperm.filter _)
  refine ⟨Edit.weaveFront inserts 0 a ++ (Edit.textsAt inserts a.length).flatten,
    Edit.weaveFront inserts n s, Edit.weave inserts (n + s.length) t, ?_,
    (Edit.sublist_weaveFront _ _ _).trans (List.sublist_append_left _ _),
    Edit.sublist_weaveFront _ _ _, Edit.sublist_weave _ _ _, ?_, ?_, hnests.le_braceDelta a,
    fun hkeeps front hfront => ?_⟩
  · rw [hcode, Edit.weave_mark hne fun insert hmem => (hall insert hmem).1, Edit.weave_append_eq]
  · rintro rfl
    rfl
  · rintro rfl
    obtain rfl := Except.ok.inj (hedits.symm.trans (editsFor_eq_nil fun loop _ => rfl))
    exact ⟨Edit.weaveFront_nil n s, Edit.weave_nil _ t⟩
  · rw [← Edit.weave_filter (Nat.le_add_right n s.length)] at hfront
    obtain ⟨front', hfront', hdelta⟩ := Edit.exists_isPrefix_of_append hbehind
      (fun insert hmem => (hall insert (List.mem_of_mem_filter hmem)).2.2)
      (fun insert hmem => by simpa using List.of_mem_filter hmem) (fun insert hmem => by
        have := (hall insert (List.mem_of_mem_filter hmem)).2.1
        rw [hcode, ← List.append_assoc, List.length_append, ← hn] at this
        exact this) hfront
    rw [Edit.weaveFront_filter le_rfl] at hdelta
    exact (hkeeps front' hfront').trans hdelta

end Cap

end ShaderProbe
