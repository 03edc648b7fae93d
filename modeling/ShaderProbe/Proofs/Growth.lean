import Mathlib
import ShaderProbe.Edit.Basic
import ShaderProbe.Proofs.SpanFacts

/-!
# The loops of a text into which statements are put

Statements that are put in front of loops, at the start of their bodies or behind them leave the
loops where they are.  The pass over the longer text follows the pass over the text: it is in the
same place, with the same parentheses open and with as many more blocks open as the inserted texts
have opened (`LoopScan.Follows`), and it finds the same headers.  Its stacks may differ, since an
inserted `;` may end a loop without braces, but headers are found without them.

`Edit.Grows` gathers what the inserted texts have to be: each of them stands next to a loop, holds
no loop of its own and closes no more blocks than are open.  `Loop.cores_weave` says that the loops
are found again.
-/

namespace ShaderProbe

/-- The first character of a text that is not blank, and the blanks in front of it. -/
lemma Text.exists_of_head?_trimLeft {t : Text} {c : Char} (h : (Text.trimLeft t).head? = some c) :
    ∃ u, t = Text.indent t ++ c :: u := by
  cases htrim : Text.trimLeft t with
  | nil => rw [htrim] at h; exact absurd h (by simp)
  | cons d u =>
    rw [htrim, List.head?_cons, Option.some.injEq] at h
    exact ⟨u, by rw [← h, ← htrim, Text.indent_append_trimLeft]⟩

namespace Edit

/-! ### Inserted texts -/

/-- The texts that are put in front of a column, in order. -/
def textsAt (inserts : List (Nat × Text)) (column : Nat) : List Text :=
  (inserts.filter fun insert => insert.1 = column).map Prod.snd

/-- A character of a line with the texts in front of it. -/
lemma weave_cons (inserts : List (Nat × Text)) (column : Nat) (c : Char) (t : Text) :
    weave inserts column (c :: t) =
      (textsAt inserts column).flatten ++ c :: weave inserts (column + 1) t := rfl

/-- The end of a line, if no text belongs behind it. -/
lemma weave_end {inserts : List (Nat × Text)} {column : Nat}
    (h : ∀ insert ∈ inserts, insert.1 ≤ column) :
    weave inserts column [] = (textsAt inserts column).flatten := by
  have hfilter : (inserts.filter fun insert => column ≤ insert.1) =
      inserts.filter fun insert => insert.1 = column := by
    refine List.filter_congr fun insert hinsert => ?_
    have := h insert hinsert
    rw [decide_eq_decide]
    omega
  rw [weave, hfilter, textsAt]

/-- An inserted text belongs to a column. -/
lemma exists_of_mem_textsAt {inserts : List (Nat × Text)} {column : Nat} {seg : Text}
    (h : seg ∈ textsAt inserts column) : (column, seg) ∈ inserts := by
  obtain ⟨insert, hinsert, rfl⟩ := List.mem_map.mp h
  obtain ⟨hmem, hcolumn⟩ := List.mem_filter.mp hinsert
  obtain rfl : insert.1 = column := by simpa using hcolumn
  exact hmem

/-- No text belongs to a column. -/
lemma textsAt_eq_nil {inserts : List (Nat × Text)} {column : Nat}
    (h : ∀ insert ∈ inserts, insert.1 ≠ column) : textsAt inserts column = [] := by
  rw [textsAt, List.map_eq_nil_iff, List.filter_eq_nil_iff]
  intro insert hinsert
  simpa using h insert hinsert

/-- A front of a line into which nothing is put. -/
lemma weave_append {inserts : List (Nat × Text)} {column : Nat} {s : Text}
    (h : ∀ insert ∈ inserts, ¬(column ≤ insert.1 ∧ insert.1 < column + s.length)) (t : Text) :
    weave inserts column (s ++ t) = s ++ weave inserts (column + s.length) t := by
  induction s generalizing column with
  | nil => rfl
  | cons c s ih =>
    have hnone : textsAt inserts column = [] := by
      refine textsAt_eq_nil fun insert hinsert heq => h insert hinsert ⟨heq.ge, ?_⟩
      rw [heq, List.length_cons]
      omega
    rw [List.cons_append, weave_cons, hnone, List.flatten_nil, List.nil_append, ih,
      List.cons_append, List.length_cons, Nat.add_assoc, Nat.add_comm 1]
    rintro insert hinsert ⟨hlow, hhigh⟩
    refine h insert hinsert ⟨by omega, ?_⟩
    rw [List.length_cons]
    omega

/-- A text into which nothing is put. -/
lemma weave_of_lt {inserts : List (Nat × Text)} {column : Nat}
    (h : ∀ insert ∈ inserts, insert.1 < column) (t : Text) : weave inserts column t = t := by
  have hend : weave inserts (column + t.length) [] = [] := by
    rw [weave_end fun insert hinsert => (h insert hinsert).le.trans (Nat.le_add_right _ _),
      textsAt_eq_nil, List.flatten_nil]
    intro insert hinsert heq
    have := h insert hinsert
    omega
  have hsplit : weave inserts column (t ++ []) = t ++ weave inserts (column + t.length) [] :=
    weave_append (fun insert hinsert hin => absurd (h insert hinsert) (Nat.not_lt.mpr hin.1)) []
  rwa [List.append_nil, hend, List.append_nil] at hsplit

/-! ### Sums over inserted texts -/

section Sums

variable {α : Type*} [AddCommMonoid α] (f : Nat × Text → α) (inserts : List (Nat × Text)) (o : Nat)

/-- What the texts in front of a column and at it come to. -/
lemma sum_le_eq : ((inserts.filter fun insert => insert.1 ≤ o).map f).sum =
    ((inserts.filter fun insert => insert.1 < o).map f).sum +
      ((inserts.filter fun insert => insert.1 = o).map f).sum := by
  induction inserts with
  | nil => simp
  | cons insert inserts ih =>
    rcases Nat.lt_trichotomy insert.1 o with h | h | h
    · simp only [List.filter_cons, h.le, h, h.ne, decide_true, decide_false, if_true,
        List.map_cons, List.sum_cons, ih, add_assoc]
      simp
    · simp only [List.filter_cons, h, le_refl, lt_irrefl, decide_true, decide_false, if_true,
        List.map_cons, List.sum_cons, ih]
      simp only [Bool.false_eq_true, if_false]
      abel
    · simp only [List.filter_cons, h.not_ge, h.not_gt, h.ne', decide_false, Bool.false_eq_true,
        if_false, ih]

/-- What lies in front of the next column. -/
lemma sum_lt_succ : ((inserts.filter fun insert => insert.1 < o + 1).map f).sum =
    ((inserts.filter fun insert => insert.1 ≤ o).map f).sum := by
  simp only [Nat.lt_succ_iff]

end Sums

/-- The offset of a character in the text that has grown. -/
def shift (inserts : List (Nat × Text)) (o : Nat) : Nat :=
  o + ((inserts.filter fun insert => insert.1 ≤ o).map fun insert => insert.2.length).sum

/-- The offset at which the texts in front of a character start in the text that has grown. -/
def shiftFront (inserts : List (Nat × Text)) (o : Nat) : Nat :=
  o + ((inserts.filter fun insert => insert.1 < o).map fun insert => insert.2.length).sum

/-- The number of blocks that the texts up to an offset open. -/
def pending (inserts : List (Nat × Text)) (o : Nat) : Int :=
  ((inserts.filter fun insert => insert.1 ≤ o).map fun insert => Text.braceDelta insert.2).sum

/-- The number of blocks that the texts in front of an offset open. -/
def pendingFront (inserts : List (Nat × Text)) (o : Nat) : Int :=
  ((inserts.filter fun insert => insert.1 < o).map fun insert => Text.braceDelta insert.2).sum

/-- Braces add up over a list of texts. -/
lemma braceDelta_flatten (ts : List Text) :
    Text.braceDelta ts.flatten = (ts.map Text.braceDelta).sum := by
  induction ts with
  | nil => rfl
  | cons t ts ih => rw [List.flatten_cons, Text.braceDelta_append, ih, List.map_cons, List.sum_cons]

variable (inserts : List (Nat × Text)) (o : Nat)

lemma shift_eq : shift inserts o = shiftFront inserts o + (textsAt inserts o).flatten.length := by
  rw [shift, shiftFront, sum_le_eq, List.length_flatten, textsAt, List.map_map, Nat.add_assoc]
  rfl

lemma shiftFront_succ : shiftFront inserts (o + 1) = shift inserts o + 1 := by
  rw [shift, shiftFront, sum_lt_succ]
  omega

lemma pending_eq :
    pending inserts o =
      pendingFront inserts o + Text.braceDelta (textsAt inserts o).flatten := by
  rw [pending, pendingFront, sum_le_eq, braceDelta_flatten, textsAt, List.map_map]
  rfl

lemma pendingFront_succ : pendingFront inserts (o + 1) = pending inserts o := by
  rw [pending, pendingFront, sum_lt_succ]

/-- A stretch into which nothing is put. -/
lemma filter_le_of_none {inserts : List (Nat × Text)} {o n : Nat}
    (h : ∀ insert ∈ inserts, ¬(o < insert.1 ∧ insert.1 ≤ o + n)) :
    (inserts.filter fun insert => insert.1 ≤ o + n) =
      inserts.filter fun insert => insert.1 ≤ o := by
  refine List.filter_congr fun insert hinsert => ?_
  have := h insert hinsert
  rw [decide_eq_decide]
  omega

/-- Over a stretch into which nothing is put, offsets move alike. -/
lemma shift_add {inserts : List (Nat × Text)} {o n : Nat}
    (h : ∀ insert ∈ inserts, ¬(o < insert.1 ∧ insert.1 ≤ o + n)) :
    shift inserts (o + n) = shift inserts o + n := by
  rw [shift, shift, filter_le_of_none h]
  omega

/-- Over a stretch into which nothing is put, no blocks open. -/
lemma pending_add {inserts : List (Nat × Text)} {o n : Nat}
    (h : ∀ insert ∈ inserts, ¬(o < insert.1 ∧ insert.1 ≤ o + n)) :
    pending inserts (o + n) = pending inserts o := by
  rw [pending, pending, filter_le_of_none h]

end Edit

namespace LoopScan

/-! ### Texts that hold no loop -/

/-- The pass reads a text and finds no loop in it.  It ends as many blocks as it opens, or as are
open around it. -/
def Passes (seg : Text) : Prop :=
  ∀ (scan : LoopScan) (before : Text) (offset : Nat), scan.started = true →
    Text.startsWord before = false →
    (0 ≤ Text.braceDelta seg ∨ 1 ≤ scan.depth + Text.braceDelta seg) →
    ∃ next : LoopScan,
      (∀ rest, scan.run before offset 0 (seg ++ rest) =
        next.run (seg.reverse ++ before) (offset + seg.length) 0 rest) ∧
      next.cores = scan.cores ∧ next.parens = scan.parens ∧ next.started = true ∧
      next.depth = scan.depth + Text.braceDelta seg

/-- A text without loops that starts and ends in front of other words, and whose first character is
neither a parenthesis nor the end of a statement. -/
structure IsInert (seg : Text) : Prop where
  passes : Passes seg
  ends : Text.startsWord seg.reverse = false
  starts : (Text.trimLeft seg).head? ≠ some '(' ∧ (Text.trimLeft seg).head? ≠ some ';'

/-- The pass reads several texts without loops. -/
lemma exists_run_flatten {segs : List Text} (hinert : ∀ seg ∈ segs, IsInert seg) {scan : LoopScan}
    {before : Text} (hstarted : scan.started = true) (hword : Text.startsWord before = false)
    (hdepth : ∀ front seg back, segs = front ++ seg :: back →
      0 ≤ Text.braceDelta seg ∨ 1 ≤ scan.depth + Text.braceDelta (front ++ [seg]).flatten)
    (offset : Nat) :
    ∃ (next : LoopScan) (behind : Text),
      (∀ rest, scan.run before offset 0 (segs.flatten ++ rest) =
        next.run behind (offset + segs.flatten.length) 0 rest) ∧
      Text.startsWord behind = false ∧ next.cores = scan.cores ∧ next.parens = scan.parens ∧
      next.started = true ∧ next.depth = scan.depth + Text.braceDelta segs.flatten := by
  induction segs generalizing scan before offset with
  | nil => exact ⟨scan, before, fun rest => rfl, hword, rfl, rfl, hstarted, by simp⟩
  | cons seg segs ih =>
    have hseg := hinert seg List.mem_cons_self
    obtain ⟨next, hrun, hcores, hparens, hstarted', hdepth'⟩ := hseg.passes scan before offset
      hstarted hword (by simpa using hdepth [] seg segs rfl)
    have hword' : Text.startsWord (seg.reverse ++ before) = false := by
      cases hrev : seg.reverse with
      | nil => exact hword
      | cons c r =>
        have hends := hseg.ends
        rwa [hrev] at hends
    obtain ⟨last, behind, hrun', hbehind, hcores', hparens', hstarted'', hdepth''⟩ :=
      ih (fun x hx => hinert x (List.mem_cons_of_mem _ hx)) hstarted' hword'
        (fun front x back hsplit => by
          have hall := hdepth (seg :: front) x back (by rw [hsplit, List.cons_append])
          rw [List.cons_append, List.flatten_cons, Text.braceDelta_append, ← add_assoc] at hall
          rwa [hdepth']) (offset + seg.length)
    refine ⟨last, behind, fun rest => ?_, hbehind, hcores'.trans hcores, hparens'.trans hparens,
      hstarted'', ?_⟩
    · rw [List.flatten_cons, List.append_assoc, hrun, hrun', List.length_append, Nat.add_assoc]
    · rw [hdepth'', hdepth', List.flatten_cons, Text.braceDelta_append, add_assoc]

end LoopScan

/-! ### Places next to loops -/

namespace LoopSpan

/-- An offset at which something of the loop ends: its header, its opening brace or its body. -/
def IsTail (span : LoopSpan) (m : Nat) : Prop :=
  m = span.parenClose ∨ span.brace = some m ∨ span.bodyEnd = some m

/-- The place is in front of the loop, or behind its header, its opening brace or its body, with
nothing but blanks in between. -/
def IsBeside (text : Text) (span : LoopSpan) (o : Nat) : Prop :=
  (o ≤ span.keyword ∧ ∀ i, o ≤ i → i < span.keyword → ∀ c ∈ text[i]?, isBlank c = true) ∨
    ∃ m, span.IsTail m ∧ m < o ∧ ∀ i, m < i → i < o → ∀ c ∈ text[i]?, isBlank c = true

/-- The characters at which something of a loop ends. -/
lemma IsTrue.tail {text : Text} {span : LoopSpan} (h : span.IsTrue text) {m : Nat}
    (hm : span.IsTail m) : ∃ c ∈ [')', '{', ';', '}'], text[m]? = some c := by
  rcases hm with rfl | hb | he
  · exact ⟨')', by simp, h.parenClose⟩
  · exact ⟨'{', by simp, (h.brace m hb).getElem?⟩
  · rcases (h.bodyEnd m he).2.2 with hc | hc
    · exact ⟨';', by simp, hc⟩
    · exact ⟨'}', by simp, hc⟩

/-- Nothing stands beside a loop in a stretch between two characters, if the loop has nothing
there. -/
lemma IsBeside.not_between {text : Text} {span : LoopSpan} {p lo hi : Nat} {c : Char}
    (h : span.IsBeside text p) (hlo : text[lo]? = some c) (hc : isBlank c = false)
    (htail : ∀ m, span.IsTail m → m < lo ∨ hi ≤ m)
    (hkeyword : span.keyword ≤ lo ∨
      hi < span.keyword ∧ ∃ d, text[hi]? = some d ∧ isBlank d = false) :
    ¬(lo < p ∧ p ≤ hi) := by
  rintro ⟨hlt, hle⟩
  rcases h with ⟨hp, hblanks⟩ | ⟨m, hm, hp, hblanks⟩
  · rcases hkeyword with hkeyword | ⟨hkeyword, d, hd, hblank⟩
    · omega
    · exact absurd (hblanks hi hle hkeyword d hd) (by simp [hblank])
  · rcases htail m hm with hm | hm
    · exact absurd (hblanks lo hm hlt c hlo) (by simp [hc])
    · omega

/-- What ends a loop is recorded. -/
lemma IsTail.mem_marks {span : LoopSpan} {m : Nat} (h : span.IsTail m) : m ∈ span.marks :=
  mem_marks_iff.mpr (.inr h)

/-- What is recorded about a loop stands at characters that are not blank. -/
lemma IsTrue.mark {text : Text} {span : LoopSpan} (h : span.IsTrue text) {m : Nat}
    (hm : m ∈ span.marks) : ∃ c, text[m]? = some c ∧ isBlank c = false := by
  rcases mem_marks_iff.mp hm with rfl | hm
  · rcases h.keyword with hc | hc
    · exact ⟨'f', hc, by decide⟩
    · exact ⟨'w', hc, by decide⟩
  · obtain ⟨c, hc, hget⟩ := h.tail hm
    exact ⟨c, hget, isBlank_delimiter (by simp only [List.mem_cons] at hc ⊢; tauto)⟩

end LoopSpan

namespace Edit

/-- The header of a function in front of its body closes no block. -/
def IsClean (text : Text) : Prop := '}' ∉ text.takeWhile (· != '{')

instance (text : Text) : Decidable (IsClean text) :=
  inferInstanceAs (Decidable ('}' ∉ text.takeWhile (· != '{')))

/-- A block that closes has been opened in the body. -/
lemma IsClean.mem_take {text : Text} (h : IsClean text) {o : Nat} (hc : text[o]? = some '}') :
    '{' ∈ text.take o := by
  induction text generalizing o with
  | nil => exact absurd hc (by simp)
  | cons c text ih =>
    cases o with
    | zero =>
      rw [List.getElem?_cons_zero, Option.some.injEq] at hc
      subst hc
      exact absurd h (by simp [IsClean])
    | succ o =>
      rw [List.take_succ_cons]
      by_cases hopen : c = '{'
      · exact hopen ▸ List.mem_cons_self
      · refine List.mem_cons_of_mem c (ih (fun hmem => h ?_) (by simpa using hc))
        rw [List.takeWhile_cons_of_pos (by simpa using hopen)]
        exact List.mem_cons_of_mem c hmem

/-- Texts that may be put into a text without changing its loops. -/
structure Grows (text : Text) (inserts : List (Nat × Text)) : Prop where
  bound : ∀ insert ∈ inserts, insert.1 ≤ text.length
  inert : ∀ insert ∈ inserts, LoopScan.IsInert insert.2
  beside : ∀ insert ∈ inserts, ∃ span ∈ Loop.spans text, span.IsBeside text insert.1
  isWordStart : ∀ insert ∈ inserts, Text.startsWord (text.take insert.1).reverse = false
  isInside : ∀ insert ∈ inserts, '{' ∈ text.take insert.1
  pending : ∀ o, 0 ≤ pending inserts o
  order : ∀ o front seg back, textsAt inserts o = front ++ seg :: back →
    0 ≤ Text.braceDelta seg ∨
      IsClean text ∧ 0 ≤ pendingFront inserts o + Text.braceDelta (front ++ [seg]).flatten

variable {text : Text} {inserts : List (Nat × Text)} {o : Nat}

/-- Nothing is put right behind a character of a word. -/
lemma Grows.textsAt_eq_nil (h : Grows text inserts) {c : Char} (hc : text[o]? = some c)
    (hword : isWordChar c = true) : textsAt inserts (o + 1) = [] := by
  refine Edit.textsAt_eq_nil fun insert hinsert heq => ?_
  have hstart := h.isWordStart insert hinsert
  rw [heq, List.take_add_one, hc, List.reverse_append] at hstart
  exact absurd (hword.symm.trans hstart) (by simp)

/-- The first character that is not blank is the one of the text, or that of an inserted text. -/
lemma head?_trimLeft_weave (hinert : ∀ insert ∈ inserts, LoopScan.IsInert insert.2) (t : Text)
    (hbound : ∀ insert ∈ inserts, insert.1 ≤ o + t.length) :
    (Text.trimLeft (weave inserts o t)).head? = (Text.trimLeft t).head? ∨
      (Text.trimLeft (weave inserts o t)).head? ≠ some '(' ∧
        (Text.trimLeft (weave inserts o t)).head? ≠ some ';' := by
  have htexts : ∀ (segs : List Text) (rest : Text), (∀ seg ∈ segs, LoopScan.IsInert seg) →
      (Text.trimLeft (segs.flatten ++ rest)).head? = (Text.trimLeft rest).head? ∨
        (Text.trimLeft (segs.flatten ++ rest)).head? ≠ some '(' ∧
          (Text.trimLeft (segs.flatten ++ rest)).head? ≠ some ';' := by
    intro segs rest hsegs
    induction segs with
    | nil => exact .inl rfl
    | cons seg segs ih =>
      rw [List.flatten_cons, List.append_assoc]
      cases hblank : Text.isBlankOnly seg with
      | true =>
        rw [Text.trimLeft_append hblank]
        exact ih fun x hx => hsegs x (List.mem_cons_of_mem _ hx)
      | false =>
        obtain ⟨c, r, htrim, hc, -⟩ := Text.exists_trimLeft_eq_cons hblank
        have hstarts := (hsegs seg List.mem_cons_self).starts
        have hhead : (Text.trimLeft (seg ++ (segs.flatten ++ rest))).head? = some c := by
          rw [← Text.indent_append_trimLeft seg, htrim, List.append_assoc,
            Text.trimLeft_append (Text.isBlankOnly_indent seg), List.cons_append,
            Text.trimLeft_cons hc]
          rfl
        rw [htrim] at hstarts
        rw [hhead]
        exact .inr hstarts
  have hsegs : ∀ column, ∀ seg ∈ textsAt inserts column, LoopScan.IsInert seg :=
    fun column seg hseg => hinert _ (exists_of_mem_textsAt hseg)
  induction t generalizing o with
  | nil =>
    rw [weave_end (by simpa using hbound)]
    simpa using htexts (textsAt inserts o) [] (hsegs o)
  | cons c t ih =>
    rw [weave_cons]
    rcases htexts (textsAt inserts o) (c :: weave inserts (o + 1) t) (hsegs o) with heq | hne
    · rw [heq]
      cases hc : isBlank c with
      | false => exact .inl (by rw [Text.trimLeft_cons hc, Text.trimLeft_cons hc]; rfl)
      | true =>
        have hcons : ∀ x : Text, Text.trimLeft (c :: x) = Text.trimLeft x := fun x =>
          Text.trimLeft_append (g := [c]) (by simp [Text.isBlankOnly, hc]) x
        rw [hcons, hcons]
        exact ih (by simpa [Nat.add_assoc, Nat.add_comm 1] using hbound)
    · exact .inr hne

/-- A word in the text that has grown is a word of the text. -/
lemma Grows.exists_of_weave_eq (h : Grows text inserts) {w : Text} {c : Char} {t rest : Text}
    (hdrop : text.drop o = c :: t) (hword : ∀ x ∈ c :: w, isWordChar x = true)
    (heq : weave inserts (o + 1) t = w ++ rest) :
    ∃ u, t = w ++ u ∧ rest = weave inserts (o + 1 + w.length) u := by
  induction w generalizing o c t with
  | nil => exact ⟨t, rfl, heq.symm⟩
  | cons d w ih =>
    have hc : text[o]? = some c := by rw [← List.head?_drop, hdrop, List.head?_cons]
    have hnone := h.textsAt_eq_nil hc (hword c List.mem_cons_self)
    have hlength : text.length = o + (t.length + 1) := by
      have := congrArg List.length hdrop
      rw [List.length_drop, List.length_cons] at this
      omega
    cases t with
    | nil =>
      rw [weave_end (fun insert hinsert => by
        have := h.bound insert hinsert
        rw [hlength] at this
        simpa using this), hnone] at heq
      exact absurd heq (by simp)
    | cons e t =>
      rw [weave_cons, hnone, List.flatten_nil, List.nil_append, List.cons_append] at heq
      obtain ⟨rfl, htail⟩ := List.cons.inj heq
      have hnext : text.drop (o + 1) = e :: t := by
        rw [← List.drop_drop, hdrop]
        rfl
      obtain ⟨u, rfl, rfl⟩ := ih hnext (fun x hx => hword x (List.mem_cons_of_mem c hx)) htail
      refine ⟨u, rfl, ?_⟩
      rw [List.length_cons]
      congr 1
      omega

/-- Where no header starts, none starts in the text that has grown. -/
lemma Grows.headerParen?_eq_none (h : Grows text inserts) {c : Char} {t : Text}
    (hdrop : text.drop o = c :: t) (hnone : LoopSpan.headerParen? (c :: t) = none) :
    LoopSpan.headerParen? (c :: weave inserts (o + 1) t) = none := by
  by_contra hne
  obtain ⟨paren, hparen⟩ := Option.ne_none_iff_exists'.mp hne
  obtain ⟨keyword, hmem, gap, rest, hgap, heq, -⟩ := LoopSpan.headerParen?_eq_some_iff.mp hparen
  have hword : ∀ x ∈ keyword, isWordChar x = true := by
    have hcases : keyword = "for".toList ∨ keyword = "while".toList := by
      simpa [LoopSpan.keywords] using hmem
    have hstart : ∀ x ∈ keyword, isIdentStart x = true := by
      rcases hcases with rfl | rfl
      · simp [isIdentStart]
      · simp [isIdentStart]
    exact fun x hx => isWordChar_of_isIdentStart (hstart x hx)
  cases keyword with
  | nil => exact absurd hmem (by decide)
  | cons d w =>
    obtain ⟨rfl, htail⟩ := List.cons.inj heq
    obtain ⟨u, rfl, hrest⟩ := h.exists_of_weave_eq hdrop hword htail
    have hlength : ∀ insert ∈ inserts, insert.1 ≤ o + 1 + w.length + u.length := by
      intro insert hinsert
      have hbound := h.bound insert hinsert
      have hall := congrArg List.length hdrop
      simp only [List.length_drop, List.length_cons, List.length_append] at hall
      omega
    -- the parenthesis behind the keyword is one of the text, since no inserted text starts with it
    have hhead : (Text.trimLeft u).head? = some '(' := by
      have htrim : (Text.trimLeft (weave inserts (o + 1 + w.length) u)).head? = some '(' := by
        rw [← hrest, Text.trimLeft_append hgap, Text.trimLeft_cons (by decide)]
        rfl
      rcases head?_trimLeft_weave h.inert u hlength with hsame | hother
      · rw [← hsame, htrim]
      · exact absurd htrim hother.1
    obtain ⟨v, hv⟩ := Text.exists_of_head?_trimLeft hhead
    have hsome : LoopSpan.headerParen? (c :: (w ++ u)) =
        some ((c :: w).length + (Text.indent u).length) :=
      LoopSpan.headerParen?_eq_some_iff.mpr ⟨c :: w, hmem, Text.indent u, v,
        Text.isBlankOnly_indent u, by rw [← hv]; rfl, rfl⟩
    rw [hnone] at hsome
    exact absurd hsome (by simp)

/-- Behind the last place of the loops nothing is put in. -/
lemma Grows.le_of_marks (h : Grows text inserts) {c : Char} (hc : text[o]? = some c)
    (hblank : isBlank c = false)
    (hmarks : ∀ span ∈ Loop.spans text, ∀ m ∈ span.marks, m < o) :
    ∀ insert ∈ inserts, insert.1 ≤ o := by
  intro insert hinsert
  obtain ⟨span, hspan, hbeside⟩ := h.beside insert hinsert
  have hnot : ¬(o < insert.1 ∧ insert.1 ≤ insert.1) :=
    hbeside.not_between hc hblank (fun m hm => .inl (hmarks span hspan m hm.mem_marks))
      (.inl (hmarks span hspan _ (LoopSpan.mem_marks_iff.mpr (.inl rfl))).le)
  omega

/-- Into a header nothing is put, nor behind one up to the end of the statement. -/
lemma Grows.not_between (h : Grows text inserts) {hi : Nat} {c d : Char} (hlo : text[o]? = some c)
    (hc : c = 'f' ∨ c = 'w') (hhi : text[hi]? = some d) (hd : d = ')' ∨ d = ';')
    (hmarks : ∀ span ∈ Loop.spans text, ∀ m ∈ span.marks, m ≤ o ∨ hi ≤ m) :
    ∀ insert ∈ inserts, ¬(o < insert.1 ∧ insert.1 ≤ hi) := by
  intro insert hinsert
  obtain ⟨span, hspan, hbeside⟩ := h.beside insert hinsert
  have htrue := (Loop.isTrue_of_mem_spans hspan).1
  refine hbeside.not_between hlo (by rcases hc with rfl | rfl <;> decide) (fun m hm => ?_) ?_
  · refine (hmarks span hspan m hm.mem_marks).imp_left fun hle => lt_of_le_of_ne hle ?_
    rintro rfl
    obtain ⟨x, hx, hget⟩ := htrue.tail hm
    rw [hlo] at hget
    obtain rfl := Option.some.inj hget
    rcases hc with rfl | rfl <;> exact absurd hx (by decide)
  · refine (hmarks span hspan _ (LoopSpan.mem_marks_iff.mpr (.inl rfl))).imp_right fun hle => ?_
    refine ⟨lt_of_le_of_ne hle ?_, d, hhi, by rcases hd with rfl | rfl <;> decide⟩
    rintro rfl
    have hkeyword := htrue.keyword
    rw [hhi, Option.some.injEq, Option.some.injEq] at hkeyword
    rcases hd with rfl | rfl <;> exact absurd hkeyword (by decide)

/-- Into the header of a loop nothing is put. -/
lemma Grows.not_between_header (h : Grows text inserts) {a t : Text}
    (hdrop : text.drop o = a ++ ')' :: t) (ha : LoopSpan.IsHeader a)
    (hmarks : ∀ span ∈ Loop.spans text, ∀ m ∈ span.marks, m ≤ o ∨ o + a.length ≤ m) :
    ∀ insert ∈ inserts, ¬(o < insert.1 ∧ insert.1 ≤ o + a.length) := by
  have hclose : text[o + a.length]? = some ')' := by
    rw [← List.getElem?_drop, hdrop, List.getElem?_append_right le_rfl, Nat.sub_self]
    rfl
  obtain ⟨c, b, rfl, hc⟩ := ha.exists_cons
  have hfirst : text[o]? = some c := by
    rw [← List.head?_drop, hdrop, List.cons_append, List.head?_cons]
  exact h.not_between hfirst hc hclose (.inl rfl) hmarks

/-- Into the end of a `do` statement nothing is put. -/
lemma Grows.not_between_doWhile (h : Grows text inserts) {a t : Text}
    (hdrop : text.drop o = a ++ ')' :: t) (ha : LoopSpan.IsHeader a)
    (hsemi : (Text.trimLeft t).head? = some ';')
    (hmarks : ∀ span ∈ Loop.spans text, ∀ m ∈ span.marks, m ≤ o ∨ o + (a.length + 1) ≤ m) :
    ∀ insert ∈ inserts,
      ¬(o < insert.1 ∧ insert.1 ≤ o + (a.length + 1) + (Text.indent t).length) := by
  obtain ⟨u, hu⟩ := Text.exists_of_head?_trimLeft hsemi
  have hrest : text.drop (o + (a.length + 1)) = Text.indent t ++ ';' :: u := by
    rw [← hu, ← Nat.add_assoc]
    exact LoopScan.drop_header hdrop
  have hlast : text[o + (a.length + 1) + (Text.indent t).length]? = some ';' := by
    rw [← List.getElem?_drop, hrest, List.getElem?_append_right le_rfl, Nat.sub_self]
    rfl
  obtain ⟨c, b, rfl, hc⟩ := ha.exists_cons
  have hfirst : text[o]? = some c := by
    rw [← List.head?_drop, hdrop, List.cons_append, List.head?_cons]
  refine h.not_between hfirst hc hlast (.inr rfl) fun span hspan m hm => ?_
  refine (hmarks span hspan m hm).imp_right fun hlow => ?_
  -- in the gap there are only blanks, and what is recorded stands at other characters
  by_contra hlt
  obtain ⟨d, hd, hblank⟩ := (Loop.isTrue_of_mem_spans hspan).1.mark hm
  obtain ⟨n, rfl⟩ := Nat.exists_eq_add_of_le hlow
  rw [← List.getElem?_drop, hrest, List.getElem?_append_left (by omega)] at hd
  have := Text.isBlankOnly_iff.mp (Text.isBlankOnly_indent t) d (List.mem_of_getElem? hd)
  rw [hblank] at this
  exact absurd this (by simp)

/-- The end of a statement up to which nothing is put in. -/
lemma head?_trimLeft_weave_of_none {t : Text} (hsemi : (Text.trimLeft t).head? = some ';')
    (h : ∀ insert ∈ inserts, ¬(o ≤ insert.1 ∧ insert.1 ≤ o + (Text.indent t).length)) :
    (Text.trimLeft (weave inserts o t)).head? = some ';' := by
  obtain ⟨u, hu⟩ := Text.exists_of_head?_trimLeft hsemi
  have hsplit : t = (Text.indent t ++ [';']) ++ u := by simpa using hu
  rw [hsplit, weave_append, List.append_assoc, Text.trimLeft_append (Text.isBlankOnly_indent t),
    List.singleton_append, Text.trimLeft_cons (by decide)]
  · rfl
  · intro insert hinsert hin
    rw [List.length_append, List.length_singleton] at hin
    exact h insert hinsert ⟨hin.1, by omega⟩

/-- A header into which nothing is put. -/
lemma weave_header {a : Text} (ha : LoopSpan.IsHeader a)
    (h : ∀ insert ∈ inserts, ¬(o < insert.1 ∧ insert.1 ≤ o + a.length)) (t : Text) :
    weave inserts o (a ++ ')' :: t) =
      (textsAt inserts o).flatten ++
        (a ++ ')' :: weave inserts (o + (a ++ [')']).length) t) := by
  obtain ⟨c, b, rfl, -⟩ := ha.exists_cons
  have hsplit : b ++ ')' :: t = (b ++ [')']) ++ t := by simp
  rw [List.cons_append, weave_cons, hsplit, weave_append]
  · simp only [List.length_append, List.length_cons, List.length_nil, List.cons_append,
      List.append_assoc, List.nil_append]
    rw [Nat.add_assoc o 1, Nat.add_comm 1]
  · rintro insert hinsert ⟨hlow, hhigh⟩
    refine h insert hinsert ⟨hlow, ?_⟩
    rw [List.length_append, List.length_singleton] at hhigh
    rw [List.length_cons]
    omega

/-- Behind a header into which nothing is put. -/
lemma front_header {a : Text} (h : ∀ insert ∈ inserts, ¬(o < insert.1 ∧ insert.1 ≤ o + a.length)) :
    shiftFront inserts (o + (a ++ [')']).length) = shift inserts o + (a ++ [')']).length ∧
      pendingFront inserts (o + (a ++ [')']).length) = Edit.pending inserts o := by
  rw [List.length_append, List.length_singleton, ← Nat.add_assoc, shiftFront_succ, shift_add h,
    pendingFront_succ, pending_add h]
  exact ⟨rfl, rfl⟩

/-- The number of blocks that the inserted texts open. -/
def total (inserts : List (Nat × Text)) : Int :=
  (inserts.map fun insert => Text.braceDelta insert.2).sum

/-- Behind the last inserted text all of them count. -/
lemma pending_eq_total (h : ∀ insert ∈ inserts, insert.1 ≤ o) :
    Edit.pending inserts o = total inserts := by
  rw [Edit.pending, total, List.filter_eq_self.mpr]
  exact fun insert hinsert => by simpa using h insert hinsert

end Edit

namespace LoopScan

/-! ### The pass over the text that has grown -/

/-- The core of a loop in the text that has grown. -/
def grown (inserts : List (Nat × Text)) (core : Nat × Nat × Text) : Nat × Nat × Text :=
  (Edit.shift inserts core.1, Edit.shift inserts core.2.1, core.2.2)

/-- A state of the pass over the text that has grown, next to the state of the pass over the text:
the same loops, and `more` blocks more that are open. -/
structure Follows (inserts : List (Nat × Text)) (more : Int) (scan follower : LoopScan) : Prop where
  cores : follower.cores = scan.cores.map (grown inserts)
  parens : follower.parens = scan.parens
  started : follower.started = scan.started
  depth : follower.depth = scan.depth + more

variable {inserts : List (Nat × Text)} {more : Int} {scan follower : LoopScan}

/-- Both passes open a block. -/
lemma Follows.openBrace (h : Follows inserts more scan follower) (o o' : Nat) :
    Follows inserts more (scan.openBrace o) (follower.openBrace o') := by
  have hfields : ∀ (scan : LoopScan) (o : Nat), (scan.openBrace o).depth = scan.depth + 1 ∧
      (scan.openBrace o).started = true ∧ (scan.openBrace o).parens = scan.parens := by
    intro scan o
    rw [LoopScan.openBrace]
    split <;> exact ⟨rfl, rfl, rfl⟩
  obtain ⟨hdepth, hstarted, hparens⟩ := hfields scan o
  obtain ⟨hdepth', hstarted', hparens'⟩ := hfields follower o'
  constructor
  · rw [cores_openBrace, cores_openBrace, h.cores]
  · rw [hparens, hparens', h.parens]
  · rw [hstarted, hstarted']
  · rw [hdepth, hdepth', h.depth]
    omega

/-- Both passes close a block. -/
lemma Follows.closeBrace (h : Follows inserts more scan follower) (o o' : Nat) :
    Follows inserts more (scan.closeBrace o) (follower.closeBrace o') := by
  obtain ⟨hdepth, hstarted, hparens, -⟩ := closeBrace_fields scan o
  obtain ⟨hdepth', hstarted', hparens', -⟩ := closeBrace_fields follower o'
  constructor
  · rw [cores_closeBrace, cores_closeBrace, h.cores]
  · rw [hparens, hparens', h.parens]
  · rw [hstarted, hstarted', h.started]
  · rw [hdepth, hdepth', h.depth]
    omega

/-- Both passes end a statement. -/
lemma Follows.endBraceless (h : Follows inserts more scan follower) (o o' : Nat) :
    Follows inserts more (scan.endBraceless o) (follower.endBraceless o') := by
  constructor
  · rw [cores_endBraceless, cores_endBraceless, h.cores]
  · rw [endBraceless_eq, endBraceless_eq]
    exact h.parens
  · rw [endBraceless_eq, endBraceless_eq]
    exact h.started
  · rw [endBraceless_eq, endBraceless_eq]
    exact h.depth

/-- Both passes find a loop. -/
lemma Follows.addLoop (h : Follows inserts more scan follower) {o o' length : Nat}
    (hstart : o' = Edit.shift inserts o) (hend : o' + length = Edit.shift inserts (o + length))
    (headerText : Text) (bareBody bareBody' : Bool) (next next' : Option Char) :
    Follows inserts more (scan.addLoop o length headerText bareBody next)
      (follower.addLoop o' length headerText bareBody' next') := by
  have hfields : ∀ (scan : LoopScan) (o : Nat) (bareBody : Bool) (next : Option Char),
      (scan.addLoop o length headerText bareBody next).depth = scan.depth ∧
      (scan.addLoop o length headerText bareBody next).started = scan.started ∧
      (scan.addLoop o length headerText bareBody next).parens = scan.parens := by
    intro scan o bareBody next
    rw [LoopScan.addLoop]
    split <;> exact ⟨rfl, rfl, rfl⟩
  obtain ⟨hdepth, hstarted, hparens⟩ := hfields scan o bareBody next
  obtain ⟨hdepth', hstarted', hparens'⟩ := hfields follower o' bareBody' next'
  constructor
  · rw [cores_addLoop, cores_addLoop, h.cores, List.map_append, hend, hstart]
    rfl
  · rw [hparens, hparens', h.parens]
  · rw [hstarted, hstarted', h.started]
  · rw [hdepth, hdepth', h.depth]

/-- The pass over a text stands at a place: what is known of the text and of the blocks that are
open. -/
structure Stands (text : Text) (scan : LoopScan) (before : Text) (o : Nat) (rest : Text) : Prop where
  read : text.IsReadTo before o rest
  sound : Sound text o scan
  nested : Edit.IsClean text → scan.Nested

section Stands

variable {text before t : Text} {o : Nat}

/-- A block opens. -/
lemma Stands.openBrace (h : Stands text scan before o ('{' :: t)) :
    Stands text (scan.openBrace o) ('{' :: before) (o + 1) t :=
  ⟨h.read.cons, h.sound.openBrace h.read.getElem?_eq, fun hclean => (h.nested hclean).openBrace _⟩

/-- A block closes that is not the outermost one. -/
lemma Stands.closeBrace (h : Stands text scan before o ('}' :: t))
    (hopen : scan.started = true → 2 ≤ scan.depth) :
    Stands text (scan.closeBrace o) ('}' :: before) (o + 1) t := by
  refine ⟨h.read.cons, h.sound.closeBrace h.read.getElem?_eq, fun hclean => ?_⟩
  have hstarted : scan.started = true :=
    h.sound.started.mpr (hclean.mem_take h.read.getElem?_eq)
  exact (h.nested hclean).closeBrace hstarted (hopen hstarted) _

/-- A statement ends. -/
lemma Stands.endBraceless (h : Stands text scan before o (';' :: t)) :
    Stands text (scan.endBraceless o) (';' :: before) (o + 1) t :=
  ⟨h.read.cons, h.sound.endBraceless h.read.getElem?_eq,
    fun hclean => (h.nested hclean).endBraceless _⟩

/-- A character is passed over. -/
lemma Stands.quiet {c : Char} (h : Stands text scan before o (c :: t)) (hopen : c ≠ '{')
    (parens : Int) : Stands text { scan with parens } (c :: before) (o + 1) t := by
  refine ⟨h.read.cons, h.sound.quiet h.read.getElem?_eq hopen _, fun hclean => ?_⟩
  obtain ⟨hfresh, hdepth, hbraced, hbraceless⟩ := h.nested hclean
  exact ⟨hfresh, hdepth, hbraced, hbraceless⟩

/-- The `while (...)` at the end of a `do` statement is passed over. -/
lemma Stands.skip {a : Text} (h : Stands text scan before o (a ++ ')' :: t))
    (hstarted : scan.started = true) (hheader : LoopSpan.IsHeader a) :
    Stands text scan ((a ++ [')']).reverse ++ before) (o + (a ++ [')']).length) t :=
  ⟨h.read.concat, h.sound.skip hstarted h.read.drop_eq hheader, h.nested⟩

/-- A loop is found. -/
lemma Stands.addLoop {a : Text} (h : Stands text scan before o (a ++ ')' :: t))
    (hstarted : scan.started = true) (hbefore : Text.startsWord before = false)
    (hheader : LoopSpan.IsHeader a) (hsemi : (Text.trimLeft t).head? ≠ some ';') (bareBody : Bool) :
    Stands text
      (scan.addLoop o a.length (Text.squeeze (a ++ [')'])) bareBody (Text.trimLeft t).head?)
      ((a ++ [')']).reverse ++ before) (o + (a ++ [')']).length) t := by
  refine ⟨h.read.concat, h.sound.addLoop hstarted h.read.drop_eq hheader ?_ hsemi _,
    fun hclean => (h.nested hclean).addLoop hstarted _ _ _ _ _⟩
  rwa [h.read.take_eq, List.reverse_reverse]

end Stands

/-- The pass over the text that has grown reads the texts that are put in at a place. -/
lemma Follows.exists_run_texts {text before behind t : Text} {o : Nat}
    (h : Follows inserts (Edit.pendingFront inserts o) scan follower)
    (hgrows : Edit.Grows text inserts) (hs : Stands text scan before o t)
    (hword : Text.startsWord behind = Text.startsWord before) :
    ∃ (next : LoopScan) (behind' : Text),
      (∀ rest, follower.run behind (Edit.shiftFront inserts o) 0
          ((Edit.textsAt inserts o).flatten ++ rest) =
        next.run behind' (Edit.shift inserts o) 0 rest) ∧
      Text.startsWord behind' = Text.startsWord before ∧
      Follows inserts (Edit.pending inserts o) scan next := by
  rcases List.eq_nil_or_concat (Edit.textsAt inserts o) with hnone | ⟨segs, seg, hsome⟩
  · refine ⟨follower, behind, fun rest => ?_, hword, ?_⟩
    · rw [Edit.shift_eq, hnone]
      rfl
    · rw [Edit.pending_eq, hnone, List.flatten_nil, Text.braceDelta_nil, add_zero]
      exact h
  · have hmem : (o, seg) ∈ inserts := Edit.exists_of_mem_textsAt (by rw [hsome]; simp)
    have hstarted : scan.started = true := hs.sound.started.mpr (hgrows.isInside _ hmem)
    have hbefore : Text.startsWord before = false := by
      rw [← List.reverse_reverse before, ← hs.read.take_eq]
      exact hgrows.isWordStart _ hmem
    obtain ⟨next, behind', hrun, hbehind, hcores, hparens, hnext, hdepth⟩ :=
      exists_run_flatten (fun seg hseg => hgrows.inert _ (Edit.exists_of_mem_textsAt hseg))
        (h.started.trans hstarted) (hword.trans hbefore) (fun front seg back hsplit => by
          rcases hgrows.order o front seg back hsplit with hseg | ⟨hclean, hseg⟩
          · exact .inl hseg
          · have hopen := (hs.nested hclean).depth hstarted
            rw [h.depth]
            exact .inr (by omega)) (Edit.shiftFront inserts o)
    refine ⟨next, behind', fun rest => ?_, hbehind.trans hbefore.symm, ?_⟩
    · rw [hrun, Edit.shift_eq]
    · constructor
      · rw [hcores, h.cores]
      · rw [hparens, h.parens]
      · rw [hnext, hstarted]
      · rw [hdepth, h.depth, Edit.pending_eq, add_assoc]

/-! ### One move of the pass over the text that has grown -/

section Moves

variable {text before behind t a : Text} {o : Nat}

/-- A block closes that is not the outermost one. -/
lemma Follows.run_closeBrace (h : Follows inserts more scan follower) (hmore : 0 ≤ more)
    (hopen : scan.started = true → 2 ≤ scan.depth) (behind t : Text) (o' : Nat) :
    follower.run behind o' 0 ('}' :: t) =
      (follower.closeBrace o').run ('}' :: behind) (o' + 1) 0 t := by
  obtain ⟨hdepth, hstarted, -, -⟩ := closeBrace_fields follower o'
  rw [LoopScan.run_closeBrace, if_neg]
  rw [hstarted, hdepth, h.started, h.depth]
  rintro ⟨hs, hd⟩
  have hdeep := hopen hs
  omega

/-- A character is passed over. -/
lemma Follows.run_quiet {c : Char} (h : Follows inserts more scan follower)
    (hgrows : Edit.Grows text inserts) (hs : Stands text scan before o (c :: t))
    (hword : Text.startsWord behind = Text.startsWord before) (hopen : c ≠ '{') (hclose : c ≠ '}')
    (hsemi : scan.parens = 0 → c ≠ ';')
    (hloop : scan.started = true → scan.parens = 0 → Text.startsWord before = false →
      LoopSpan.headerParen? (c :: t) = none) (o' : Nat) :
    follower.run behind o' 0 (c :: Edit.weave inserts (o + 1) t) =
      { follower with parens := follower.parens + Text.parenDelta [c] }.run (c :: behind) (o' + 1) 0
        (Edit.weave inserts (o + 1) t) := by
  refine run_cons_quiet follower hopen hclose (by rwa [h.parens]) ?_ o'
  rw [h.started, h.parens, hword]
  exact fun hstarted hparens hbefore =>
    hgrows.headerParen?_eq_none hs.read.drop_eq (hloop hstarted hparens hbefore)

/-- The `while (...)` at the end of a `do` statement is passed over, if nothing is put in up to
the `;` behind it. -/
lemma Follows.run_skip (h : Follows inserts more scan follower) (hstarted : scan.started = true)
    (hparens : scan.parens = 0) (hbehind : Text.startsWord behind = false)
    (hheader : LoopSpan.IsHeader a) (hsemi : (Text.trimLeft t).head? = some ';')
    (hnone : ∀ insert ∈ inserts,
      ¬(o < insert.1 ∧ insert.1 ≤ o + (a.length + 1) + (Text.indent t).length)) (o' : Nat) :
    follower.run behind o' 0 (a ++ ')' :: Edit.weave inserts (o + (a ++ [')']).length) t) =
      follower.run ((a ++ [')']).reverse ++ behind) (o' + (a ++ [')']).length) 0
        (Edit.weave inserts (o + (a ++ [')']).length) t) := by
  have hhead : (Text.trimLeft (Edit.weave inserts (o + (a ++ [')']).length) t)).head? = some ';' :=
    Edit.head?_trimLeft_weave_of_none hsemi fun insert hinsert hin => by
      rw [List.length_append, List.length_singleton] at hin
      exact hnone insert hinsert ⟨by omega, by omega⟩
  rw [run_isHeader (h.started.trans hstarted) (h.parens.trans hparens) hbehind hheader, hhead,
    behindHeader, if_pos rfl]

/-- A loop is found: behind its header no `;` is put in. -/
lemma Follows.run_loop (h : Follows inserts more scan follower) (hgrows : Edit.Grows text inserts)
    (hs : Stands text scan before o (a ++ ')' :: t)) (hstarted : scan.started = true)
    (hparens : scan.parens = 0) (hbehind : Text.startsWord behind = false)
    (hheader : LoopSpan.IsHeader a) (hsemi : (Text.trimLeft t).head? ≠ some ';') (o' : Nat) :
    follower.run behind o' 0 (a ++ ')' :: Edit.weave inserts (o + (a ++ [')']).length) t) =
      (follower.addLoop o' a.length (Text.squeeze (a ++ [')'])) (LoopSpan.isBareBody behind)
          (Text.trimLeft (Edit.weave inserts (o + (a ++ [')']).length) t)).head?).run
        ((a ++ [')']).reverse ++ behind) (o' + (a ++ [')']).length) 0
          (Edit.weave inserts (o + (a ++ [')']).length) t) := by
  have hbound : ∀ insert ∈ inserts, insert.1 ≤ o + (a ++ [')']).length + t.length := by
    intro insert hinsert
    have hle := hgrows.bound insert hinsert
    have hlength := congrArg List.length hs.read.drop_eq
    simp only [List.length_drop, List.length_append, List.length_cons, List.length_nil]
      at hlength ⊢
    omega
  have hhead : (Text.trimLeft (Edit.weave inserts (o + (a ++ [')']).length) t)).head? ≠
      some ';' := by
    rcases Edit.head?_trimLeft_weave hgrows.inert t hbound with hsame | hother
    · rwa [hsame]
    · exact hother.2
  rw [run_isHeader (h.started.trans hstarted) (h.parens.trans hparens) hbehind hheader,
    behindHeader, if_neg hhead]

end Moves

/-- What a run records behind a header that is passed over lies outside of it. -/
lemma Runs.marks_skip {last : LoopScan} {text before a t : Text} {o : Nat}
    (h : Runs scan before (o + (a ++ [')']).length) t last) (hs : Sound text o scan) :
    ∀ span ∈ last.spans, ∀ m ∈ span.marks, m ≤ o ∨ o + (a.length + 1) ≤ m := by
  intro span hspan m hm
  rcases h.mem_marks span hspan m hm with ⟨old, hold, hm⟩ | hm
  · exact .inl (hs.marks old hold m hm).le
  · exact .inr (by simpa using hm)

/-- What a run records for a loop and behind its header lies outside of the header. -/
lemma Runs.marks_loop {last : LoopScan} {text before a t headerText : Text} {o : Nat}
    {bareBody : Bool} {next : Option Char}
    (h : Runs (scan.addLoop o a.length headerText bareBody next) before (o + (a ++ [')']).length) t
      last) (hs : Sound text o scan) :
    ∀ span ∈ last.spans, ∀ m ∈ span.marks, m ≤ o ∨ o + a.length ≤ m := by
  intro span hspan m hm
  rcases h.mem_marks span hspan m hm with ⟨old, hold, hm⟩ | hm
  · rcases mem_addLoop hold with hold | rfl
    · exact .inl (hs.marks old hold m hm).le
    · rcases LoopSpan.mem_marks_iff.mp hm with rfl | rfl | hb | he
      · exact .inl le_rfl
      · exact .inr le_rfl
      · exact absurd hb (by simp)
      · exact absurd he (by simp)
  · rw [List.length_append] at hm
    exact .inr (by omega)

/-- The pass over the text that has grown finds the loops again.  It may find more of them, if the
inserted texts leave a block open that ends the pass otherwise. -/
def Regains (text : Text) (inserts : List (Nat × Text)) (last follower : LoopScan) : Prop :=
  ∃ extra, follower.cores = last.cores.map (grown inserts) ++ extra ∧
    (Edit.IsClean text → Edit.total inserts = 0 → extra = [])

/-- Where the pass ends, nothing more is found. -/
lemma Follows.regains {last : LoopScan} (h : Follows inserts more last follower) (text : Text) :
    Regains text inserts last follower :=
  ⟨[], by rw [h.cores, List.append_nil], fun _ _ => rfl⟩

/-- The brace that ends the pass, if no block is open otherwise. -/
lemma Follows.regains_lastBrace {text before behind t rest : Text} {o o' : Nat}
    (h : Follows inserts (Edit.pending inserts o) scan follower) (hgrows : Edit.Grows text inserts)
    (hs : Stands text scan before o ('}' :: t)) (hstarted : scan.started = true)
    (hdepth : scan.depth ≤ 1) (hlast : (scan.closeBrace o).spans = Loop.spans text) :
    Regains text inserts (scan.closeBrace o) (follower.run behind o' 0 ('}' :: rest)) := by
  have hclosed := h.closeBrace o o'
  obtain ⟨hdepth', hstarted', -, -⟩ := closeBrace_fields follower o'
  rw [LoopScan.run_closeBrace]
  split
  · exact hclosed.regains text
  · rename_i hopen
    obtain ⟨extra, hextra, -⟩ :=
      (runs_run rest (follower.closeBrace o') ('}' :: behind) (o' + 1)).exists_cores
    refine ⟨extra, by rw [hextra, hclosed.cores], fun hclean htotal => absurd ?_ hopen⟩
    -- no loop ends here, so all the inserted texts are in front of the brace
    have hone : scan.depth = 1 := by
      have := (hs.nested hclean).depth hstarted
      omega
    have hmarks : ∀ span ∈ Loop.spans text, ∀ m ∈ span.marks, m < o := by
      rw [← hlast, (hs.nested hclean).spans_closeBrace hone]
      exact hs.sound.marks
    have hpending :=
      Edit.pending_eq_total (hgrows.le_of_marks hs.read.getElem?_eq (by decide) hmarks)
    refine ⟨by rw [hstarted', h.started, hstarted], ?_⟩
    rw [hdepth', h.depth, hpending, htotal, hone]
    decide

/-- A header that never closes ends both passes, and behind it nothing is put in. -/
lemma Follows.regains_unclosed {text before behind t : Text} {o o' paren : Nat} {c : Char}
    (h : Follows inserts more scan follower) (hgrows : Edit.Grows text inserts)
    (hs : Stands text scan before o (c :: t)) (hlast : scan.spans = Loop.spans text)
    (hstarted : scan.started = true) (hparens : scan.parens = 0)
    (hbehind : Text.startsWord behind = false)
    (hparen : LoopSpan.headerParen? (c :: t) = some paren)
    (hclose : Text.closingParen? ((c :: t).drop paren) = none) :
    Regains text inserts scan (follower.run behind o' 0 (c :: Edit.weave inserts (o + 1) t)) := by
  have hblank : isBlank c = false := by
    by_contra hblank
    rw [Bool.not_eq_false] at hblank
    rw [LoopSpan.headerParen?_eq_none (ne_of_isBlank hblank (by decide))
      (ne_of_isBlank hblank (by decide))] at hparen
    exact absurd hparen (by simp)
  have hle := hgrows.le_of_marks hs.read.getElem?_eq hblank (by rw [← hlast]; exact hs.sound.marks)
  rw [Edit.weave_of_lt fun insert hinsert => Nat.lt_succ_of_le (hle insert hinsert),
    run_unclosed (h.started.trans hstarted) (h.parens.trans hparens) hbehind hparen hclose]
  exact h.regains text

/-- **The pass over the text that has grown follows the pass over the text.** -/
theorem Runs.regains {text before behind t : Text} {o : Nat} {last : LoopScan}
    (h : Runs scan before o t last) (hgrows : Edit.Grows text inserts)
    (hlast : last.spans = Loop.spans text) (hs : Stands text scan before o t)
    (hfollows : Follows inserts (Edit.pendingFront inserts o) scan follower)
    (hword : Text.startsWord behind = Text.startsWord before) :
    Regains text inserts last
      (follower.run behind (Edit.shiftFront inserts o) 0 (Edit.weave inserts o t)) := by
  -- the texts at the place are read first, and then both passes make the same move
  induction h generalizing follower behind with
  | nil scan before offset =>
    obtain ⟨mid, behind', hrun, -, hmid⟩ := hfollows.exists_run_texts hgrows hs hword
    have hbound : ∀ insert ∈ inserts, insert.1 ≤ offset := by
      intro insert hinsert
      have hle := hgrows.bound insert hinsert
      rwa [hs.read.eq_append, List.append_nil, List.length_reverse, hs.read.length_eq] at hle
    rw [Edit.weave_end hbound, ← List.append_nil (Edit.textsAt inserts offset).flatten, hrun]
    exact hmid.regains text
  | openBrace next ih =>
    obtain ⟨mid, behind', hrun, -, hmid⟩ := hfollows.exists_run_texts hgrows hs hword
    rw [Edit.weave_cons, hrun, run_openBrace, ← Edit.shiftFront_succ]
    refine ih hlast hs.openBrace ?_ rfl
    rw [Edit.pendingFront_succ]
    exact hmid.openBrace _ _
  | @closeBrace scan last before t offset hopen next ih =>
    obtain ⟨mid, behind', hrun, -, hmid⟩ := hfollows.exists_run_texts hgrows hs hword
    rw [Edit.weave_cons, hrun, hmid.run_closeBrace (hgrows.pending offset) hopen,
      ← Edit.shiftFront_succ]
    refine ih hlast (hs.closeBrace hopen) ?_ rfl
    rw [Edit.pendingFront_succ]
    exact hmid.closeBrace _ _
  | lastBrace hstarted hdepth =>
    obtain ⟨mid, behind', hrun, -, hmid⟩ := hfollows.exists_run_texts hgrows hs hword
    rw [Edit.weave_cons, hrun]
    exact hmid.regains_lastBrace hgrows hs hstarted hdepth hlast
  | semicolon hparens next ih =>
    obtain ⟨mid, behind', hrun, -, hmid⟩ := hfollows.exists_run_texts hgrows hs hword
    rw [Edit.weave_cons, hrun, run_semicolon mid (hmid.parens.trans hparens),
      ← Edit.shiftFront_succ]
    refine ih hlast hs.endBraceless ?_ rfl
    rw [Edit.pendingFront_succ]
    exact hmid.endBraceless _ _
  | quiet hopen hclose hsemi hloop next ih =>
    obtain ⟨mid, behind', hrun, hbehind, hmid⟩ := hfollows.exists_run_texts hgrows hs hword
    rw [Edit.weave_cons, hrun, hmid.run_quiet hgrows hs hbehind hopen hclose hsemi hloop,
      ← Edit.shiftFront_succ]
    refine ih hlast (hs.quiet hopen _) ?_ rfl
    rw [Edit.pendingFront_succ]
    exact ⟨hmid.cores, by rw [hmid.parens], hmid.started, hmid.depth⟩
  | unclosed hstarted hparens hbefore hparen hclose =>
    obtain ⟨mid, behind', hrun, hbehind, hmid⟩ := hfollows.exists_run_texts hgrows hs hword
    rw [Edit.weave_cons, hrun]
    exact hmid.regains_unclosed hgrows hs hlast hstarted hparens (hbehind.trans hbefore) hparen
      hclose
  | @doWhile scan last before t offset a hstarted hparens hbefore hheader hsemi next ih =>
    obtain ⟨mid, behind', hrun, hbehind, hmid⟩ := hfollows.exists_run_texts hgrows hs hword
    have hnone := hgrows.not_between_doWhile hs.read.drop_eq hheader hsemi
      (by rw [← hlast]; exact next.marks_skip hs.sound)
    have hinside : ∀ insert ∈ inserts, ¬(offset < insert.1 ∧ insert.1 ≤ offset + a.length) :=
      fun insert hinsert hin => hnone insert hinsert ⟨hin.1, by omega⟩
    obtain ⟨hshift, hpending⟩ := Edit.front_header hinside
    rw [Edit.weave_header hheader hinside, hrun,
      hmid.run_skip hstarted hparens (hbehind.trans hbefore) hheader hsemi hnone, ← hshift]
    refine ih hlast (hs.skip hstarted hheader) ?_ (by simp [Text.startsWord])
    rw [hpending]
    exact hmid
  | @loop scan last before t offset a hstarted hparens hbefore hheader hsemi next ih =>
    obtain ⟨mid, behind', hrun, hbehind, hmid⟩ := hfollows.exists_run_texts hgrows hs hword
    have hinside := hgrows.not_between_header hs.read.drop_eq hheader
      (by rw [← hlast]; exact next.marks_loop hs.sound)
    obtain ⟨hshift, hpending⟩ := Edit.front_header hinside
    rw [Edit.weave_header hheader hinside, hrun,
      hmid.run_loop hgrows hs hstarted hparens (hbehind.trans hbefore) hheader hsemi, ← hshift]
    refine ih hlast (hs.addLoop hstarted hbefore hheader hsemi _) ?_ (by simp [Text.startsWord])
    rw [hpending]
    exact hmid.addLoop rfl (Edit.shift_add hinside).symm _ _ _ _ _

end LoopScan

namespace Loop

/-- **The loops of a text are found again in the text that has grown.**  No others are found, if all
blocks that are opened are closed again. -/
theorem cores_weave {text : Text} {inserts : List (Nat × Text)} (h : Edit.Grows text inserts) :
    ∃ extra, (spans (Edit.weave inserts 0 text)).map LoopSpan.core =
        ((spans text).map LoopSpan.core).map (LoopScan.grown inserts) ++ extra ∧
      (Edit.IsClean text → Edit.total inserts = 0 → extra = []) := by
  have hfront : (inserts.filter fun insert => insert.1 < 0) = [] := by simp
  have hstart : LoopScan.Follows inserts (Edit.pendingFront inserts 0) {} {} :=
    ⟨rfl, rfl, rfl, by rw [Edit.pendingFront, hfront]; rfl⟩
  have hnested : LoopScan.Nested {} :=
    ⟨fun _ => ⟨rfl, rfl⟩, fun hs => absurd hs (by simp), fun _ he => absurd he List.not_mem_nil,
      fun _ he => absurd he List.not_mem_nil⟩
  have hregains : LoopScan.Regains text inserts (({} : LoopScan).run [] 0 0 text)
      (({} : LoopScan).run [] (Edit.shiftFront inserts 0) 0 (Edit.weave inserts 0 text)) :=
    (LoopScan.runs_run text {} [] 0).regains h rfl
      ⟨.start text, LoopScan.sound_nil text, fun _ => hnested⟩ hstart rfl
  rw [Edit.shiftFront, hfront] at hregains
  exact hregains

end Loop

end ShaderProbe
