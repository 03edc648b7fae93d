import Mathlib
import ShaderProbe.Proofs.Growth
import ShaderProbe.Proofs.Position

/-!
# Edits of lines as edits of the flat text

Edits are given by lines and columns, and loops are found in the flat text.  An edit of a line puts
a text into the flat text at an offset, a line of its own together with the line feed that sets it
off (`Edit.flat`).  `Edit.ofLines_applyFrom` says that applying the edits and joining the lines is
joining the lines and weaving the texts in.

Lines in front of a line, texts inside it and lines behind it are put in that order, whatever the
order in which the edits are listed, so the edits are first sorted by these ranks (`Edit.byRank`).
-/

namespace ShaderProbe

namespace FlatText

/-! ### Starts of lines -/

/-- The offset at which a line starts, lines counted from the first. -/
def lineStart (ls : List Text) (n : Nat) : Nat := ((ls.take n).map fun l => l.length + 1).sum

lemma lineStart_cons_succ (l : Text) (ls : List Text) (n : Nat) :
    lineStart (l :: ls) (n + 1) = l.length + 1 + lineStart ls n := by
  rw [lineStart, List.take_succ_cons, List.map_cons, List.sum_cons, ← lineStart]

/-- A later line starts behind an earlier one. -/
lemma lineStart_lt {ls : List Text} {n m : Nat} {l : Text} (hl : ls[n]? = some l) (h : n < m) :
    lineStart ls n + l.length < lineStart ls m := by
  induction ls generalizing n m with
  | nil => exact absurd hl (by simp)
  | cons l' ls ih =>
    cases m with
    | zero => omega
    | succ m =>
      rw [lineStart_cons_succ]
      cases n with
      | zero =>
        obtain rfl : l' = l := by simpa using hl
        simp only [lineStart, List.take_zero, List.map_nil, List.sum_nil]
        omega
      | succ n =>
        rw [lineStart_cons_succ]
        have := ih (by simpa using hl) (Nat.lt_of_succ_lt_succ h)
        omega

/-- An offset lies on one line and at one column. -/
lemma lineStart_inj {ls : List Text} {n n' c c' : Nat} {l l' : Text} (hl : ls[n]? = some l)
    (hl' : ls[n']? = some l') (hc : c ≤ l.length) (hc' : c' ≤ l'.length)
    (h : lineStart ls n + c = lineStart ls n' + c') : n = n' ∧ c = c' := by
  rcases Nat.lt_trichotomy n n' with hlt | rfl | hlt
  · have := lineStart_lt hl hlt
    omega
  · exact ⟨rfl, by omega⟩
  · have := lineStart_lt hl' hlt
    omega

/-- The line and the column of an offset. -/
lemma exists_locateFrom {ls : List Text} (hne : ls ≠ []) {o : Nat}
    (ho : o ≤ (Text.ofLines ls).length) (line : Nat) :
    ∃ n l column, ls[n]? = some l ∧ column ≤ l.length ∧ o = lineStart ls n + column ∧
      locateFrom line ls o = ⟨line + n, column⟩ := by
  induction ls generalizing o line with
  | nil => exact absurd rfl hne
  | cons l ls ih =>
    cases ls with
    | nil =>
      rw [Text.ofLines_singleton] at ho
      exact ⟨0, l, o, rfl, ho, (Nat.zero_add o).symm, rfl⟩
    | cons l' ls =>
      rw [locateFrom]
      split
      · rename_i hle
        exact ⟨0, l, o, rfl, hle, (Nat.zero_add o).symm, rfl⟩
      · rename_i hgt
        rw [Text.ofLines_cons_cons, List.length_append, List.length_cons] at ho
        obtain ⟨n, k, column, hk, hcolumn, heq, hlocate⟩ :=
          ih (by simp) (o := o - (l.length + 1)) (by omega) (line + 1)
        refine ⟨n + 1, k, column, by simpa using hk, hcolumn, ?_, ?_⟩
        · rw [lineStart_cons_succ]
          omega
        · rw [hlocate, Nat.add_assoc, Nat.add_comm 1]

end FlatText

/-- A line ends in the flat text. -/
lemma FlatText.lineStart_add_le {ls : List Text} {n : Nat} {l : Text} (hl : ls[n]? = some l) :
    FlatText.lineStart ls n + l.length ≤ (Text.ofLines ls).length := by
  induction ls generalizing n with
  | nil => exact absurd hl (by simp)
  | cons l' ls ih =>
    cases n with
    | zero =>
      obtain rfl : l' = l := by simpa using hl
      cases ls with
      | nil => simp [lineStart]
      | cons l₂ ls => simp [lineStart, Text.ofLines_cons_cons]
    | succ n =>
      have hl' : ls[n]? = some l := by simpa using hl
      cases ls with
      | nil => exact absurd hl' (by simp)
      | cons l₂ ls =>
        have := ih hl'
        rw [lineStart_cons_succ, Text.ofLines_cons_cons, List.length_append, List.length_cons]
        omega

namespace FlatText

/-- A character of a line is one of the flat text. -/
lemma getElem?_ofLines {ls : List Text} {n c : Nat} {l : Text} (hl : ls[n]? = some l)
    (hc : c < l.length) : (Text.ofLines ls)[lineStart ls n + c]? = l[c]? := by
  induction ls generalizing n with
  | nil => exact absurd hl (by simp)
  | cons l' ls ih =>
    cases n with
    | zero =>
      obtain rfl : l' = l := by simpa using hl
      have hzero : lineStart (l' :: ls) 0 + c = c := Nat.zero_add c
      rw [hzero]
      cases ls with
      | nil => rw [Text.ofLines_singleton]
      | cons l₂ ls => rw [Text.ofLines_cons_cons, List.getElem?_append_left hc]
    | succ n =>
      have hl' : ls[n]? = some l := by simpa using hl
      cases ls with
      | nil => exact absurd hl' (by simp)
      | cons l₂ ls =>
        rw [lineStart_cons_succ, Text.ofLines_cons_cons, List.getElem?_append_right (by omega)]
        have hindex : l'.length + 1 + lineStart (l₂ :: ls) n + c - l'.length =
            lineStart (l₂ :: ls) n + c + 1 := by omega
        rw [hindex, List.getElem?_cons_succ, ih hl']

/-- What follows a line is a line feed or nothing. -/
lemma isBlank_lineEnd {ls : List Text} {n : Nat} {l : Text} (hl : ls[n]? = some l) :
    ∀ c ∈ (Text.ofLines ls)[lineStart ls n + l.length]?, isBlank c = true := by
  induction ls generalizing n with
  | nil => exact absurd hl (by simp)
  | cons l' ls ih =>
    cases n with
    | zero =>
      obtain rfl : l' = l := by simpa using hl
      have hzero : lineStart (l' :: ls) 0 + l'.length = l'.length := Nat.zero_add _
      rw [hzero]
      cases ls with
      | nil => simp
      | cons l₂ ls =>
        intro c hc
        rw [Text.ofLines_cons_cons, List.getElem?_append_right le_rfl, Nat.sub_self,
          List.getElem?_cons_zero, Option.mem_some_iff] at hc
        rw [← hc]
        decide
    | succ n =>
      have hl' : ls[n]? = some l := by simpa using hl
      cases ls with
      | nil => exact absurd hl' (by simp)
      | cons l₂ ls =>
        rw [lineStart_cons_succ, Text.ofLines_cons_cons, List.getElem?_append_right (by omega)]
        have hindex : l'.length + 1 + lineStart (l₂ :: ls) n + l.length - l'.length =
            lineStart (l₂ :: ls) n + l.length + 1 := by omega
        rw [hindex, List.getElem?_cons_succ]
        exact ih hl'

/-- In front of a line there is a line feed or nothing. -/
lemma isBlank_lineStart {ls : List Text} {n i : Nat} {l : Text} (hl : ls[n]? = some l)
    (hi : i + 1 = lineStart ls n) : ∀ c ∈ (Text.ofLines ls)[i]?, isBlank c = true := by
  cases n with
  | zero => exact absurd hi (by simp [lineStart])
  | succ n =>
    have hlength : n < ls.length := Nat.lt_of_succ_lt (List.getElem?_eq_some_iff.mp hl).1
    have hprevious : ls[n]? = some ls[n] := List.getElem?_eq_getElem hlength
    have hstart : lineStart ls (n + 1) = lineStart ls n + ls[n].length + 1 := by
      rw [lineStart, List.take_add_one, hprevious, List.map_append, List.sum_append, ← lineStart]
      simp [Nat.add_assoc]
    obtain rfl : i = lineStart ls n + ls[n].length := by omega
    exact isBlank_lineEnd hprevious

/-- A character that is not blank stands on a line. -/
lemma exists_locate_of_ink {ls : List Text} {m : Nat} {c : Char}
    (hm : (Text.ofLines ls)[m]? = some c) (hc : isBlank c = false) (first : Nat) :
    ∃ n l column, ls[n]? = some l ∧ l[column]? = some c ∧ m = lineStart ls n + column ∧
      locate ⟨ls, first⟩ m = ⟨first + n, column⟩ := by
  have hlt : m < (Text.ofLines ls).length := (List.getElem?_eq_some_iff.mp hm).1
  have hne : ls ≠ [] := by
    rintro rfl
    exact absurd hm (by simp [Text.ofLines])
  obtain ⟨n, l, column, hl, hcolumn, rfl, hlocate⟩ := exists_locateFrom hne hlt.le first
  refine ⟨n, l, column, hl, ?_, rfl, (locate_eq_locateFrom _ _).trans hlocate⟩
  rcases Nat.lt_or_eq_of_le hcolumn with hlt | rfl
  · rw [← getElem?_ofLines hl hlt, hm]
  · rw [isBlank_lineEnd hl c hm] at hc
    exact absurd hc (by simp)

end FlatText

/-- Joining two lists of lines. -/
lemma Text.ofLines_append {ls ls' : List Text} (h : ls ≠ []) (h' : ls' ≠ []) :
    Text.ofLines (ls ++ ls') = Text.ofLines ls ++ '\n' :: Text.ofLines ls' := by
  induction ls with
  | nil => exact absurd rfl h
  | cons l ls ih =>
    cases ls with
    | nil =>
      cases ls' with
      | nil => exact absurd rfl h'
      | cons l' ls' => rw [List.singleton_append, Text.ofLines_cons_cons, Text.ofLines_singleton]
    | cons l₂ ls =>
      rw [List.cons_append, List.cons_append, Text.ofLines_cons_cons, ← List.cons_append,
        ih (by simp), Text.ofLines_cons_cons, List.append_assoc, List.cons_append]

/-- Joining a line with lines in front of it and behind it. -/
lemma Text.ofLines_around (front : List Text) (l : Text) (back : List Text) :
    Text.ofLines (front ++ l :: back) =
      (front.map fun t => t ++ ['\n']).flatten ++ (l ++ (back.map fun t => '\n' :: t).flatten) := by
  have hback : ∀ l, Text.ofLines (l :: back) = l ++ (back.map fun t => '\n' :: t).flatten := by
    induction back with
    | nil => intro l; simp
    | cons t back ih =>
      intro l
      rw [Text.ofLines_cons_cons, ih, List.map_cons, List.flatten_cons, List.cons_append]
  induction front with
  | nil => exact hback l
  | cons t front ih =>
    rw [List.cons_append, ← List.singleton_append, Text.ofLines_append (by simp) (by simp), ih,
      Text.ofLines_singleton, List.map_cons, List.flatten_cons, List.append_assoc,
      List.append_assoc, List.singleton_append]

/-- The lines in front of a line, the line, and the lines behind it. -/
lemma FlatText.take_drop_ofLines {ls : List Text} {n column : Nat} {l : Text} (hl : ls[n]? = some l)
    (hcolumn : column ≤ l.length) :
    (Text.ofLines ls).take (lineStart ls n + column) = Text.ofLines (ls.take n ++ [l.take column]) ∧
      (Text.ofLines ls).drop (lineStart ls n) = Text.ofLines (ls.drop n) := by
  obtain ⟨hlt, hget⟩ := List.getElem?_eq_some_iff.mp hl
  have hsplit : ls = ls.take n ++ l :: ls.drop (n + 1) := by
    rw [← hget, ← List.drop_eq_getElem_cons hlt, List.take_append_drop]
  have hlength : ((ls.take n).map fun t => t ++ ['\n']).flatten.length = lineStart ls n := by
    rw [List.length_flatten, List.map_map, lineStart]
    simp [Function.comp_def]
  have hall := Text.ofLines_around (ls.take n) l (ls.drop (n + 1))
  rw [← hsplit] at hall
  constructor
  · rw [hall, Text.ofLines_around, List.map_nil, List.flatten_nil, List.append_nil, ← hlength,
      List.take_length_add_append, List.take_append_of_le_length hcolumn]
  · have hrest := Text.ofLines_around [] l (ls.drop (n + 1))
    rw [List.nil_append, List.map_nil, List.flatten_nil, List.nil_append] at hrest
    rw [hall, List.drop_left' hlength, ← hrest, ← hget, ← List.drop_eq_getElem_cons hlt]

/-- The text of the lines in front of a place. -/
def Position.textInFront (ls : List Text) (place : Position) : Text :=
  Text.ofLines (ls.take place.line ++ [(ls.getD place.line []).take place.column])

/-- The text in front of a place of a line. -/
lemma Position.textInFront_eq {ls : List Text} {place : Position} {l : Text}
    (hl : ls[place.line]? = some l) (hcolumn : place.column ≤ l.length) :
    place.textInFront ls =
      (Text.ofLines ls).take (FlatText.lineStart ls place.line + place.column) := by
  rw [(FlatText.take_drop_ofLines hl hcolumn).1, textInFront, List.getD_eq_getElem?_getD, hl,
    Option.getD_some]

namespace Edit

/-! ### Weaving, line by line -/

/-- The texts at a column of two lists of texts. -/
lemma textsAt_append (inserts inserts' : List (Nat × Text)) (column : Nat) :
    textsAt (inserts ++ inserts') column = textsAt inserts column ++ textsAt inserts' column := by
  rw [textsAt, List.filter_append, List.map_append, textsAt, textsAt]

/-- The characters of a text with the texts in front of them, without the texts at its end. -/
def weaveFront (inserts : List (Nat × Text)) (column : Nat) : Text → Text
  | [] => []
  | c :: t => (textsAt inserts column).flatten ++ c :: weaveFront inserts (column + 1) t

/-- A text is woven piece by piece. -/
lemma weave_append_eq (inserts : List (Nat × Text)) (column : Nat) (s t : Text) :
    weave inserts column (s ++ t) =
      weaveFront inserts column s ++ weave inserts (column + s.length) t := by
  induction s generalizing column with
  | nil => rfl
  | cons c s ih =>
    rw [List.cons_append, weave_cons, ih, weaveFront, List.append_assoc, List.cons_append,
      List.length_cons, Nat.add_assoc, Nat.add_comm 1]

/-- Texts at the columns of a stretch decide how it is woven. -/
lemma weaveFront_congr {inserts inserts' : List (Nat × Text)} {column column' : Nat} {t : Text}
    (h : ∀ c < t.length, textsAt inserts (column + c) = textsAt inserts' (column' + c)) :
    weaveFront inserts column t = weaveFront inserts' column' t := by
  induction t generalizing column column' with
  | nil => rfl
  | cons d t ih =>
    have hfirst : textsAt inserts column = textsAt inserts' column' := h 0 (by simp)
    rw [weaveFront, weaveFront, hfirst, ih]
    intro c hc
    rw [Nat.add_assoc, Nat.add_assoc, Nat.add_comm 1]
    exact h (c + 1) (by simpa using hc)

/-- A whole line is woven from its characters and its end. -/
lemma weave_eq_weaveFront {inserts : List (Nat × Text)} {column : Nat} {t : Text}
    (h : ∀ insert ∈ inserts, insert.1 ≤ column + t.length) :
    weave inserts column t =
      weaveFront inserts column t ++ (textsAt inserts (column + t.length)).flatten := by
  have hsplit := weave_append_eq inserts column t []
  rwa [List.append_nil, weave_end h] at hsplit

variable {inserts insides : List (Nat × Text)} {front back : List Text}

/-- A line of a flat text with texts in front of it, inside it and behind it. -/
lemma weaveFront_line {column : Nat} {l : Text}
    (hbound : ∀ insert ∈ insides, insert.1 ≤ l.length)
    (h : ∀ c ≤ l.length, textsAt inserts (column + c) = (if c = 0 then front else []) ++
      (textsAt insides c ++ if c = l.length then back else [])) :
    weaveFront inserts column l ++ (textsAt inserts (column + l.length)).flatten =
      front.flatten ++ (weave insides 0 l ++ back.flatten) := by
  rw [weave_eq_weaveFront (by simpa using hbound), Nat.zero_add]
  cases l with
  | nil =>
    have hzero := h 0 le_rfl
    rw [if_pos rfl, List.length_nil, if_pos rfl] at hzero
    simp only [weaveFront, List.nil_append, List.length_nil, hzero, List.flatten_append]
  | cons d l =>
    have hfirst := h 0 (Nat.zero_le _)
    rw [if_pos rfl, if_neg (by simp), List.append_nil, Nat.add_zero] at hfirst
    have hlast := h (d :: l).length le_rfl
    rw [if_neg (by simp), if_pos rfl, List.nil_append] at hlast
    have hrest : weaveFront inserts (column + 1) l = weaveFront insides (0 + 1) l := by
      refine weaveFront_congr fun c hc => ?_
      have hmid := h (c + 1) (by rw [List.length_cons]; omega)
      rw [if_neg (by simp), if_neg (by rw [List.length_cons]; omega), List.nil_append,
        List.append_nil] at hmid
      rw [Nat.add_assoc, Nat.add_comm 1, hmid]
    simp only [weaveFront, hfirst, hrest, hlast, List.flatten_append, List.append_assoc,
      List.cons_append]

/-! ### Offsets of edits -/

/-- The line of an edit. -/
def line : Edit → Nat
  | lineBefore line _ => line
  | lineAfter line _ => line
  | inline line _ _ => line

/-- Edits of one line are made in the order of their ranks. -/
def rank : Edit → Nat
  | lineBefore _ _ => 0
  | inline _ _ _ => 1
  | lineAfter _ _ => 2

/-- The offset of the text that an edit puts into lines numbered from `first`, and the text. -/
def flat (ls : List Text) (first : Nat) : Edit → Nat × Text
  | lineBefore line text => (FlatText.lineStart ls (line - first), text ++ ['\n'])
  | inline line column text => (FlatText.lineStart ls (line - first) + column, text)
  | lineAfter line text =>
    (FlatText.lineStart ls (line - first) + (ls.getD (line - first) []).length, '\n' :: text)

/-- The edit is made in lines numbered from `first`, on one of them and not behind its end. -/
def IsPlaced (ls : List Text) (first : Nat) (edit : Edit) : Prop :=
  ∃ n l, edit.line = first + n ∧ ls[n]? = some l ∧
    ∀ line column text, edit = inline line column text → column ≤ l.length

/-- The edits in the order of their ranks. -/
def byRank (edits : List Edit) : List Edit :=
  (edits.filter fun e => e.rank = 0) ++
    ((edits.filter fun e => e.rank = 1) ++ edits.filter fun e => e.rank = 2)

/-- Sorting the edits keeps them. -/
lemma byRank_perm (edits : List Edit) : (byRank edits).Perm edits := by
  induction edits with
  | nil => exact .nil
  | cons e edits ih =>
    have hcases : e.rank = 0 ∨ e.rank = 1 ∨ e.rank = 2 := by cases e <;> simp [rank]
    rw [byRank] at ih ⊢
    rcases hcases with he | he | he
    · rw [List.filter_cons_of_pos (by simp [he]), List.filter_cons_of_neg (by simp [he]),
        List.filter_cons_of_neg (by simp [he])]
      exact ih.cons e
    · rw [List.filter_cons_of_neg (by simp [he]), List.filter_cons_of_pos (by simp [he]),
        List.filter_cons_of_neg (by simp [he])]
      exact List.perm_middle.trans (ih.cons e)
    · rw [List.filter_cons_of_neg (by simp [he]), List.filter_cons_of_neg (by simp [he]),
        List.filter_cons_of_pos (by simp [he]), ← List.append_assoc]
      rw [← List.append_assoc] at ih
      exact List.perm_middle.trans (ih.cons e)

/-- Selecting edits and taking their texts. -/
lemma map_filter_eq_filterMap {edits : List Edit} {p : Edit → Bool} {g : Edit → Text}
    {f : Edit → Option Text} (h : ∀ e ∈ edits, f e = if p e then some (g e) else none) :
    (edits.filter p).map g = edits.filterMap f := by
  induction edits with
  | nil => rfl
  | cons e edits ih =>
    have hrest := ih fun x hx => h x (List.mem_cons_of_mem e hx)
    have hfirst := h e List.mem_cons_self
    cases hp : p e with
    | true =>
      rw [hp, if_pos rfl] at hfirst
      rw [List.filter_cons_of_pos hp, List.map_cons, hrest, List.filterMap_cons_some hfirst]
    | false =>
      rw [hp] at hfirst
      rw [List.filter_cons_of_neg (by simp [hp]), hrest, List.filterMap_cons_none hfirst]

/-- The column at which an edit of a line is made. -/
def column (l : Text) : Edit → Nat
  | lineBefore _ _ => 0
  | inline _ column _ => column
  | lineAfter _ _ => l.length

/-- An edit meets an offset on its line and at its column. -/
lemma IsPlaced.flat_eq_iff {ls : List Text} {first : Nat} {e : Edit} {n c : Nat} {l : Text}
    (h : e.IsPlaced ls first) (hl : ls[n]? = some l) (hc : c ≤ l.length) :
    (e.flat ls first).1 = FlatText.lineStart ls n + c ↔ e.line = first + n ∧ e.column l = c := by
  obtain ⟨k, l', hline, hl', hcolumn⟩ := h
  have hflat : (e.flat ls first).1 = FlatText.lineStart ls k + e.column l' := by
    cases e with
    | lineBefore line text =>
      obtain rfl : line = first + k := hline
      simp [flat, column]
    | inline line column text =>
      obtain rfl : line = first + k := hline
      simp [flat, Edit.column]
    | lineAfter line text =>
      obtain rfl : line = first + k := hline
      simp [flat, column, hl']
  have hbound : e.column l' ≤ l'.length := by
    cases e with
    | lineBefore line text => exact Nat.zero_le _
    | inline line column text => exact hcolumn line column text rfl
    | lineAfter line text => exact le_rfl
  rw [hflat, hline]
  constructor
  · intro heq
    obtain ⟨rfl, hcol⟩ := FlatText.lineStart_inj hl' hl hbound hc heq
    obtain rfl : l' = l := Option.some.inj (hl'.symm.trans hl)
    exact ⟨rfl, hcol⟩
  · rintro ⟨hk, rfl⟩
    obtain rfl : k = n := by omega
    obtain rfl : l' = l := Option.some.inj (hl'.symm.trans hl)
    rfl

/-- The texts that edits put in at an offset. -/
lemma textsAt_flat {ls : List Text} {first : Nat} {edits : List Edit} {n c : Nat} {l : Text}
    (hplaced : ∀ e ∈ edits, e.IsPlaced ls first) (hl : ls[n]? = some l) (hc : c ≤ l.length) :
    textsAt ((byRank edits).map (flat ls first)) (FlatText.lineStart ls n + c) =
      (if c = 0 then (edits.filterMap (before? (first + n))).map fun t => t ++ ['\n'] else []) ++
        (textsAt (edits.filterMap (inside? (first + n))) c ++
          if c = l.length then (edits.filterMap (after? (first + n))).map fun t => '\n' :: t
          else []) := by
  set o := FlatText.lineStart ls n + c
  have hiff : ∀ e ∈ edits, (e.flat ls first).1 = o ↔ e.line = first + n ∧ e.column l = c :=
    fun e he => (hplaced e he).flat_eq_iff hl hc
  have hpart : ∀ r, textsAt ((edits.filter fun e => e.rank = r).map (flat ls first)) o =
      (edits.filter fun e => (e.flat ls first).1 = o ∧ e.rank = r).map fun e =>
        (e.flat ls first).2 := by
    intro r
    rw [textsAt, List.filter_map, List.map_map, List.filter_filter]
    simp only [Function.comp_def, Bool.decide_and]
  have hbefore : textsAt ((edits.filter fun e => e.rank = 0).map (flat ls first)) o =
      if c = 0 then (edits.filterMap (before? (first + n))).map fun t => t ++ ['\n'] else [] := by
    rw [hpart, map_filter_eq_filterMap (f := fun e =>
      if c = 0 then (before? (first + n) e).map fun t => t ++ ['\n'] else none)]
    · split
      · rw [List.map_filterMap]
      · simp
    · intro e he
      have hmeets := hiff e he
      cases e with grind [before?, flat, line, column, rank]
  have hinside : textsAt ((edits.filter fun e => e.rank = 1).map (flat ls first)) o =
      textsAt (edits.filterMap (inside? (first + n))) c := by
    rw [hpart, map_filter_eq_filterMap (f := fun e =>
      ((inside? (first + n) e).filter fun insert => insert.1 = c).map Prod.snd)]
    · rw [textsAt, List.filter_filterMap, List.map_filterMap]
    · intro e he
      have hmeets := hiff e he
      cases e with grind [inside?, flat, line, column, rank]
  have hafter : textsAt ((edits.filter fun e => e.rank = 2).map (flat ls first)) o =
      if c = l.length then (edits.filterMap (after? (first + n))).map fun t => '\n' :: t
      else [] := by
    rw [hpart, map_filter_eq_filterMap (f := fun e =>
      if c = l.length then (after? (first + n) e).map fun t => '\n' :: t else none)]
    · split
      · rw [List.map_filterMap]
      · simp
    · intro e he
      have hmeets := hiff e he
      cases e with grind [after?, flat, line, column, rank]
  rw [byRank, List.map_append, List.map_append, textsAt_append, textsAt_append, hbefore, hinside,
    hafter]

/-! ### Applying edits to a part of the lines -/

/-- The lines after the edits, for lines numbered from `first`. -/
def applyFrom (edits : List Edit) (first : Nat) : List Text → List Text
  | [] => []
  | l :: ls => applyLine edits first l ++ applyFrom edits (first + 1) ls

/-- Edits are applied line by line. -/
lemma apply_eq_applyFrom (edits : List Edit) (lines : List Text) :
    apply edits lines = applyFrom edits 0 lines := by
  have hfrom : ∀ first, (lines.mapIdx fun i l => applyLine edits (first + i) l).flatten =
      applyFrom edits first lines := by
    induction lines with
    | nil => intro first; rfl
    | cons l ls ih =>
      intro first
      rw [List.mapIdx_cons, List.flatten_cons, applyFrom, ← ih (first + 1)]
      simp only [Nat.add_zero, Nat.add_assoc, Nat.add_comm 1]
  simpa [apply] using hfrom 0

/-- A line without edits. -/
lemma applyLine_of_ne {edits : List Edit} {first : Nat} (h : ∀ e ∈ edits, e.line ≠ first) (l : Text) :
    applyLine edits first l = [l] := by
  have hbefore : edits.filterMap (before? first) = [] :=
    List.filterMap_eq_nil_iff.mpr fun e he => by
      have hne := h e he
      cases e with grind [before?, line]
  have hinside : edits.filterMap (inside? first) = [] :=
    List.filterMap_eq_nil_iff.mpr fun e he => by
      have hne := h e he
      cases e with grind [inside?, line]
  have hafter : edits.filterMap (after? first) = [] :=
    List.filterMap_eq_nil_iff.mpr fun e he => by
      have hne := h e he
      cases e with grind [after?, line]
  rw [applyLine, hbefore, hinside, hafter, weave_nil, List.nil_append]

/-- Lines in front of the edits stay, and the others can be edited on their own. -/
lemma applyFrom_split {edits : List Edit} {first n : Nat} (h : ∀ e ∈ edits, first + n ≤ e.line)
    (ls : List Text) :
    (applyFrom edits first ls).take n = ls.take n ∧
      (applyFrom edits first ls).drop n = applyFrom edits (first + n) (ls.drop n) := by
  induction n generalizing first ls with
  | zero => exact ⟨rfl, rfl⟩
  | succ n ih =>
    cases ls with
    | nil => exact ⟨rfl, rfl⟩
    | cons l ls =>
      obtain ⟨htake, hdrop⟩ : (applyFrom edits (first + 1) ls).take n = ls.take n ∧
          (applyFrom edits (first + 1) ls).drop n = applyFrom edits (first + 1 + n) (ls.drop n) :=
        ih (fun e he => by have := h e he; omega) ls
      rw [applyFrom, applyLine_of_ne fun e he => by have := h e he; omega]
      refine ⟨?_, ?_⟩
      · rw [List.singleton_append, List.take_succ_cons, List.take_succ_cons, htake]
      · rw [List.singleton_append, List.drop_succ_cons, List.drop_succ_cons, hdrop, Nat.add_assoc,
          Nat.add_comm 1]

/-- Lines are still there after edits. -/
lemma applyFrom_ne_nil (edits : List Edit) (first : Nat) {ls : List Text} (h : ls ≠ []) :
    applyFrom edits first ls ≠ [] := by
  cases ls with
  | nil => exact absurd rfl h
  | cons l ls =>
    rw [applyFrom, applyLine]
    simp

/-- Weaving texts into a flat text is weaving them into its lines. -/
lemma weave_ofLines {edits : List Edit} {inserts : List (Nat × Text)} {ls : List Text}
    (hne : ls ≠ [])
    {first base : Nat} (hbound : ∀ insert ∈ inserts, insert.1 ≤ base + (Text.ofLines ls).length)
    (hinside : ∀ n l, ls[n]? = some l →
      ∀ insert ∈ edits.filterMap (inside? (first + n)), insert.1 ≤ l.length)
    (htexts : ∀ n l, ls[n]? = some l → ∀ c ≤ l.length,
      textsAt inserts (base + FlatText.lineStart ls n + c) =
        (if c = 0 then (edits.filterMap (before? (first + n))).map fun t => t ++ ['\n'] else []) ++
          (textsAt (edits.filterMap (inside? (first + n))) c ++
            if c = l.length then (edits.filterMap (after? (first + n))).map fun t => '\n' :: t
            else [])) :
    weave inserts base (Text.ofLines ls) = Text.ofLines (applyFrom edits first ls) := by
  induction ls generalizing first base with
  | nil => exact absurd rfl hne
  | cons l ls ih =>
    have hline : weaveFront inserts base l ++ (textsAt inserts (base + l.length)).flatten =
        Text.ofLines (applyLine edits first l) := by
      rw [applyLine, Text.ofLines_around]
      exact weaveFront_line (hinside 0 l rfl) (htexts 0 l rfl)
    cases ls with
    | nil =>
      rw [Text.ofLines_singleton] at hbound ⊢
      rw [weave_eq_weaveFront hbound, applyFrom, applyFrom, List.append_nil, hline]
    | cons l' ls =>
      have hrest : weave inserts (base + l.length + 1) (Text.ofLines (l' :: ls)) =
          Text.ofLines (applyFrom edits (first + 1) (l' :: ls)) := by
        refine ih (by simp) ?_ (fun n k hk => ?_) (fun n k hk c hc => ?_)
        · intro insert hinsert
          have := hbound insert hinsert
          rw [Text.ofLines_cons_cons, List.length_append, List.length_cons] at this
          omega
        · have := hinside (n + 1) k (by simpa using hk)
          rwa [Nat.add_assoc, Nat.add_comm 1]
        · have := htexts (n + 1) k (by simpa using hk) c hc
          rw [FlatText.lineStart_cons_succ] at this
          rw [Nat.add_assoc first, Nat.add_comm 1 n, ← this]
          congr 1
          omega
      have happly : applyFrom edits first (l :: l' :: ls) =
          applyLine edits first l ++ applyFrom edits (first + 1) (l' :: ls) := rfl
      rw [Text.ofLines_cons_cons, weave_append_eq, weave_cons, hrest, happly,
        Text.ofLines_append (by simp [applyLine]) (applyFrom_ne_nil _ _ (by simp)),
        ← List.append_assoc, hline]

/-- An edit inside a line is one of the flat text. -/
lemma IsPlaced.flat_le {ls : List Text} {first : Nat} {e : Edit} (h : e.IsPlaced ls first) :
    (e.flat ls first).1 ≤ (Text.ofLines ls).length := by
  obtain ⟨n, l, hline, hl, hcolumn⟩ := h
  have hend := FlatText.lineStart_add_le hl
  cases e with
  | lineBefore line text =>
    obtain rfl : line = first + n := hline
    simp only [flat, Nat.add_sub_cancel_left]
    omega
  | inline line column text =>
    obtain rfl : line = first + n := hline
    have := hcolumn (first + n) column text rfl
    simp only [flat, Nat.add_sub_cancel_left]
    omega
  | lineAfter line text =>
    obtain rfl : line = first + n := hline
    simpa [flat, hl] using hend

/-- **Edits of lines are edits of the flat text.** -/
theorem ofLines_applyFrom {edits : List Edit} {ls : List Text} {first : Nat}
    (hplaced : ∀ e ∈ edits, e.IsPlaced ls first) :
    Text.ofLines (applyFrom edits first ls) =
      weave ((byRank edits).map (flat ls first)) 0 (Text.ofLines ls) := by
  rcases eq_or_ne ls [] with rfl | hne
  · have hnone : edits = [] := List.eq_nil_iff_forall_not_mem.mpr fun e he => by
      obtain ⟨n, l, -, hl, -⟩ := hplaced e he
      exact absurd hl (by simp)
    rw [hnone]
    rfl
  symm
  refine weave_ofLines hne ?_ (fun n l hl insert hinsert => ?_) fun n l hl c hc => ?_
  · intro insert hinsert
    obtain ⟨e, he, rfl⟩ := List.mem_map.mp hinsert
    rw [Nat.zero_add]
    exact (hplaced e ((byRank_perm edits).mem_iff.mp he)).flat_le
  · obtain ⟨e, he, heq⟩ := List.mem_filterMap.mp hinsert
    obtain ⟨k, l', hline, hl', hcolumn⟩ := hplaced e he
    cases e with
    | lineBefore line text => exact absurd heq (by simp [inside?])
    | lineAfter line text => exact absurd heq (by simp [inside?])
    | inline line column text =>
      rw [inside?] at heq
      split at heq
      · rename_i hsame
        obtain rfl := Option.some.inj heq
        obtain rfl : line = first + k := hline
        obtain rfl : k = n := by omega
        obtain rfl : l' = l := Option.some.inj (hl'.symm.trans hl)
        exact hcolumn _ column text rfl
      · exact absurd heq (by simp)
  · rw [Nat.zero_add]
    exact textsAt_flat hplaced hl hc

end Edit

end ShaderProbe
