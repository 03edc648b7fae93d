import Mathlib
import ShaderProbe.Proofs.SharedFront

/-!
# One edit

What a single edit does to lines: it changes one line (`Edit.applyFrom_singleton`), puts one text
into the flat text (`Edit.ofLines_singleton`), and moves the places behind it
(`Edit.exists_moved`).

`Comment.blankFrom_inline` and `Comment.blankFrom_lineBefore` say what becomes of the code.  A text
that is put in front of a character of the code is code.  A line of its own may lie in a comment
that goes on over it, and is then blanked.
-/

namespace ShaderProbe

namespace Edit

/-! ### The edited line -/

/-- Lines behind the edits stay as they are. -/
lemma applyFrom_of_lt {edits : List Edit} {first : Nat} (h : ∀ e ∈ edits, e.line < first)
    (ls : List Text) : applyFrom edits first ls = ls := by
  induction ls generalizing first with
  | nil => rfl
  | cons l ls ih =>
    rw [applyFrom, applyLine_of_ne (fun e he => (h e he).ne) l,
      ih fun e he => Nat.lt_succ_of_lt (h e he), List.singleton_append]

/-- One edit changes one line. -/
lemma applyFrom_singleton {e : Edit} {ls : List Text} {first n : Nat} {l : Text}
    (hl : ls[n]? = some l) (hline : e.line = first + n) :
    applyFrom [e] first ls = ls.take n ++ (applyLine [e] (first + n) l ++ ls.drop (n + 1)) := by
  induction ls generalizing first n with
  | nil => exact absurd hl (by simp)
  | cons k ls ih =>
    rw [applyFrom]
    cases n with
    | zero =>
      obtain rfl : k = l := by simpa using hl
      obtain rfl : e.line = first := hline
      rw [applyFrom_of_lt (by simp) ls]
      rfl
    | succ n =>
      rw [applyLine_of_ne (by simp only [List.mem_singleton, forall_eq]; omega),
        ih (by simpa using hl) (by omega), List.take_succ_cons, List.drop_succ_cons,
        Nat.add_assoc, Nat.add_comm 1]
      rfl

/-- One text is put into a text. -/
lemma weave_singleton {t : Text} {column : Nat} (text : Text) (h : column ≤ t.length) :
    weave [(column, text)] 0 t = t.take column ++ (text ++ t.drop column) := by
  have hlength : (t.take column).length = column := List.length_take_of_le h
  have hfront : weave [(column, text)] 0 (t.take column ++ t.drop column) =
      t.take column ++ weave [(column, text)] column (t.drop column) := by
    rw [weave_append (by simp [hlength]), hlength, Nat.zero_add]
  rw [List.take_append_drop] at hfront
  rw [hfront]
  cases t.drop column with
  | nil => rw [weave_end (by simp)]; simp [textsAt]
  | cons c r => rw [weave_cons, weave_of_lt (by simp)]; simp [textsAt]

/-- The front of a text into which one text has been put. -/
lemma take_weave_singleton {t : Text} {o k : Nat} (d : Text) (ho : o ≤ k) (hk : k ≤ t.length) :
    (weave [(o, d)] 0 t).take (k + d.length) = t.take o ++ (d ++ (t.drop o).take (k - o)) := by
  have htake : (t.take o).length = o := List.length_take_of_le (ho.trans hk)
  have hsum : k + d.length = (t.take o).length + (d.length + (k - o)) := by omega
  rw [weave_singleton d (ho.trans hk), hsum, List.take_length_add_append,
    List.take_length_add_append]

/-- A text inside a line. -/
lemma applyLine_inline {l : Text} {line column : Nat} (text : Text) (h : column ≤ l.length) :
    applyLine [inline line column text] line l = [l.take column ++ (text ++ l.drop column)] := by
  rw [← weave_singleton text h]
  simp [applyLine, List.filterMap_cons, before?, inside?, after?]

/-- A line in front of a line. -/
lemma applyLine_lineBefore (line : Nat) (text l : Text) :
    applyLine [lineBefore line text] line l = [text, l] := by
  simp [applyLine, List.filterMap_cons, before?, inside?, after?]

/-- One edit puts one text into the flat text. -/
lemma ofLines_singleton {e : Edit} {ls : List Text} {first : Nat} (h : e.IsPlaced ls first) :
    Text.ofLines (applyFrom [e] first ls) = weave [e.flat ls first] 0 (Text.ofLines ls) := by
  have hrank : byRank [e] = [e] := List.perm_singleton.mp (byRank_perm [e])
  rw [ofLines_applyFrom (by simpa using h), hrank, List.map_singleton]

/-! ### Places behind an edit -/

/-- Where a place behind the edit is after the edit. -/
def moved : Edit → Position → Position
  | lineBefore _ _, place => ⟨place.line + 1, place.column⟩
  | lineAfter _ _, place => ⟨place.line + 1, place.column⟩
  | inline line _ text, place =>
    if place.line = line then ⟨line, place.column + text.length⟩ else place

end Edit

/-- The start of a line behind some lines. -/
lemma FlatText.lineStart_append (front ls : List Text) (n : Nat) :
    lineStart (front ++ ls) (front.length + n) = lineStart front front.length + lineStart ls n := by
  rw [lineStart, List.take_length_add_append, List.map_append, List.sum_append, lineStart,
    List.take_length, lineStart]

section Moved

variable {front back : List Text} {l₀ l : Text} {first j column : Nat}

/-- A place behind a line that is put in. -/
lemma Edit.moved_lineBefore (text : Text) (hl : (l₀ :: back)[j]? = some l) :
    (front ++ text :: l₀ :: back)[front.length + (j + 1)]? = some l ∧
      FlatText.lineStart (front ++ text :: l₀ :: back) (front.length + (j + 1)) + column =
        FlatText.lineStart (front ++ l₀ :: back) (front.length + j) + column +
          (text.length + 1) := by
  refine ⟨?_, ?_⟩
  · rw [List.getElem?_append_right (by omega), Nat.add_sub_cancel_left, List.getElem?_cons_succ, hl]
  · rw [FlatText.lineStart_append, FlatText.lineStart_append, FlatText.lineStart_cons_succ]
    omega

/-- A place behind a text that is put into a line, on this line or on a later one. -/
lemma Edit.exists_moved_inline (text : Text) {c : Nat} (hc : c ≤ l₀.length)
    (hl : (l₀ :: back)[j]? = some l) (hbehind : j = 0 → c ≤ column) :
    ∃ l' column', (inline first c text).moved ⟨first + j, column⟩ = ⟨first + j, column'⟩ ∧
      (front ++ (l₀.take c ++ (text ++ l₀.drop c)) :: back)[front.length + j]? = some l' ∧
      l'[column']? = l[column]? ∧
      FlatText.lineStart (front ++ (l₀.take c ++ (text ++ l₀.drop c)) :: back) (front.length + j) +
        column' = FlatText.lineStart (front ++ l₀ :: back) (front.length + j) + column +
          text.length := by
  have htake : (l₀.take c).length = c := List.length_take_of_le hc
  rw [List.getElem?_append_right (by omega), Nat.add_sub_cancel_left, FlatText.lineStart_append,
    FlatText.lineStart_append]
  cases j with
  | zero =>
    obtain rfl : l₀ = l := by simpa using hl
    have hcolumn := hbehind rfl
    refine ⟨_, column + text.length, by simp [moved], rfl, ?_, ?_⟩
    · rw [List.getElem?_append_right (by omega), List.getElem?_append_right (by omega),
        List.getElem?_drop, htake]
      congr 1
      omega
    · simp only [FlatText.lineStart, List.take_zero, List.map_nil, List.sum_nil]
      omega
  | succ j =>
    refine ⟨l, column, ?_, hl, rfl, ?_⟩
    · rw [moved, if_neg (by dsimp only; omega)]
    · rw [FlatText.lineStart_cons_succ, FlatText.lineStart_cons_succ, List.length_append,
        List.length_append, List.length_drop, htake]
      omega

end Moved

/-- **A place behind an edit moves by the text that is put in.** -/
lemma Edit.exists_moved {e : Edit} {ls : List Text} {first : Nat} (hplaced : e.IsPlaced ls first)
    (hrank : e.rank ≠ 2) {n column : Nat} {l : Text} (hl : ls[n]? = some l)
    (hcolumn : column < l.length)
    (hbehind : (e.flat ls first).1 ≤ FlatText.lineStart ls n + column) :
    ∃ m l' column', e.moved ⟨first + n, column⟩ = ⟨first + m, column'⟩ ∧
      (applyFrom [e] first ls)[m]? = some l' ∧ l'[column']? = l[column]? ∧
      FlatText.lineStart (applyFrom [e] first ls) m + column' =
        FlatText.lineStart ls n + column + (e.flat ls first).2.length := by
  obtain ⟨k, l₀, hline, hl₀, hinline⟩ := hplaced
  have happly := applyFrom_singleton hl₀ hline
  obtain ⟨hk, hget⟩ := List.getElem?_eq_some_iff.mp hl₀
  have hle : ∀ c, FlatText.lineStart ls k + c ≤ FlatText.lineStart ls n + column → k ≤ n :=
    fun c => FlatText.line_le_of_lineStart_le hl hcolumn.le
  -- the lines in front of the edited line, the line, and the lines behind it
  have hlength : (ls.take k).length = k := List.length_take_of_le hk.le
  have hls : ls.take k ++ l₀ :: ls.drop (k + 1) = ls := by
    rw [← hget, ← List.drop_eq_getElem_cons hk, List.take_append_drop]
  have hsource : ∀ {j}, ls[k + j]? = some l → (l₀ :: ls.drop (k + 1))[j]? = some l := by
    intro j hj
    rwa [← hget, ← List.drop_eq_getElem_cons hk, List.getElem?_drop]
  cases e with
  | lineAfter line text => exact absurd rfl hrank
  | lineBefore line text =>
    obtain rfl : line = first + k := hline
    simp only [flat, Nat.add_sub_cancel_left] at hbehind ⊢
    obtain ⟨j, rfl⟩ := Nat.exists_eq_add_of_le (hle 0 hbehind)
    obtain ⟨hmoved, hstart⟩ := @moved_lineBefore (ls.take k) _ _ _ _ column text (hsource hl)
    rw [hlength, hls] at hstart
    rw [hlength] at hmoved
    rw [happly, applyLine_lineBefore]
    refine ⟨k + (j + 1), l, column, by simp [moved, Nat.add_assoc], hmoved, rfl, ?_⟩
    rw [List.length_append, List.length_singleton]
    exact hstart
  | inline line c text =>
    obtain rfl : line = first + k := hline
    have hc : c ≤ l₀.length := hinline _ _ _ rfl
    simp only [flat, Nat.add_sub_cancel_left] at hbehind ⊢
    obtain ⟨j, rfl⟩ := Nat.exists_eq_add_of_le (hle c hbehind)
    have hsame : j = 0 → c ≤ column := by
      rintro rfl
      rw [Nat.add_zero] at hbehind
      omega
    obtain ⟨l', column', hmoved, hline', hchar, hstart⟩ :=
      @exists_moved_inline (ls.take k) _ _ _ (first + k) _ column text c hc (hsource hl) hsame
    rw [hlength] at hline'
    rw [hlength, hls] at hstart
    rw [happly, applyLine_inline text hc, ← Nat.add_assoc]
    exact ⟨k + j, l', column', by rw [hmoved, Nat.add_assoc], hline', hchar, hstart⟩

/-- **The text in front of a place behind an edit** has the text of the edit in it. -/
lemma Edit.exists_textInFront {e : Edit} {ls : List Text} (hplaced : e.IsPlaced ls 0)
    (hrank : e.rank ≠ 2) {n column : Nat} {l : Text} (hl : ls[n]? = some l)
    (hcolumn : column < l.length) (hbehind : (e.flat ls 0).1 ≤ FlatText.lineStart ls n + column) :
    ∃ between, Position.textInFront ls ⟨n, column⟩ =
        (Text.ofLines ls).take (e.flat ls 0).1 ++ between ∧
      (e.moved ⟨n, column⟩).textInFront (applyFrom [e] 0 ls) =
        (Text.ofLines ls).take (e.flat ls 0).1 ++ ((e.flat ls 0).2 ++ between) := by
  obtain ⟨m, l', column', hmoved, hl', hsame, hoffset⟩ :=
    exists_moved hplaced hrank hl hcolumn hbehind
  rw [Nat.zero_add, Nat.zero_add] at hmoved
  have hcolumn' : column' ≤ l'.length := by
    by_contra hlong
    rw [List.getElem?_eq_none (by omega), List.getElem?_eq_getElem hcolumn] at hsame
    exact absurd hsame (by simp)
  have hend := FlatText.lineStart_add_le hl
  refine ⟨((Text.ofLines ls).drop (e.flat ls 0).1).take
    (FlatText.lineStart ls n + column - (e.flat ls 0).1), ?_, ?_⟩
  · rw [Position.textInFront_eq hl hcolumn.le, ← List.take_add, Nat.add_sub_cancel' hbehind]
  · rw [hmoved, Position.textInFront_eq hl' hcolumn', hoffset, ofLines_singleton hplaced,
      take_weave_singleton _ hbehind (by omega)]

/-! ### The code of edited lines -/

namespace Comment

variable {ls : List Text} {n : Nat} {l : Text}

/-- The code in front of a line, of the line, and behind it. -/
lemma blankFrom_split (hl : ls[n]? = some l) :
    (blankFrom false ls)[n]? = some (blankLine (isOpenAfter false (ls.take n)) l).1 ∧
      (blankFrom false ls).take n = blankFrom false (ls.take n) ∧
      (blankFrom false ls).drop (n + 1) =
        blankFrom (blankLine (isOpenAfter false (ls.take n)) l).2 (ls.drop (n + 1)) := by
  obtain ⟨hn, hget⟩ := List.getElem?_eq_some_iff.mp hl
  have hlength : (blankFrom false (ls.take n)).length = n := by
    rw [length_blankFrom, List.length_take_of_le hn.le]
  have hsplit : blankFrom false ls = blankFrom false (ls.take n) ++
      (blankLine (isOpenAfter false (ls.take n)) l).1 ::
        blankFrom (blankLine (isOpenAfter false (ls.take n)) l).2 (ls.drop (n + 1)) := by
    have hls : ls = ls.take n ++ l :: ls.drop (n + 1) := by
      rw [← hget, ← List.drop_eq_getElem_cons hn, List.take_append_drop]
    conv_lhs => rw [hls, blankFrom_append, blankFrom]
  refine ⟨?_, ?_, ?_⟩
  · rw [hsplit, List.getElem?_append_right (by omega), hlength, Nat.sub_self,
      List.getElem?_cons_zero]
  · rw [hsplit, List.take_left' hlength]
  · rw [hsplit, ← List.singleton_append, ← List.append_assoc, List.drop_left' (by simp [hlength])]

/-- A line of the code is not longer than the line of the source. -/
lemma exists_source (hl : (blankFrom false ls)[n]? = some l) :
    ∃ source, ls[n]? = some source ∧ l.length ≤ source.length ∧
      l = (blankLine (isOpenAfter false (ls.take n)) source).1 := by
  have hlt : n < ls.length := by
    rw [← length_blankFrom false ls]
    exact (List.getElem?_eq_some_iff.mp hl).1
  have hget := List.getElem?_eq_getElem hlt
  have hline := Option.some.inj (hl.symm.trans (blankFrom_split hget).1)
  exact ⟨_, hget, by rw [hline]; exact length_blankLine_le _ _, hline⟩

/-- A text in front of a character of the code is code. -/
lemma blankFrom_inline {column : Nat} {text : Text} (hl : ls[n]? = some l)
    (hcut : IsCut (isOpenAfter false (ls.take n)) l column)
    (hplain : ∀ c ∈ text, c ≠ '/' ∧ c ≠ '*') :
    blankFrom false (Edit.applyFrom [.inline n column text] 0 ls) =
      Edit.applyFrom [.inline n column text] 0 (blankFrom false ls) := by
  obtain ⟨hcode, htake, hdrop⟩ := blankFrom_split hl
  have hweave := @blankLine_weave [(column, text)] (by simpa using .of_plain hplain)
    (isOpenAfter false (ls.take n)) l 0 (.of_isCut (by simpa using hcut))
  have happly : ∀ {ls : List Text} {l : Text}, ls[n]? = some l →
      Edit.applyFrom [.inline n column text] 0 ls =
        ls.take n ++ Edit.weave [(column, text)] 0 l :: ls.drop (n + 1) := by
    intro ls l hl
    rw [@Edit.applyFrom_singleton (.inline n column text) ls 0 n l hl (Nat.zero_add n).symm,
      Nat.zero_add]
    simp [Edit.applyLine, List.filterMap_cons, Edit.before?, Edit.inside?, Edit.after?]
  rw [happly hl, happly hcode, htake, hdrop, blankFrom_append, blankFrom, hweave]

/-- A line of its own is code or lies in a comment. -/
lemma blankFrom_lineBefore {text : Text} (hl : ls[n]? = some l) (hfree : isMarkFree text = true) :
    ∃ code, (code = text ∨ Text.isBlankOnly code = true) ∧
      blankFrom false (Edit.applyFrom [.lineBefore n text] 0 ls) =
        Edit.applyFrom [.lineBefore n code] 0 (blankFrom false ls) := by
  obtain ⟨hcode, htake, hdrop⟩ := blankFrom_split hl
  set inBlock := isOpenAfter false (ls.take n) with hopen
  refine ⟨text.map fun c => if inBlock then ' ' else c, ?_, ?_⟩
  · cases inBlock with
    | false => exact .inl (by simp)
    | true =>
      refine .inr (Text.isBlankOnly_iff.mpr fun c hc => ?_)
      obtain ⟨d, -, rfl⟩ := List.mem_map.mp hc
      exact (by decide : isBlank ' ' = true)
  · have happly : ∀ {ls : List Text} {l text : Text}, ls[n]? = some l →
        Edit.applyFrom [.lineBefore n text] 0 ls = ls.take n ++ text :: l :: ls.drop (n + 1) := by
      intro ls l text hl
      rw [@Edit.applyFrom_singleton (.lineBefore n text) ls 0 n l hl (Nat.zero_add n).symm,
        Nat.zero_add, Edit.applyLine_lineBefore]
      rfl
    rw [happly hl, happly hcode, htake, hdrop, blankFrom_append, blankFrom, ← hopen,
      blankLine_of_isMarkFree hfree, blankFrom]

end Comment

end ShaderProbe
