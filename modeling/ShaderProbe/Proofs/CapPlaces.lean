import Mathlib
import ShaderProbe.Proofs.Stretch

/-!
# Where capping puts its texts

Edits that stand next to the code are edits of the code (`Edit.blankCode_apply`): only a line of its
own that is put inside a block comment is blank there.  The texts that cap a loop stand beside the
loop, and each of them ends a statement or bounds a block (`Cap.Adjoins`).  So nothing is put into a
stretch between two statements, and what stands in front of it stays ended
(`Cap.exists_code_of_apply`).
-/

namespace ShaderProbe

/-! ### Edits of the code -/

namespace Edit

/-- The edit as one of the code: inside a block comment a line of its own is blank.  The flags say
in front of which lines a block comment is open. -/
def inCode (isOpen : Nat → Bool) : Edit → Edit
  | lineBefore line text => lineBefore line (Comment.blankLine (isOpen line) text).1
  | lineAfter line text => lineAfter line (Comment.blankLine (isOpen (line + 1)) text).1
  | inline line column text => inline line column text

variable {isOpen : Nat → Bool} {edits : List Edit} {lines : List Text} {start : Nat}

@[simp] lemma line_inCode (isOpen : Nat → Bool) (e : Edit) : (e.inCode isOpen).line = e.line := by
  cases e <;> rfl

/-- The edit of the code is made at the same offset. -/
@[simp] lemma flat_inCode (isOpen : Nat → Bool) (e : Edit) (ls : List Text) (first : Nat) :
    ((e.inCode isOpen).flat ls first).1 = (e.flat ls first).1 := by
  cases e <;> rfl

/-- The edit of the code is made on the same lines. -/
lemma IsPlaced.inCode {ls : List Text} {first : Nat} {e : Edit} (h : e.IsPlaced ls first)
    (isOpen : Nat → Bool) : (e.inCode isOpen).IsPlaced ls first := by
  obtain ⟨n, l, hline, hl, hcolumn⟩ := h
  refine ⟨n, l, by rw [line_inCode, hline], hl, fun line column text heq => ?_⟩
  cases e with
  | lineBefore place own => exact absurd heq (by simp [Edit.inCode])
  | lineAfter place own => exact absurd heq (by simp [Edit.inCode])
  | inline place column' own => exact hcolumn line column text heq

/-- The lines that the edits of the code put in front of a line. -/
lemma filterMap_before?_inCode (isOpen : Nat → Bool) (edits : List Edit) (line : Nat) :
    (edits.map (inCode isOpen)).filterMap (before? line) =
      (edits.filterMap (before? line)).map fun t => (Comment.blankLine (isOpen line) t).1 := by
  rw [List.filterMap_map, List.map_filterMap]
  refine List.filterMap_congr fun e _ => ?_
  cases e with
  | lineBefore place text => by_cases h : place = line <;> simp [before?, inCode, h]
  | lineAfter place text => rfl
  | inline place column text => rfl

/-- The lines that the edits of the code put behind a line. -/
lemma filterMap_after?_inCode (isOpen : Nat → Bool) (edits : List Edit) (line : Nat) :
    (edits.map (inCode isOpen)).filterMap (after? line) =
      (edits.filterMap (after? line)).map fun t => (Comment.blankLine (isOpen (line + 1)) t).1 := by
  rw [List.filterMap_map, List.map_filterMap]
  refine List.filterMap_congr fun e _ => ?_
  cases e with
  | lineBefore place text => rfl
  | lineAfter place text => by_cases h : place = line <;> simp [after?, inCode, h]
  | inline place column text => rfl

/-- The texts that the edits of the code put into a line. -/
lemma filterMap_inside?_inCode (isOpen : Nat → Bool) (edits : List Edit) (line : Nat) :
    (edits.map (inCode isOpen)).filterMap (inside? line) = edits.filterMap (inside? line) := by
  rw [List.filterMap_map]
  refine List.filterMap_congr fun e _ => ?_
  cases e <;> rfl

end Edit

/-- Lines without comment marks are blanked one by one, and leave an open comment open. -/
lemma Comment.blankFrom_of_isMarkFree {ts : List Text} (h : ∀ t ∈ ts, isMarkFree t = true)
    (inBlock : Bool) : blankFrom inBlock ts = (ts.map fun t => (blankLine inBlock t).1) ∧
      isOpenAfter inBlock ts = inBlock := by
  induction ts with
  | nil => exact ⟨rfl, rfl⟩
  | cons t ts ih =>
    have hflag : (blankLine inBlock t).2 = inBlock := by
      rw [blankLine_of_isMarkFree (h t List.mem_cons_self)]
    obtain ⟨hlines, hopen⟩ := ih fun u hu => h u (List.mem_cons_of_mem t hu)
    rw [blankFrom, isOpenAfter, hflag, hlines, hopen]
    exact ⟨rfl, rfl⟩

namespace Edit

variable {isOpen : Nat → Bool} {edits : List Edit} {lines : List Text} {start : Nat}

/-- **The code of an edited line.** -/
lemma blankFrom_applyLine {line : Nat} {inBlock : Bool} {l : Text} (hopen : isOpen line = inBlock)
    (hopen' : isOpen (line + 1) = (Comment.blankLine inBlock l).2)
    (h : ∀ e ∈ edits, e.line = line → e.IsBesideCode inBlock l) :
    Comment.blankFrom inBlock (applyLine edits line l) =
      applyLine (edits.map (inCode isOpen)) line (Comment.blankLine inBlock l).1 := by
  have hbefore : ∀ t ∈ edits.filterMap (before? line), Comment.isMarkFree t = true := by
    intro t ht
    obtain ⟨e, he, heq⟩ := List.mem_filterMap.mp ht
    obtain rfl := eq_of_before? heq
    exact (h _ he rfl).isMarkFree
  have hafter : ∀ t ∈ edits.filterMap (after? line), Comment.isMarkFree t = true := by
    intro t ht
    obtain ⟨e, he, heq⟩ := List.mem_filterMap.mp ht
    obtain rfl := eq_of_after? heq
    exact (h _ he rfl).isMarkFree
  have hinside : ∀ insert ∈ edits.filterMap (inside? line),
      Comment.IsInset insert.2 ∧ Comment.IsCut inBlock l insert.1 := by
    intro insert hinsert
    obtain ⟨e, he, heq⟩ := List.mem_filterMap.mp hinsert
    obtain rfl := eq_of_inside? heq
    exact h _ he rfl
  have hweave := Comment.blankLine_weave (fun insert hinsert => (hinside insert hinsert).1) inBlock
    l 0 (.of_isCut fun insert hinsert => (hinside insert hinsert).2)
  obtain ⟨hfront, hflag⟩ := Comment.blankFrom_of_isMarkFree hbefore inBlock
  obtain ⟨hback, -⟩ := Comment.blankFrom_of_isMarkFree hafter (Comment.blankLine inBlock l).2
  rw [applyLine, Comment.blankFrom_append, hflag, Comment.blankFrom, hweave, hfront, hback, applyLine,
    filterMap_before?_inCode, filterMap_after?_inCode, filterMap_inside?_inCode, hopen, hopen']

/-- The code of edited lines, for lines numbered from `first`. -/
lemma blankFrom_applyFrom (ls : List Text) (first : Nat) (inBlock : Bool)
    (hopen : ∀ n ≤ ls.length, isOpen (first + n) = Comment.isOpenAfter inBlock (ls.take n))
    (h : ∀ n l, ls[n]? = some l → ∀ e ∈ edits, e.line = first + n →
      e.IsBesideCode (Comment.isOpenAfter inBlock (ls.take n)) l) :
    Comment.blankFrom inBlock (applyFrom edits first ls) =
      applyFrom (edits.map (inCode isOpen)) first (Comment.blankFrom inBlock ls) := by
  induction ls generalizing first inBlock with
  | nil => rfl
  | cons l ls ih =>
    have hfirst : ∀ e ∈ edits, e.line = first → e.IsBesideCode inBlock l := h 0 l rfl
    have hline : Comment.blankFrom inBlock (applyLine edits first l) =
        applyLine (edits.map (inCode isOpen)) first (Comment.blankLine inBlock l).1 :=
      blankFrom_applyLine (hopen 0 (Nat.zero_le _)) (hopen 1 (by simp)) hfirst
    obtain ⟨-, hflag⟩ := braces_applyLine hfirst
    rw [applyFrom, Comment.blankFrom_append, hline, hflag, Comment.blankFrom, applyFrom]
    congr 1
    refine ih (first + 1) _ (fun n hn => ?_) fun n x hx e he heq => ?_
    · have := hopen (n + 1) (by simpa using hn)
      rwa [← Nat.add_assoc, Nat.add_right_comm] at this
    · exact h (n + 1) x hx e he (by omega)

/-- **Edits that stand next to the code are edits of the code.** -/
theorem blankCode_apply (h : ∀ e ∈ edits, e.IsBeside lines start) :
    Loop.blankCode (apply edits lines) start = applyFrom
      (edits.map (inCode fun n => Comment.isOpenAfter false (lines.take n))) start
        (Loop.blankCode lines start) := by
  set isOpen := fun n => Comment.isOpenAfter false (lines.take n)
  have hcode : Comment.blankFrom false (applyFrom edits 0 lines) =
      applyFrom (edits.map (inCode isOpen)) 0 (Comment.blankFrom false lines) := by
    refine blankFrom_applyFrom lines 0 false (fun n _ => by rw [Nat.zero_add]) ?_
    intro n l hl e he hline
    obtain ⟨-, l', hl', hbeside⟩ := h e he
    rw [Nat.zero_add] at hline
    rw [hline] at hl' hbeside
    obtain rfl := Option.some.inj (hl'.symm.trans hl)
    exact hbeside
  have hline : ∀ e ∈ edits.map (inCode isOpen), 0 + start ≤ e.line := by
    intro e he
    obtain ⟨e, hmem, rfl⟩ := List.mem_map.mp he
    rw [line_inCode, Nat.zero_add]
    exact (h e hmem).start_le
  have hsplit := (applyFrom_split hline (Comment.blankFrom false lines)).2
  rwa [Nat.zero_add, ← hcode, ← apply_eq_applyFrom] at hsplit

end Edit

/-! ### The edits of a cap -/

namespace Cap

/-- A text that ends a statement or bounds a block, and closes no block unless it is a brace. -/
structure IsBound (text : Text) : Prop where
  isEnded : Text.IsEnded text
  closes : '}' ∉ text ∨ text = " \x7d".toList

/-- The edit is made beside the loop, and its text is a bound. -/
structure Adjoins (lines : List Text) (start : Nat) (span : LoopSpan) (e : Edit) : Prop where
  isPlaced : e.IsPlaced (Loop.blankCode lines start) start
  isBeside : span.IsBeside (Text.ofLines (Loop.blankCode lines start))
    (e.flat (Loop.blankCode lines start) start).1
  isBound : IsBound e.text

/-- A statement without braces between texts that close no block. -/
lemma IsStatement.isBound {t front back : Text} (h : IsStatement t) (hbrace : '}' ∉ t)
    (hfront : '}' ∉ front) (hback : Text.isBlankOnly back = true) :
    IsBound (front ++ (t ++ back)) := by
  obtain ⟨init, rfl⟩ := List.getLast?_eq_some_iff.mp h.last
  refine ⟨⟨front ++ init, ';', back, by simp, by simp, hback⟩, .inl fun hmem => ?_⟩
  rcases List.mem_append.mp hmem with hmem | hmem
  · exact hfront hmem
  · rcases List.mem_append.mp hmem with hmem | hmem
    · exact hbrace hmem
    · exact absurd (Text.isBlankOnly_iff.mp hback _ hmem) (by decide)

/-- The statements of a cap hold no brace. -/
lemma brace_not_mem_declaration (loop : Loop) : '}' ∉ declaration {} loop := by
  rw [declaration_eq_append, List.mem_append, not_or]
  exact ⟨(isWritten_declaration loop.index).not_mem (by decide) (by decide), by decide⟩

lemma brace_not_mem_guard (loop : Loop) {cap : Int} (hcap : 0 ≤ cap) :
    '}' ∉ guard {} loop cap := by
  rw [guard_eq_append, List.mem_append, not_or, List.mem_cons, not_or, List.mem_cons, not_or]
  exact ⟨⟨by decide, by decide, (isWritten_guard hcap loop.index).not_mem (by decide) (by decide)⟩,
    by decide⟩

/-- An indentation holds no brace. -/
lemma brace_not_mem_indent (l : Text) : '}' ∉ Text.indent l := fun hmem =>
  absurd (Text.isBlankOnly_iff.mp (Text.isBlankOnly_indent l) '}' hmem) (by decide)

variable {lines : List Text} {start index : Nat} {span : LoopSpan} {text : Text}

/-- A mark of a loop stands on a line of the code. -/
lemma exists_locate_mark (hspan : span ∈ Loop.spans (Text.ofLines (Loop.blankCode lines start)))
    {m : Nat} (hm : m ∈ span.marks) :
    ∃ n l column, (Loop.blankCode lines start)[n]? = some l ∧ column < l.length ∧
      m = FlatText.lineStart (Loop.blankCode lines start) n + column ∧
      FlatText.locate ⟨Loop.blankCode lines start, start⟩ m = ⟨start + n, column⟩ := by
  obtain ⟨htrue, -⟩ := Loop.isTrue_of_mem_spans hspan
  obtain ⟨c, hc, hblank⟩ := htrue.mark hm
  obtain ⟨n, l, column, hl, hcolumn, heq, hlocate⟩ := FlatText.exists_locate_of_ink hc hblank start
  exact ⟨n, l, column, hl, (List.getElem?_eq_some_iff.mp hcolumn).1, heq, hlocate⟩

/-- A text is put in front of the keyword of a loop. -/
lemma adjoins_inFront (hspan : span ∈ Loop.spans (Text.ofLines (Loop.blankCode lines start)))
    (htext : IsBound text) {place : Position}
    (hplace : FlatText.locate ⟨Loop.blankCode lines start, start⟩ span.keyword = place) :
    Adjoins lines start span (.inline place.line place.column text) := by
  obtain ⟨n, l, column, hl, hlt, heq, hlocate⟩ :=
    exists_locate_mark hspan (LoopSpan.mem_marks_iff.mpr (.inl rfl))
  obtain rfl := hlocate.symm.trans hplace
  refine ⟨⟨n, l, rfl, hl, ?_⟩, .inl ⟨?_, fun i hi hi' => ?_⟩, htext⟩
  · rintro _ _ _ ⟨⟩
    exact hlt.le
  all_goals simp only [Edit.flat, Nat.add_sub_cancel_left] at *
  · exact heq.ge
  · omega

/-- A text is put behind the header, the opening brace or the body of a loop. -/
lemma adjoins_behind (hspan : span ∈ Loop.spans (Text.ofLines (Loop.blankCode lines start)))
    (htext : IsBound text) {m : Nat} (hm : span.IsTail m) {place : Position}
    (hplace : FlatText.locate ⟨Loop.blankCode lines start, start⟩ m = place) :
    Adjoins lines start span (.inline place.line (place.column + 1) text) := by
  obtain ⟨n, l, column, hl, hlt, heq, hlocate⟩ := exists_locate_mark hspan hm.mem_marks
  obtain rfl := hlocate.symm.trans hplace
  refine ⟨⟨n, l, rfl, hl, ?_⟩, .inr ⟨m, hm, ?_, fun i hi hi' => ?_⟩, htext⟩
  · rintro _ _ _ ⟨⟩
    exact hlt
  all_goals simp only [Edit.flat, Nat.add_sub_cancel_left] at *
  all_goals omega

/-- A line of the code is looked up without its trailing blanks. -/
lemma exists_of_lineAt_strip {n : Nat} {l code : Text}
    (hl : (Loop.blankCode lines start)[n]? = some l)
    (hcode : lineAt (Comment.strip lines) (start + n) = .ok code) :
    ∃ gap, Text.isBlankOnly gap = true ∧ code ++ gap = l := by
  rw [Loop.blankCode, List.getElem?_drop] at hl
  rw [lineAt_eq_ok_iff, Comment.strip, Comment.stripFrom_eq, List.getElem?_map, hl] at hcode
  obtain rfl := Option.some.inj hcode
  exact Text.exists_trimRight_append l

/-- In front of the first code of a line there are blanks. -/
lemma isBlank_of_lineAt_strip {n column : Nat} {l code : Text}
    (hl : (Loop.blankCode lines start)[n]? = some l) (hcolumn : column ≤ l.length)
    (hcode : lineAt (Comment.strip lines) (start + n) = .ok code)
    (hblank : Text.isBlankOnly (code.take column) = true) {i : Nat}
    (hi : FlatText.lineStart (Loop.blankCode lines start) n ≤ i)
    (hi' : i < FlatText.lineStart (Loop.blankCode lines start) n + column) :
    ∀ c ∈ (Text.ofLines (Loop.blankCode lines start))[i]?, isBlank c = true := by
  intro c hc
  obtain ⟨gap, hgap, rfl⟩ := exists_of_lineAt_strip hl hcode
  obtain ⟨k, rfl⟩ := Nat.exists_eq_add_of_le hi
  have hk : k < column := by omega
  rw [FlatText.getElem?_ofLines hl (by omega), ← List.getElem?_take_of_lt hk] at hc
  have hall : Text.isBlankOnly ((code ++ gap).take column) = true := by
    rw [List.take_append, Text.isBlankOnly_append, hblank, Bool.true_and]
    exact Text.isBlankOnly_iff.mpr fun x hx =>
      Text.isBlankOnly_iff.mp hgap x (List.mem_of_mem_take hx)
  exact Text.isBlankOnly_iff.mp hall c (List.mem_of_getElem? hc)

/-- A line is put in front of a loop that is the first code of its line. -/
lemma adjoins_above (hspan : span ∈ Loop.spans (Text.ofLines (Loop.blankCode lines start)))
    (htext : IsBound text) {place : Position} {code : Text}
    (hplace : FlatText.locate ⟨Loop.blankCode lines start, start⟩ span.keyword = place)
    (hcode : lineAt (Comment.strip lines) place.line = .ok code)
    (hblank : Text.isBlankOnly (code.take place.column) = true) :
    Adjoins lines start span (.lineBefore place.line text) := by
  obtain ⟨n, l, column, hl, hlt, heq, hlocate⟩ :=
    exists_locate_mark hspan (LoopSpan.mem_marks_iff.mpr (.inl rfl))
  obtain rfl := hlocate.symm.trans hplace
  refine ⟨⟨n, _, rfl, hl, by simp⟩, .inl ⟨?_, fun i hi hi' => ?_⟩, htext⟩
  all_goals simp only [Edit.flat, Nat.add_sub_cancel_left] at *
  · omega
  · exact isBlank_of_lineAt_strip hl hlt.le hcode hblank hi (heq ▸ hi')

/-- A line is put behind the opening brace of a loop that is the last code of its line. -/
lemma adjoins_below (hspan : span ∈ Loop.spans (Text.ofLines (Loop.blankCode lines start)))
    (htext : IsBound text) {m : Nat} (hm : span.IsTail m) {place : Position} {code : Text}
    (hplace : FlatText.locate ⟨Loop.blankCode lines start, start⟩ m = place)
    (hcode : lineAt (Comment.strip lines) place.line = .ok code)
    (hblank : Text.isBlankOnly (code.drop (place.column + 1)) = true) :
    Adjoins lines start span (.lineAfter place.line text) := by
  obtain ⟨n, l, column, hl, hlt, heq, hlocate⟩ := exists_locate_mark hspan hm.mem_marks
  obtain rfl := hlocate.symm.trans hplace
  obtain ⟨gap, hgap, rfl⟩ := exists_of_lineAt_strip hl hcode
  have hflat : ((Edit.lineAfter (start + n) text).flat (Loop.blankCode lines start) start).1 =
      FlatText.lineStart (Loop.blankCode lines start) n + (code ++ gap).length := by
    rw [Edit.flat, Nat.add_sub_cancel_left, List.getD_eq_getElem?_getD, hl, Option.getD_some]
  refine ⟨⟨n, _, rfl, hl, by simp⟩, .inr ⟨m, hm, ?_, fun i hi hi' c hc => ?_⟩, htext⟩
  · rw [hflat]
    omega
  · rw [hflat] at hi'
    obtain ⟨k, rfl⟩ : ∃ k,
        i = FlatText.lineStart (Loop.blankCode lines start) n + (column + 1 + k) :=
      ⟨i - (m + 1), by omega⟩
    rw [FlatText.getElem?_ofLines hl (by omega), ← List.getElem?_drop] at hc
    have hall : Text.isBlankOnly ((code ++ gap).drop (column + 1)) = true := by
      rw [List.drop_append, Text.isBlankOnly_append, hblank, Bool.true_and]
      exact Text.isBlankOnly_iff.mpr fun x hx =>
        Text.isBlankOnly_iff.mp hgap x (List.mem_of_mem_drop hx)
    exact Text.isBlankOnly_iff.mp hall c (List.mem_of_getElem? hc)

/-- The offset of a text that is put next to a mark of a loop. -/
lemma flat_inline_mark (hspan : span ∈ Loop.spans (Text.ofLines (Loop.blankCode lines start)))
    {m : Nat} (hm : m ∈ span.marks) (k : Nat) (text : Text) :
    (Edit.inline (FlatText.locate ⟨Loop.blankCode lines start, start⟩ m).line
      ((FlatText.locate ⟨Loop.blankCode lines start, start⟩ m).column + k) text).flat
        (Loop.blankCode lines start) start = (m + k, text) := by
  obtain ⟨n, l, column, -, -, heq, hlocate⟩ := exists_locate_mark hspan hm
  rw [hlocate, Edit.flat, Nat.add_sub_cancel_left, heq, Nat.add_assoc]

/-- What an edit puts into the code. -/
def flatInCode (lines : List Text) (start : Nat) (e : Edit) : Nat × Text :=
  (e.inCode fun n => Comment.isOpenAfter false (lines.take n)).flat (Loop.blankCode lines start) start

/-- A closing brace adjoins its loop. -/
lemma adjoins_of_closeBody
    (hspan : span ∈ Loop.spans (Text.ofLines (Loop.blankCode lines start))) :
    (∀ e ∈ closeBody (Loop.ofSpan ⟨Loop.blankCode lines start, start⟩ span index),
        Adjoins lines start span e) ∧
      (closeBody (Loop.ofSpan ⟨Loop.blankCode lines start, start⟩ span index)).map
        (flatInCode lines start) = (span.bodyEnd.map fun m => (m + 1, " \x7d".toList)).toList := by
  rw [closeBody, Loop.ofSpan]
  cases hend : span.bodyEnd with
  | none => exact ⟨fun e he => absurd he (by simp), rfl⟩
  | some m =>
    have htail : span.IsTail m := .inr (.inr hend)
    constructor
    · intro e he
      obtain rfl := List.mem_singleton.mp he
      exact adjoins_behind hspan ⟨⟨[' '], '}', [], rfl, by simp, rfl⟩, .inr rfl⟩ htail rfl
    · exact congrArg (fun x => [x]) (flat_inline_mark hspan htail.mem_marks 1 _)

/-- A block that is opened in front of the end of a loop, and closed there if the end is known. -/
lemma nests_closeBody (hspan : span ∈ Loop.spans (Text.ofLines (Loop.blankCode lines start)))
    {o : Nat} (ho : ∀ m ∈ span.bodyEnd, o ≤ m) (hdelta : Text.braceDelta text = 1) :
    Edit.Nests ((o, text) :: (closeBody (Loop.ofSpan ⟨Loop.blankCode lines start, start⟩ span
      index)).map (flatInCode lines start)) := by
  rw [(adjoins_of_closeBody hspan).2]
  cases hend : span.bodyEnd with
  | none => exact Edit.nests_singleton (by omega)
  | some m => exact Edit.nests_pair (Nat.lt_succ_of_le (ho m hend)) hdelta rfl

/-- What closes no block as a text of lines closes none as a text of the code. -/
lemma brace_not_mem_flatInCode {e : Edit} (h : '}' ∉ e.text) :
    '}' ∉ (flatInCode lines start e).2 := by
  have hline : ∀ (inBlock : Bool) {t : Text}, '}' ∉ t → '}' ∉ (Comment.blankLine inBlock t).1 := by
    intro inBlock t ht hmem
    rcases Comment.mem_blankLine hmem with hspace | hmem
    · exact absurd hspace (by decide)
    · exact ht hmem
  cases e with
  | inline line column text => exact h
  | lineBefore line text =>
    exact fun hmem => (List.mem_append.mp hmem).elim (hline _ h) (by decide)
  | lineAfter line text =>
    exact fun hmem => (List.mem_cons.mp hmem).elim (by decide) (hline _ h)

/-- An edit that closes no block. -/
lemma nests_of_not_mem {e : Edit} (h : '}' ∉ e.text) :
    Edit.Nests [flatInCode lines start e] := by
  refine Edit.nests_singleton (t := (flatInCode lines start e).2) ?_
  have hnone : (flatInCode lines start e).2.count '}' = 0 :=
    List.count_eq_zero.mpr (brace_not_mem_flatInCode h)
  unfold Text.braceDelta
  omega

variable {edits : List Edit} {cap : Int}

/-- The edits that declare a counter adjoin the loop, and close what they open behind it. -/
lemma adjoins_of_counterEdits
    (hspan : span ∈ Loop.spans (Text.ofLines (Loop.blankCode lines start)))
    (h : counterEdits {} lines (Comment.strip lines)
      (Loop.ofSpan ⟨Loop.blankCode lines start, start⟩ span index) = .ok edits) :
    (∀ e ∈ edits, Adjoins lines start span e) ∧
      Edit.Nests (edits.map (flatInCode lines start)) := by
  set loop := Loop.ofSpan ⟨Loop.blankCode lines start, start⟩ span index with hloop
  have hstatement := isStatement_declaration loop
  have hbrace := brace_not_mem_declaration loop
  have hbehind : IsBound (declaration {} loop ++ [' ']) :=
    hstatement.isBound hbrace List.not_mem_nil rfl
  obtain ⟨htrue, -⟩ := Loop.isTrue_of_mem_spans hspan
  obtain ⟨source, -, h⟩ := bind_eq_ok_iff.mp h
  have hkeyword : loop.keyword = some (FlatText.locate ⟨Loop.blankCode lines start, start⟩
    span.keyword) := rfl
  dsimp only at h
  rw [hkeyword, Option.getD_some] at h
  split at h
  · obtain rfl := Except.ok.inj h
    rw [List.append_assoc]
    constructor
    · rintro e (_ | ⟨_, he⟩)
      · exact adjoins_inFront hspan (hstatement.isBound hbrace (by decide) rfl) rfl
      · exact (adjoins_of_closeBody hspan).1 e he
    · have hhead : flatInCode lines start (.inline
          (FlatText.locate ⟨Loop.blankCode lines start, start⟩ span.keyword).line
          (FlatText.locate ⟨Loop.blankCode lines start, start⟩ span.keyword).column
          ("\x7b ".toList ++ (declaration {} loop ++ " ".toList))) =
            (span.keyword, "\x7b ".toList ++ (declaration {} loop ++ " ".toList)) :=
        flat_inline_mark hspan (LoopSpan.mem_marks_iff.mpr (.inl rfl)) 0 _
      rw [List.map_cons, hhead]
      refine nests_closeBody hspan (fun m hm => ?_) ?_
      · have := htrue.keyword_lt
        have := (htrue.bodyEnd m hm).1
        omega
      · rw [Text.braceDelta_append, Text.braceDelta_append, braceDelta_declaration]
        rfl
  · obtain ⟨code, hcode, h⟩ := bind_eq_ok_iff.mp h
    split at h
    · obtain rfl := Except.ok.inj h
      refine ⟨fun e he => ?_, nests_of_not_mem ?_⟩
      · obtain rfl := List.mem_singleton.mp he
        exact adjoins_inFront hspan hbehind rfl
      · exact fun hmem => (List.mem_append.mp hmem).elim hbrace (by decide)
    · rename_i hblank
      obtain rfl := Except.ok.inj h
      have hline : IsBound (Text.indent source ++ declaration {} loop) := by
        simpa using hstatement.isBound hbrace (brace_not_mem_indent source)
          (rfl : Text.isBlankOnly [] = true)
      refine ⟨fun e he => ?_, nests_of_not_mem ?_⟩
      · obtain rfl := List.mem_singleton.mp he
        exact adjoins_above hspan hline rfl hcode (by simpa using hblank)
      · exact fun hmem => (List.mem_append.mp hmem).elim (brace_not_mem_indent source) hbrace

/-- The edits that guard a loop adjoin it, and close what they open behind it. -/
lemma adjoins_of_guardEdits
    (hspan : span ∈ Loop.spans (Text.ofLines (Loop.blankCode lines start))) (hcap : 0 ≤ cap)
    (h : guardEdits {} lines (Comment.strip lines)
      (Loop.ofSpan ⟨Loop.blankCode lines start, start⟩ span index) cap = .ok edits) :
    (∀ e ∈ edits, Adjoins lines start span e) ∧
      Edit.Nests (edits.map (flatInCode lines start)) := by
  set loop := Loop.ofSpan ⟨Loop.blankCode lines start, start⟩ span index with hloop
  have hbrace := brace_not_mem_guard loop hcap
  have hbound : ∀ {front : Text}, '}' ∉ front → IsBound (front ++ guard {} loop cap) := by
    intro front hfront
    simpa using (isStatement_guard loop hcap).isBound hbrace hfront
      (rfl : Text.isBlankOnly [] = true)
  obtain ⟨htrue, -⟩ := Loop.isTrue_of_mem_spans hspan
  have hparen : loop.parenClose = some (FlatText.locate ⟨Loop.blankCode lines start, start⟩
    span.parenClose) := rfl
  rw [guardEdits, hparen] at h
  cases hopens : span.brace with
  | none =>
    have hnone : loop.brace = none := by rw [hloop, Loop.ofSpan, hopens]; rfl
    rw [hnone] at h
    obtain rfl := Except.ok.inj h
    constructor
    · rintro e (_ | ⟨_, he⟩)
      · exact adjoins_behind hspan (hbound (by decide)) (.inl rfl) rfl
      · exact (adjoins_of_closeBody hspan).1 e he
    · have hhead : flatInCode lines start (.inline
          (FlatText.locate ⟨Loop.blankCode lines start, start⟩ span.parenClose).line
          ((FlatText.locate ⟨Loop.blankCode lines start, start⟩ span.parenClose).column + 1)
          (" \x7b ".toList ++ guard {} loop cap)) =
            (span.parenClose + 1, " \x7b ".toList ++ guard {} loop cap) :=
        flat_inline_mark hspan (LoopSpan.mem_marks_iff.mpr (.inr (.inl rfl))) 1 _
      rw [List.map_cons, hhead]
      refine nests_closeBody hspan (fun m hm => (htrue.bodyEnd m hm).1) ?_
      rw [Text.braceDelta_append, braceDelta_guard loop hcap]
      rfl
  | some b =>
    have hsome : loop.brace = some (FlatText.locate ⟨Loop.blankCode lines start, start⟩ b) := by
      rw [hloop, Loop.ofSpan, hopens]
      rfl
    have htail : span.IsTail b := .inr (.inl hopens)
    rw [hsome] at h
    obtain ⟨code, hcode, h⟩ := bind_eq_ok_iff.mp h
    split at h
    · obtain rfl := Except.ok.inj h
      refine ⟨fun e he => ?_, nests_of_not_mem ?_⟩
      · obtain rfl := List.mem_singleton.mp he
        exact adjoins_behind hspan (hbound (by decide)) htail rfl
      · exact fun hmem => (List.mem_append.mp hmem).elim (by decide) hbrace
    · rename_i hblank
      obtain ⟨source, -, h⟩ := bind_eq_ok_iff.mp h
      obtain rfl := Except.ok.inj h
      have hindent : '}' ∉ Text.indent source ++ ({} : Config).indent := fun hmem =>
        (List.mem_append.mp hmem).elim (brace_not_mem_indent source) (by decide)
      refine ⟨fun e he => ?_, nests_of_not_mem ?_⟩
      · obtain rfl := List.mem_singleton.mp he
        exact adjoins_below hspan (hbound hindent) htail rfl hcode (by simpa using hblank)
      · exact fun hmem => (List.mem_append.mp hmem).elim hindent hbrace

/-- **The edits that cap loops adjoin them.** -/
lemma adjoins_of_editsFor {caps : Caps} (hcaps : ∀ entry ∈ caps, 0 ≤ entry.2)
    (h : editsFor {} lines (Comment.strip lines) caps (Loop.find lines start) = .ok edits) :
    ∀ e ∈ edits, ∃ span ∈ Loop.spans (Text.ofLines (Loop.blankCode lines start)),
      Adjoins lines start span e := by
  intro e he
  obtain ⟨loop, hloop, cap, counter, guard, hcap, hcounter, hguard, hmem⟩ :=
    exists_of_mem_editsFor h he
  obtain ⟨index, hindex⟩ := List.mem_iff_getElem?.mp hloop
  rw [Loop.getElem?_find_blankCode] at hindex
  obtain ⟨span, hspan, rfl⟩ := Option.map_eq_some_iff.mp hindex
  have hspan := List.mem_of_getElem? hspan
  rcases hmem with hmem | hmem
  · exact ⟨span, hspan, (adjoins_of_counterEdits hspan hcounter).1 e hmem⟩
  · exact ⟨span, hspan,
      (adjoins_of_guardEdits hspan (nonneg_of_capOf? hcaps hcap) hguard).1 e hmem⟩

/-- A text that is put into the code is ended, or blank inside a comment. -/
lemma Adjoins.isEnded_flat {e : Edit} (h : Adjoins lines start span e)
    (hbeside : e.IsBeside lines start) (isOpen : Nat → Bool) (ls : List Text) (first : Nat) :
    Text.IsEnded ((e.inCode isOpen).flat ls first).2 ∨
      Text.isBlankOnly ((e.inCode isOpen).flat ls first).2 = true := by
  obtain ⟨-, l, -, hcode⟩ := hbeside
  have hnewline : Text.isBlankOnly ['\n'] = true := by decide
  -- a line of its own stays as it is or is blanked
  have hline : ∀ (inBlock : Bool) (text : Text), Comment.isMarkFree text = true →
      Text.IsEnded text → Text.IsEnded (Comment.blankLine inBlock text).1 ∨
        Text.isBlankOnly (Comment.blankLine inBlock text).1 = true := by
    intro inBlock text hfree hended
    rw [Comment.blankLine_of_isMarkFree hfree]
    cases inBlock with
    | false => exact .inl (by simpa using hended)
    | true =>
      refine .inr (Text.isBlankOnly_iff.mpr fun c hc => ?_)
      obtain ⟨d, -, rfl⟩ := List.mem_map.mp hc
      exact (by decide : isBlank ' ' = true)
  cases e with
  | lineBefore line text =>
    exact Text.isEnded_or_append (hline _ text hcode.isMarkFree h.isBound.isEnded) (.inr hnewline)
  | lineAfter line text =>
    exact Text.isEnded_or_append (.inr hnewline) (hline _ text hcode.isMarkFree h.isBound.isEnded)
  | inline line column text => exact .inl h.isBound.isEnded

/-- **Capping puts nothing into a stretch.**  What stands in front of the stretch in the capped code
is ended as before. -/
theorem exists_code_of_apply {caps : Caps} {result : List Text}
    (h : apply {} lines start caps = .ok result) {front stretch rest : Text}
    (hcode : Text.ofLines (Loop.blankCode lines start) = front ++ (stretch ++ ';' :: rest))
    (hfront : front.IsEnded) (hstretch : stretch.IsStretch)
    (hink : ∃ c ∈ stretch.head?, isBlank c = false) :
    ∃ front' rest', front'.IsEnded ∧
      Text.ofLines (Loop.blankCode result start) = front' ++ (stretch ++ ';' :: rest') := by
  have hcaps := fun entry hentry => (valid_of_apply h entry hentry).2
  obtain ⟨edits, hedits, rfl⟩ := exists_edits_of_apply h
  have hbeside := isBeside_of_editsFor hcaps hedits
  have hadjoins := adjoins_of_editsFor hcaps hedits
  rw [Edit.blankCode_apply hbeside, Edit.ofLines_applyFrom fun e he => by
    obtain ⟨e, hmem, rfl⟩ := List.mem_map.mp he
    obtain ⟨span, -, hadjoin⟩ := hadjoins e hmem
    exact hadjoin.isPlaced.inCode _]
  set inserts := (Edit.byRank (edits.map (Edit.inCode fun n =>
    Comment.isOpenAfter false (lines.take n)))).map (Edit.flat (Loop.blankCode lines start) start)
    with hinserts
  obtain ⟨c, hc, hblank⟩ := hink
  obtain ⟨u, rfl⟩ : ∃ u, stretch = c :: u := List.head?_eq_some_iff.mp hc
  have hinsert : ∀ insert ∈ inserts, (Text.IsEnded insert.2 ∨ Text.isBlankOnly insert.2 = true) ∧
      ¬(front.length < insert.1 ∧ insert.1 ≤ front.length + (c :: u).length) := by
    intro insert hmem
    obtain ⟨e', he', rfl⟩ := List.mem_map.mp hmem
    obtain ⟨e, he, rfl⟩ := List.mem_map.mp ((Edit.byRank_perm _).subset he')
    obtain ⟨span, hspan, hadjoin⟩ := hadjoins e he
    refine ⟨hadjoin.isEnded_flat (hbeside e he) _ _ _, ?_⟩
    have hplace := hadjoin.isBeside
    obtain ⟨htrue, -⟩ := Loop.isTrue_of_mem_spans hspan
    rw [hcode] at hplace htrue
    rw [Edit.flat_inCode]
    have hsemi : (front ++ (c :: u ++ ';' :: rest))[front.length + (c :: u).length]? =
        some ';' := by
      rw [List.getElem?_append_right (by omega), Nat.add_sub_cancel_left,
        List.getElem?_append_right le_rfl, Nat.sub_self]
      rfl
    refine hplace.not_between (c := c) ?_ hblank (fun m hm => ?_) ?_
    · rw [List.getElem?_append_right le_rfl, Nat.sub_self]
      rfl
    · exact htrue.not_mem_stretch hfront hstretch hm.mem_marks
    · rcases htrue.keyword_not_mem (by decide) hstretch with hlt | hle
      · exact .inl hlt.le
      · refine .inr ⟨hle.lt_of_ne fun heq => ?_, ';', hsemi, by decide⟩
        have hkeyword := htrue.keyword
        rw [← heq, hsemi] at hkeyword
        exact absurd hkeyword (by decide)
  have hinside : ∀ insert ∈ inserts,
      ¬(front.length + 1 ≤ insert.1 ∧ insert.1 < front.length + 1 + u.length) := by
    intro insert hmem
    have := (hinsert insert hmem).2
    rw [List.length_cons] at this
    omega
  have hnone : Edit.textsAt inserts (front.length + 1 + u.length) = [] := by
    refine Edit.textsAt_eq_nil fun insert hmem heq => (hinsert insert hmem).2 ?_
    rw [List.length_cons]
    omega
  refine ⟨Edit.weaveFront inserts 0 front ++ (Edit.textsAt inserts front.length).flatten,
    Edit.weave inserts (front.length + 1 + u.length + 1) rest, ?_, ?_⟩
  · exact (Edit.isEnded_weaveFront (fun insert hmem => (hinsert insert hmem).1) hfront).append
      (Text.isEnded_or_flatten fun t ht => (hinsert _ (Edit.exists_of_mem_textsAt ht)).1)
  · rw [hcode, Edit.weave_append_eq, Nat.zero_add, List.cons_append, Edit.weave_cons,
      Edit.weave_append hinside, Edit.weave_cons, hnone, List.flatten_nil, List.nil_append,
      List.append_assoc, List.cons_append]

end Cap

end ShaderProbe
