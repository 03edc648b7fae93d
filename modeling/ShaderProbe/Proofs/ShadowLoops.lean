import Mathlib
import ShaderProbe.Proofs.InertText
import ShaderProbe.Proofs.LoopFront
import ShaderProbe.Proofs.LoopsAround
import ShaderProbe.Proofs.OneEdit
import ShaderProbe.Proofs.OneLine

/-!
# The loops of a text with a shadow

Carrying a value out of loops puts two statements into the text: an assignment behind the `;` of the
target, and the declaration of the shadow in front of the outermost loop.  Nothing that stands in
front of the `;` depends on the first (`Shadow.agrees_of_assign`).  The second is an edit right in
front of a loop (`Shadow.exists_edit_of_declare`), which leaves the loops as they are, even if it
opens a block (`Loop.exists_core_weave`).
-/

namespace ShaderProbe

/-- An element is put between the elements in front of it and those behind it. -/
lemma insertIdx_eq_take_cons_drop {α : Type*} {l : List α} (a : α) {n : Nat} (h : n ≤ l.length) :
    l.insertIdx n a = l.take n ++ a :: l.drop n := by
  induction n generalizing l with
  | zero => rfl
  | succ n ih =>
    cases l with
    | nil => exact absurd h (by simp)
    | cons b l =>
      rw [List.insertIdx_succ_cons, ih (by simpa using h), List.take_succ_cons, List.drop_succ_cons,
        List.cons_append]

namespace Edit

variable {text : Text} {o : Nat} {d : Text} {span : LoopSpan}

/-- A text without loops that is put in right in front of a loop and closes no block. -/
lemma grows_singleton (hspan : span ∈ Loop.spans text) (ho : o ≤ span.keyword)
    (hblank : ∀ i, o ≤ i → i < span.keyword → ∀ c ∈ text[i]?, isBlank c = true)
    (hword : Text.startsWord (text.take o).reverse = false) (hd : LoopScan.IsInert d)
    (hdelta : 0 ≤ Text.braceDelta d) : Grows text [(o, d)] := by
  obtain ⟨htrue, -⟩ := Loop.isTrue_of_mem_spans hspan
  obtain ⟨c, hc, -⟩ := htrue.mark (LoopSpan.mem_marks_iff.mpr (.inl rfl))
  have hlt : span.keyword < text.length := (List.getElem?_eq_some_iff.mp hc).1
  have hone : ∀ insert ∈ [(o, d)], insert = (o, d) := fun insert => List.mem_singleton.mp
  refine ⟨fun insert hinsert => ?_, fun insert hinsert => ?_, fun insert hinsert => ?_,
    fun insert hinsert => ?_, fun insert hinsert => ?_, fun k => ?_,
    fun k front seg back hsegs => .inl ?_⟩
  · rw [hone insert hinsert]
    exact ho.trans hlt.le
  · rw [hone insert hinsert]
    exact hd
  · rw [hone insert hinsert]
    exact ⟨span, hspan, .inl ⟨ho, hblank⟩⟩
  · rw [hone insert hinsert]
    exact hword
  · rw [hone insert hinsert]
    -- there are only blanks between the place and the keyword
    have hinside := htrue.isInside
    rw [← Nat.add_sub_cancel' ho, List.take_add, List.mem_append] at hinside
    rcases hinside with hinside | hinside
    · exact hinside
    · obtain ⟨i, hi⟩ := List.mem_iff_getElem?.mp hinside
      have hshort := (List.getElem?_eq_some_iff.mp hi).1
      rw [List.length_take] at hshort
      rw [List.getElem?_take_of_lt (by omega), List.getElem?_drop] at hi
      exact absurd (hblank (o + i) (by omega) (by omega) '{' hi) (by decide)
  · rw [pending]
    by_cases hk : o ≤ k
    · simpa [hk] using hdelta
    · simp [hk]
  · have hmem : (k, seg) ∈ [(o, d)] := exists_of_mem_textsAt (by rw [hsegs]; simp)
    obtain ⟨-, rfl⟩ := Prod.mk.inj (hone _ hmem)
    exact hdelta

/-- Where a character is after one text has been put in. -/
lemma shift_singleton {k : Nat} (h : o ≤ k) : shift [(o, d)] k = k + d.length := by
  simp [shift, h]

end Edit

/-- A loop in front of a `;` is one of any text that starts in the same way. -/
lemma Loop.exists_core_of_front {front : Text} {i : Nat} {span : LoopSpan} (rest rest' : Text)
    (hspan : (spans (front ++ ';' :: rest))[i]? = some span)
    (hclose : span.parenClose < front.length) :
    ∃ span', (spans (front ++ ';' :: rest'))[i]? = some span' ∧ span'.core = span.core := by
  obtain ⟨common, hcommon⟩ := exists_cores_front front
  obtain ⟨new, hnew, hlater⟩ := hcommon rest
  obtain ⟨new', hnew', -⟩ := hcommon rest'
  have hcore : (common ++ new)[i]? = some span.core := by rw [← hnew, List.getElem?_map, hspan]; rfl
  have hlt : i < common.length := by
    by_contra hle
    rw [List.getElem?_append_right (by omega)] at hcore
    have := hlater _ (List.mem_of_getElem? hcore)
    simp only [LoopSpan.core] at this
    omega
  rw [List.getElem?_append_left hlt] at hcore
  have hcore' : ((spans (front ++ ';' :: rest')).map LoopSpan.core)[i]? = some span.core := by
    rw [hnew', List.getElem?_append_left hlt, hcore]
  rw [List.getElem?_map, Option.map_eq_some_iff] at hcore'
  exact hcore'

/-- A loop of a text after the text has grown. -/
lemma Loop.exists_core_of_grows {text : Text} {inserts : List (Nat × Text)} {i : Nat}
    {span : LoopSpan} (hgrows : Edit.Grows text inserts) (hspan : (spans text)[i]? = some span) :
    ∃ span', (spans (Edit.weave inserts 0 text))[i]? = some span' ∧
      span'.core = LoopScan.grown inserts span.core := by
  obtain ⟨extra, hextra, -⟩ := cores_weave hgrows
  have hgrown : ((spans (Edit.weave inserts 0 text)).map LoopSpan.core)[i]? =
      some (LoopScan.grown inserts span.core) := by
    rw [hextra, List.getElem?_append_left]
    · rw [List.getElem?_map, List.getElem?_map, hspan]
      rfl
    · simpa using (List.getElem?_eq_some_iff.mp hspan).1
  rw [List.getElem?_map, Option.map_eq_some_iff] at hgrown
  exact hgrown

/-- **A text put in front of a loop keeps the loops in front of a `;`**, whatever stands behind it.
-/
theorem Loop.exists_core_weave {front rest d : Text} {o i i₀ : Nat} {span span₀ : LoopSpan}
    (rest' : Text) (hspan₀ : (spans (front ++ ';' :: rest))[i₀]? = some span₀)
    (hclose₀ : span₀.parenClose < front.length)
    (hspan : (spans (front ++ ';' :: rest))[i]? = some span)
    (hclose : span.parenClose < front.length) (ho : o ≤ span₀.keyword) (hi : i₀ ≤ i)
    (hblank : ∀ k, o ≤ k → k < span₀.keyword → ∀ c ∈ front[k]?, isBlank c = true)
    (hword : Text.startsWord (front.take o).reverse = false) (hd : LoopScan.IsInert d)
    (hdelta : 0 ≤ Text.braceDelta d) :
    ∃ span', (spans (Edit.weave [(o, d)] 0 (front ++ ';' :: rest')))[i]? = some span' ∧
      span'.keyword = span.keyword + d.length ∧ span'.headerText = span.headerText := by
  have hkeyword : span₀.keyword ≤ span.keyword := by
    rcases Nat.lt_or_eq_of_le hi with hlt | rfl
    · have := (isTrue_of_mem_spans (List.mem_of_getElem? hspan₀)).1.keyword_lt
      have := parenClose_lt_of_lt hlt hspan₀ hspan
      omega
    · rw [Option.some.inj (hspan₀.symm.trans hspan)]
  have hfront : o ≤ front.length := by
    have := (isTrue_of_mem_spans (List.mem_of_getElem? hspan₀)).1.keyword_lt
    omega
  have hweave : ∀ rest : Text, Edit.weave [(o, d)] 0 (front ++ ';' :: rest) =
      (front.take o ++ (d ++ front.drop o)) ++ ';' :: rest := by
    intro rest
    rw [Edit.weave_singleton d (by rw [List.length_append]; omega),
      List.take_append_of_le_length hfront, List.drop_append_of_le_length hfront]
    simp
  obtain ⟨other₀, hother₀, hcore₀⟩ := exists_core_of_front rest [] hspan₀ hclose₀
  obtain ⟨other, hother, hcore⟩ := exists_core_of_front rest [] hspan hclose
  simp only [LoopSpan.core, Prod.mk.injEq] at hcore₀ hcore
  have hgrows : Edit.Grows (front ++ [';']) [(o, d)] := by
    refine Edit.grows_singleton (List.mem_of_getElem? hother₀) (by omega)
      (fun k hlow hhigh c hc => ?_) ?_ hd hdelta
    · have hlt := (isTrue_of_mem_spans (List.mem_of_getElem? hspan₀)).1.keyword_lt
      rw [List.getElem?_append_left (by omega)] at hc
      exact hblank k hlow (by omega) c hc
    · rwa [List.take_append_of_le_length hfront]
  obtain ⟨grown, hspan', hgrown⟩ := exists_core_of_grows hgrows hother
  simp only [LoopSpan.core, LoopScan.grown, Prod.mk.injEq] at hgrown
  have hlt := (isTrue_of_mem_spans (List.mem_of_getElem? hspan)).1.keyword_lt
  rw [Edit.shift_singleton (by omega), Edit.shift_singleton (by omega)] at hgrown
  rw [hweave] at hspan'
  obtain ⟨span', hspan'', hcore'⟩ := exists_core_of_front [] rest' hspan' (by
    simp only [List.length_append, List.length_take, List.length_drop]
    omega)
  simp only [LoopSpan.core, Prod.mk.injEq] at hcore'
  exact ⟨span', by rw [hweave]; exact hspan'', by omega,
    hcore'.2.2.trans (hgrown.2.2.trans hcore.2.2)⟩

namespace Shadow

/-! ### The two statements -/

/-- The assignment stands behind the `;` of its statement. -/
lemma agrees_of_assign {config : Config} {lines result : List Text} {target column : Nat}
    {assignment l : Text} (hl : lines[target]? = some l) (hcolumn : column < l.length)
    (hend : Statement.endAt config.maxStatementLines lines target = .ok (some ⟨target, column⟩))
    (h : assign config lines target assignment = .ok result) :
    Position.Agrees ⟨target, column⟩ lines result := by
  obtain ⟨line, hline, h⟩ := bind_eq_ok_iff.mp h
  obtain rfl : l = line := Option.some.inj (hl.symm.trans (lineAt_eq_ok_iff.mp hline))
  simp only [hend, bind, Except.bind] at h
  have htarget := (List.getElem?_eq_some_iff.mp hl).1
  have htake : (l.take (column + 1)).length = column + 1 := List.length_take_of_le hcolumn
  have hline : lines[target]? = some (l.take (column + 1) ++ l.drop (column + 1)) := by
    rw [List.take_append_drop, hl]
  split at h
  · obtain rfl := Except.ok.inj h
    refine ⟨(List.take_set_of_le le_rfl).symm, _, _,
      " ".toList ++ assignment ++ l.drop (column + 1), hline, ?_, htake⟩
    rw [List.getElem?_set_self htarget, insertAt, List.append_assoc (l.take (column + 1))]
  · obtain rfl := Except.ok.inj h
    refine ⟨(List.take_insertIdx_eq_take_of_le _ _ _ _ (Nat.le_succ _)).symm, _, _,
      l.drop (column + 1), hline, ?_, htake⟩
    rw [List.getElem?_insertIdx_of_lt (Nat.lt_succ_self _), hline]

/-- **The declaration is an edit in front of the loop**: right in front of its keyword, possibly
with a brace, or on a line of its own if nothing else stands in front of the keyword. -/
lemma exists_edit_of_declare {lines result marked : List Text} {loop : Loop} {column : Nat}
    {declaration l : Text} (hkeyword : loop.keyword = some ⟨loop.headerLine, column⟩)
    (hl : result[loop.headerLine]? = some l) (hcolumn : column ≤ l.length)
    (h : declare lines result loop declaration = .ok marked) :
    ∃ edit : Edit, marked = Edit.applyFrom [edit] 0 result ∧
      (edit = .inline loop.headerLine column
          ((if loop.bareBody then "\x7b ".toList else []) ++ (declaration ++ [' '])) ∨
        ∃ gap code : Text, Text.isBlankOnly gap = true ∧ loop.bareBody = false ∧
          edit = .lineBefore loop.headerLine (gap ++ declaration) ∧
          (Comment.strip lines)[loop.headerLine]? = some code ∧
          Text.isBlankOnly (code.take column) = true) := by
  have hlength := (List.getElem?_eq_some_iff.mp hl).1
  have hinline : ∀ text : Text, result.set loop.headerLine (insertAt l column text) =
      Edit.applyFrom [.inline loop.headerLine column text] 0 result := by
    intro text
    rw [@Edit.applyFrom_singleton (.inline loop.headerLine column text) result 0
      loop.headerLine l hl
      (Nat.zero_add _).symm, Nat.zero_add, Edit.applyLine_inline text hcolumn,
      List.set_eq_take_cons_drop _ hlength, insertAt, List.append_assoc, List.singleton_append]
  have hbefore : ∀ text : Text, result.insertIdx loop.headerLine text =
      Edit.applyFrom [.lineBefore loop.headerLine text] 0 result := by
    intro text
    rw [@Edit.applyFrom_singleton (.lineBefore loop.headerLine text) result 0 loop.headerLine l hl
      (Nat.zero_add _).symm, Nat.zero_add, Edit.applyLine_lineBefore,
      insertIdx_eq_take_cons_drop text hlength.le, List.drop_eq_getElem_cons hlength,
      (List.getElem?_eq_some_iff.mp hl).2]
    rfl
  obtain ⟨header, hheader, h⟩ := bind_eq_ok_iff.mp h
  simp only [hkeyword, Option.getD_some] at h
  obtain ⟨line, hline, h⟩ := bind_eq_ok_iff.mp h
  obtain rfl : l = line := Option.some.inj (hl.symm.trans (lineAt_eq_ok_iff.mp hline))
  split at h
  · rename_i hbare
    obtain rfl := Except.ok.inj h
    refine ⟨_, hinline _, .inl ?_⟩
    rw [if_pos hbare, List.append_assoc]
    rfl
  · rename_i hbare
    obtain ⟨code, hcode, h⟩ := bind_eq_ok_iff.mp h
    split at h
    · obtain rfl := Except.ok.inj h
      exact ⟨_, hinline _, .inl (by rw [if_neg hbare]; rfl)⟩
    · rename_i hblank
      obtain rfl := Except.ok.inj h
      exact ⟨_, hbefore _, .inr ⟨_, code, Text.isBlankOnly_indent header,
        Bool.eq_false_iff.mpr hbare, rfl, lineAt_eq_ok_iff.mp hcode, by simpa using hblank⟩⟩

end Shadow

end ShaderProbe
