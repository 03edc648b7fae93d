import Mathlib
import ShaderProbe.Proofs.CapEdits
import ShaderProbe.Proofs.WordCount

/-!
# The statements that count iterations

The declaration of a counter and the guard that counts an iteration, as they are written with the
default names.  Both are single statements without loops (`Cap.isInert_declaration`,
`Cap.isInert_guard`), and each of them names its own counter once and no other counter
(`Cap.countWord_declaration`, `Cap.countWord_guard`).
-/

namespace ShaderProbe

namespace Text

/-- Only digits occur in decimal text. -/
lemma isDigit_of_mem_ofNat {n : Nat} {c : Char} (h : c ∈ ofNat n) : c.isDigit = true :=
  Nat.isDigit_of_mem_toDigits (by decide) (by decide) h

/-- Only digits occur in the text of a number that is not negative. -/
lemma isDigit_of_mem_ofInt {n : Int} (hn : 0 ≤ n) {c : Char} (h : c ∈ ofInt n) :
    c.isDigit = true := by
  obtain ⟨k, rfl⟩ := Int.eq_ofNat_of_zero_le hn
  exact isDigit_of_mem_ofNat h

/-- Different numbers have different texts. -/
lemma ofNat_inj {n m : Nat} : ofNat n = ofNat m ↔ n = m := by
  refine ⟨fun h => ?_, congrArg ofNat⟩
  have hvalue := congrArg (Nat.ofDigitChars 10 · 0) h
  simpa [ofNat] using hvalue

/-- The words of a text hold its characters. -/
lemma mem_of_mem_splitOnP {t piece : Text} {c : Char}
    (hpiece : piece ∈ t.splitOnP fun c => !isWordChar c) (hc : c ∈ piece) : c ∈ t := by
  induction t generalizing piece with
  | nil =>
    rw [List.splitOnP_nil, List.mem_singleton] at hpiece
    rwa [hpiece] at hc
  | cons d t ih =>
    rw [List.splitOnP_cons_eq_if_modifyHead] at hpiece
    split at hpiece
    · rcases List.mem_cons.mp hpiece with rfl | hpiece
      · exact absurd hc List.not_mem_nil
      · exact List.mem_cons_of_mem d (ih hpiece hc)
    · cases hsplit : t.splitOnP fun c => !isWordChar c with
      | nil => exact absurd hsplit (List.splitOnP_ne_nil _ _)
      | cons first others =>
        rw [hsplit] at hpiece ih
        rcases List.mem_cons.mp hpiece with rfl | hpiece
        · rcases List.mem_cons.mp hc with rfl | hc
          · exact List.mem_cons_self
          · exact List.mem_cons_of_mem d (ih List.mem_cons_self hc)
        · exact List.mem_cons_of_mem d (ih (List.mem_cons_of_mem first hpiece) hc)

/-- A word that holds a character does not occur in a text without it. -/
lemma countWord_eq_zero {w t : Text} {c : Char} (hw : c ∈ w) (ht : c ∉ t) : countWord w t = 0 := by
  rw [countWord, List.count_eq_zero]
  exact fun hmem => ht (mem_of_mem_splitOnP hmem hw)

end Text

namespace Cap

/-- The name of the counter of a loop. -/
def counterName (index : Nat) : Text := "_dbgIter" ++ Text.ofNat index

/-- The statement that declares a counter. -/
lemma declaration_eq (loop : Loop) :
    declaration {} loop = "int ".toList ++ (counterName loop.index ++ " = 0;".toList) :=
  List.append_assoc _ _ _

/-- The statement that counts an iteration. -/
lemma guard_eq (loop : Loop) (cap : Int) :
    guard {} loop cap = "if (++".toList ++ (counterName loop.index ++ (" > ".toList ++
      (Text.ofInt cap ++ ") break;".toList))) := by
  rw [← List.append_assoc " > ".toList, ← List.append_assoc (counterName _),
    ← List.append_assoc (counterName _), ← List.append_assoc, ← List.append_assoc,
    ← List.append_assoc]
  rfl

/-! ### Characters -/

/-- The text is written with some characters and with digits. -/
def IsWritten (literal t : Text) : Prop := ∀ c ∈ t, c ∈ literal ∨ c.isDigit = true

lemma IsWritten.append {literal s t : Text} (hs : IsWritten literal s) (ht : IsWritten literal t) :
    IsWritten literal (s ++ t) := fun c hc => (List.mem_append.mp hc).elim (hs c) (ht c)

/-- Whether a text is written with some characters can be checked. -/
lemma IsWritten.of_all {literal t : Text} (h : (t.all fun c => literal.contains c) = true) :
    IsWritten literal t := fun c hc => .inl (by simpa using List.all_eq_true.mp h c hc)

/-- A text has none of the characters that it is not written with. -/
lemma IsWritten.not_mem {literal t : Text} (h : IsWritten literal t) {d : Char} (hd : d ∉ literal)
    (hdigit : d.isDigit = false) : d ∉ t := by
  intro hmem
  rcases h d hmem with hliteral | hdigits
  · exact hd hliteral
  · exact absurd (hdigits.symm.trans hdigit) (by simp)

/-- The characters of a text are none of those that it is not written with. -/
lemma IsWritten.ne {literal t : Text} (h : IsWritten literal t) {c d : Char} (hc : c ∈ t)
    (hd : d ∉ literal) (hdigit : d.isDigit = false) : c ≠ d :=
  fun heq => h.not_mem hd hdigit (heq ▸ hc)

/-- A text without parentheses opens none. -/
lemma IsWritten.parenDelta {literal t : Text} (h : IsWritten literal t) (hopen : '(' ∉ literal)
    (hclose : ')' ∉ literal) : Text.parenDelta t = 0 := by
  rw [Text.parenDelta, List.count_eq_zero.mpr (h.not_mem hopen (by decide)),
    List.count_eq_zero.mpr (h.not_mem hclose (by decide))]
  rfl

/-- A text without braces opens no block. -/
lemma IsWritten.braceDelta {literal t : Text} (h : IsWritten literal t) (hopen : '{' ∉ literal)
    (hclose : '}' ∉ literal) : Text.braceDelta t = 0 := by
  rw [Text.braceDelta, List.count_eq_zero.mpr (h.not_mem hopen (by decide)),
    List.count_eq_zero.mpr (h.not_mem hclose (by decide))]
  rfl

/-- A cap is written with digits. -/
lemma isWritten_ofInt {cap : Int} (hcap : 0 ≤ cap) (literal : Text) :
    IsWritten literal (Text.ofInt cap) := fun _ hc => .inr (Text.isDigit_of_mem_ofInt hcap hc)

/-- The characters of the name of a counter. -/
lemma isWritten_counterName {literal : Text} (h : IsWritten literal "_dbgIter".toList)
    (index : Nat) : IsWritten literal (counterName index) :=
  h.append fun _ hc => .inr (Text.isDigit_of_mem_ofNat hc)

variable {cap : Int}

/-- The characters of a declaration in front of its end. -/
lemma isWritten_declaration (index : Nat) :
    IsWritten "int _dbgIter = 0".toList
      ("int ".toList ++ (counterName index ++ " = 0".toList)) :=
  .append (.of_all (by decide +kernel)) (.append
    (isWritten_counterName (.of_all (by decide +kernel)) index) (.of_all (by decide +kernel)))

/-- The characters of a guard behind the word `if` and in front of its end. -/
lemma isWritten_guard (hcap : 0 ≤ cap) (index : Nat) :
    IsWritten " (++_dbgIter > ) break".toList (" (++".toList ++ (counterName index ++
      (" > ".toList ++ (Text.ofInt cap ++ ") break".toList)))) :=
  .append (.of_all (by decide +kernel)) (.append
    (isWritten_counterName (.of_all (by decide +kernel)) index)
    (.append (.of_all (by decide +kernel))
      (.append (isWritten_ofInt hcap _) (.of_all (by decide +kernel)))))

/-- The declaration of a counter ends with its `;`. -/
lemma declaration_eq_append (loop : Loop) :
    declaration {} loop =
      ("int ".toList ++ (counterName loop.index ++ " = 0".toList)) ++ [';'] := by
  rw [declaration_eq, List.append_assoc, List.append_assoc]
  rfl

/-- A guard starts with the word `if` and ends with its `;`. -/
lemma guard_eq_append (loop : Loop) (cap : Int) :
    guard {} loop cap = ('i' :: 'f' :: (" (++".toList ++ (counterName loop.index ++
      (" > ".toList ++ (Text.ofInt cap ++ ") break".toList))))) ++ [';'] := by
  rw [guard_eq, List.cons_append, List.cons_append, List.append_assoc, List.append_assoc,
    List.append_assoc, List.append_assoc]
  rfl

/-! ### Statements without loops -/

/-- The declaration of a counter is a statement. -/
lemma isStatement_declaration (loop : Loop) : IsStatement (declaration {} loop) := by
  rw [declaration_eq_append]
  refine ⟨fun c hc => ?_, List.getLast?_concat⟩
  rcases List.mem_append.mp hc with hc | hc
  · have hwritten := isWritten_declaration loop.index
    exact ⟨hwritten.ne hc (by decide) (by decide), hwritten.ne hc (by decide) (by decide)⟩
  · rw [List.mem_singleton.mp hc]
    decide

/-- A guard is a statement. -/
lemma isStatement_guard (loop : Loop) (hcap : 0 ≤ cap) : IsStatement (guard {} loop cap) := by
  rw [guard_eq_append]
  refine ⟨fun c hc => ?_, List.getLast?_concat⟩
  rcases List.mem_append.mp hc with hc | hc
  · rcases List.mem_cons.mp hc with rfl | hc
    · decide
    rcases List.mem_cons.mp hc with rfl | hc
    · decide
    have hwritten := isWritten_guard hcap loop.index
    exact ⟨hwritten.ne hc (by decide) (by decide), hwritten.ne hc (by decide) (by decide)⟩
  · rw [List.mem_singleton.mp hc]
    decide

/-- The declaration of a counter holds no loop. -/
lemma isInert_declaration (loop : Loop) : LoopScan.IsInert (declaration {} loop) := by
  have hwritten := isWritten_declaration loop.index
  have hstart : (Text.trimLeft (("int ".toList ++ (counterName loop.index ++ " = 0".toList)) ++
      [';'])).head? = some 'i' := by
    rw [List.append_assoc]
    rfl
  rw [declaration_eq_append]
  refine LoopScan.isInert_statement (fun c hc => ?_) (hwritten.parenDelta (by decide) (by decide))
    (fun a c b heq _ => .inr fun hb => ?_) (by rw [hstart]; decide)
  · exact ⟨hwritten.ne hc (by decide) (by decide), hwritten.ne hc (by decide) (by decide),
      hwritten.ne hc (by decide) (by decide)⟩
  · refine hwritten.not_mem (d := '(') (by decide) (by decide) ?_
    rw [heq]
    exact List.mem_append_right a (List.mem_cons_of_mem c hb)

/-- A guard holds no loop. -/
lemma isInert_guard (loop : Loop) (hcap : 0 ≤ cap) : LoopScan.IsInert (guard {} loop cap) := by
  have hwritten := isWritten_guard hcap loop.index
  have hparens : Text.parenDelta ('i' :: 'f' :: (" (++".toList ++ (counterName loop.index ++
      (" > ".toList ++ (Text.ofInt cap ++ ") break".toList))))) = 0 := by
    have hcounter : Text.parenDelta (counterName loop.index) = 0 :=
      (isWritten_counterName (fun _ hc => .inl hc) loop.index).parenDelta (by decide) (by decide)
    have hdigits : Text.parenDelta (Text.ofInt cap) = 0 :=
      (isWritten_ofInt hcap []).parenDelta (by decide) (by decide)
    rw [Text.parenDelta_cons, Text.parenDelta_cons 'f', Text.parenDelta_append,
      Text.parenDelta_append, Text.parenDelta_append, Text.parenDelta_append, hcounter, hdigits]
    decide
  rw [guard_eq_append]
  refine LoopScan.isInert_statement (fun c hc => ?_) hparens (fun a c b heq hc => ?_)
    ⟨fun h => absurd (Option.some.inj h) (by decide),
      fun h => absurd (Option.some.inj h) (by decide)⟩
  · rcases List.mem_cons.mp hc with rfl | hc
    · decide
    rcases List.mem_cons.mp hc with rfl | hc
    · decide
    exact ⟨hwritten.ne hc (by decide) (by decide), hwritten.ne hc (by decide) (by decide),
      hwritten.ne hc (by decide) (by decide)⟩
  · -- the only such character belongs to the word `if`
    rcases a with _ | ⟨d, _ | ⟨e, a⟩⟩
    · obtain ⟨rfl, -⟩ := List.cons.inj heq
      exact absurd hc (by decide)
    · obtain ⟨rfl, -⟩ := List.cons.inj heq
      exact .inl (by decide)
    · have hin := (List.cons.inj (List.cons.inj heq).2).2 ▸ hwritten
      rcases hc with rfl | rfl
      · exact absurd (List.mem_append_right a List.mem_cons_self)
          (hin.not_mem (by decide) (by decide))
      · exact absurd (List.mem_append_right a List.mem_cons_self)
          (hin.not_mem (by decide) (by decide))

/-- The declaration of a counter opens and closes no block. -/
lemma braceDelta_declaration (loop : Loop) : Text.braceDelta (declaration {} loop) = 0 := by
  rw [declaration_eq_append, Text.braceDelta_append,
    (isWritten_declaration loop.index).braceDelta (by decide) (by decide)]
  rfl

/-- A guard opens and closes no block. -/
lemma braceDelta_guard (loop : Loop) (hcap : 0 ≤ cap) :
    Text.braceDelta (guard {} loop cap) = 0 := by
  have hif : ∀ t : Text, 'i' :: 'f' :: t = ['i', 'f'] ++ t := fun _ => rfl
  rw [guard_eq_append, hif, Text.braceDelta_append, Text.braceDelta_append,
    (isWritten_guard hcap loop.index).braceDelta (by decide) (by decide)]
  rfl

/-! ### Words -/

/-- The name of a counter is not empty. -/
lemma counterName_ne_nil (index : Nat) : counterName index ≠ [] := List.cons_ne_nil _ _

/-- The name of a counter holds an underscore. -/
lemma underscore_mem_counterName (index : Nat) : '_' ∈ counterName index := List.mem_cons_self

/-- Different loops have different counters. -/
lemma counterName_inj {i index : Nat} : counterName i = counterName index ↔ i = index :=
  ⟨fun h => Text.ofNat_inj.mp (List.append_cancel_left h), congrArg counterName⟩

/-- The name of a counter is one word. -/
lemma countWord_counterName (i index : Nat) :
    Text.countWord (counterName index) (counterName i) = if i = index then 1 else 0 := by
  have hword : ∀ c ∈ counterName i, isWordChar c = true := by
    intro c hc
    rcases isWritten_counterName (fun _ hc => .inl hc) i c hc with h | h
    · exact List.all_eq_true.mp (by decide +kernel : "_dbgIter".toList.all isWordChar = true) c h
    · rw [isWordChar, Char.isAlphanum, h, Bool.or_true, Bool.true_or, Bool.true_or]
  rw [Text.countWord_of_word hword]
  exact if_congr counterName_inj rfl rfl

/-- A declaration names its own counter once. -/
lemma countWord_declaration (loop : Loop) (index : Nat) :
    Text.countWord (counterName index) (declaration {} loop) =
      if loop.index = index then 1 else 0 := by
  have hsplit : declaration {} loop =
      "int".toList ++ ' ' :: (counterName loop.index ++ ' ' :: "= 0;".toList) := declaration_eq loop
  rw [hsplit, Text.countWord_append_cons (by decide), Text.countWord_append_cons (by decide),
    countWord_counterName, Text.countWord_eq_zero (underscore_mem_counterName index) (by decide),
    Text.countWord_eq_zero (underscore_mem_counterName index) (by decide), Nat.zero_add,
    Nat.add_zero]

/-- A guard names its own counter once. -/
lemma countWord_guard (loop : Loop) (hcap : 0 ≤ cap) (index : Nat) :
    Text.countWord (counterName index) (guard {} loop cap) =
      if loop.index = index then 1 else 0 := by
  have hsplit : guard {} loop cap = "if (+".toList ++ '+' :: (counterName loop.index ++ ' ' ::
      ("> ".toList ++ (Text.ofInt cap ++ ") break;".toList))) := guard_eq loop cap
  have hrest : IsWritten "> ) break;".toList
      ("> ".toList ++ (Text.ofInt cap ++ ") break;".toList)) :=
    .append (.of_all (by decide +kernel))
      (.append (isWritten_ofInt hcap _) (.of_all (by decide +kernel)))
  rw [hsplit, Text.countWord_append_cons (by decide), Text.countWord_append_cons (by decide),
    countWord_counterName, Text.countWord_eq_zero (underscore_mem_counterName index) (by decide),
    Text.countWord_eq_zero (underscore_mem_counterName index)
      (hrest.not_mem (by decide) (by decide)), Nat.zero_add, Nat.add_zero]

end Cap

end ShaderProbe
