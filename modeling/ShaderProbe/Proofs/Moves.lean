import Mathlib
import ShaderProbe.Proofs.LoopPass

/-!
# Moves of the loop pass

What the pass can do at a character is listed once, in `LoopScan.Runs`: it opens or closes a block,
ends statements, passes over a character, or reads a whole loop header.  Every run is one of these
(`LoopScan.runs_run`), so facts about runs are proved by induction on the moves.

Two facts hold of every run.  What the pass records about a loop when it finds it, the `core` of the
loop, is never changed (`LoopScan.Runs.exists_cores`), and the offsets that it records later lie
later in the text (`LoopScan.Runs.mem_marks`).
-/

namespace ShaderProbe

/-- The element right after a list is changed on its own. -/
lemma modify_append_length {α : Type*} (f : α → α) (l : List α) (a : α) (r : List α) :
    (l ++ a :: r).modify l.length f = l ++ f a :: r := by
  induction l with
  | nil => rfl
  | cons b l ih =>
    rw [List.cons_append, List.length_cons, List.modify_succ_cons, ih, List.cons_append]

/-! ### Texts that are read from the left -/

/-- A text is read up to an offset: what has been read is given in reverse, and the rest follows. -/
structure Text.IsReadTo (text before : Text) (o : Nat) (rest : Text) : Prop where
  eq_append : text = before.reverse ++ rest
  length_eq : before.length = o

namespace Text.IsReadTo

variable {text before rest : Text} {o : Nat}

/-- At the start nothing has been read. -/
lemma start (text : Text) : IsReadTo text [] 0 text := ⟨rfl, rfl⟩

/-- What has been read is the front of the text. -/
lemma take_eq (h : IsReadTo text before o rest) : text.take o = before.reverse := by
  rw [h.eq_append, List.take_left' (by rw [List.length_reverse, h.length_eq])]

/-- What has not been read is the rest of the text. -/
lemma drop_eq (h : IsReadTo text before o rest) : text.drop o = rest := by
  rw [h.eq_append, List.drop_left' (by rw [List.length_reverse, h.length_eq])]

/-- The next character stands at the offset. -/
lemma getElem?_eq {c : Char} (h : IsReadTo text before o (c :: rest)) : text[o]? = some c := by
  rw [← List.head?_drop, h.drop_eq, List.head?_cons]

/-- A piece of the text is read. -/
lemma append {u : Text} (h : IsReadTo text before o (u ++ rest)) :
    IsReadTo text (u.reverse ++ before) (o + u.length) rest where
  eq_append := by rw [h.eq_append, List.reverse_append, List.reverse_reverse, List.append_assoc]
  length_eq := by rw [List.length_append, List.length_reverse, h.length_eq, Nat.add_comm]

/-- A character is read. -/
lemma cons {c : Char} (h : IsReadTo text before o (c :: rest)) :
    IsReadTo text (c :: before) (o + 1) rest :=
  append (u := [c]) h

/-- A text is read with the character behind it. -/
lemma concat {u : Text} {c : Char} (h : IsReadTo text before o (u ++ c :: rest)) :
    IsReadTo text ((u ++ [c]).reverse ++ before) (o + (u ++ [c]).length) rest :=
  append (u := u ++ [c]) (by rwa [List.append_assoc, List.singleton_append])

end Text.IsReadTo

namespace LoopScan

/-! ### Ending loops -/

/-- The loops of the entries, with their bodies ended at an offset. -/
def endAll (entries : List (Nat × Int)) (last : Nat) (spans : List LoopSpan) : List LoopSpan :=
  entries.foldl (fun spans entry =>
    spans.modify entry.1 fun span => { span with bodyEnd := some last }) spans

/-- Ending loops changes the loops and the entries that wait, and nothing else. -/
lemma endBraceless_eq (scan : LoopScan) (last : Nat) :
    scan.endBraceless last =
      { scan with
        spans := endAll (scan.braceless.takeWhile fun entry => entry.2 = scan.depth) last scan.spans
        braceless := scan.braceless.dropWhile fun entry => entry.2 = scan.depth } := by
  have hfold : ∀ (entries : List (Nat × Int)) (s : LoopScan),
      entries.foldl (fun scan entry => scan.endBody entry.1 last) s =
        { s with spans := endAll entries last s.spans } := by
    intro entries
    induction entries with
    | nil => intro s; rfl
    | cons entry entries ih =>
      intro s
      rw [List.foldl_cons, ih]
      rfl
  rw [endBraceless]
  exact hfold _ _

end LoopScan

namespace LoopSpan

/-- What is known of a loop as soon as it is found: the two ends of its header, and its text. -/
def core (span : LoopSpan) : Nat × Nat × Text := (span.keyword, span.parenClose, span.headerText)

/-- The offsets that are recorded for a loop. -/
def marks (span : LoopSpan) : List Nat :=
  span.keyword :: span.parenClose :: (span.brace.toList ++ span.bodyEnd.toList)

/-- The offsets of a loop are those of its keyword, its header's end, its brace and its body's end.
-/
lemma mem_marks_iff {span : LoopSpan} {m : Nat} :
    m ∈ span.marks ↔
      m = span.keyword ∨ m = span.parenClose ∨ span.brace = some m ∨ span.bodyEnd = some m := by
  simp [marks]

/-- The end of a body adds one offset. -/
lemma mem_marks_bodyEnd {span : LoopSpan} {last m : Nat}
    (h : m ∈ ({ span with bodyEnd := some last } : LoopSpan).marks) :
    m ∈ span.marks ∨ m = last := by
  rw [mem_marks_iff] at h ⊢
  rcases h with h | h | h | h
  · exact .inl (.inl h)
  · exact .inl (.inr (.inl h))
  · exact .inl (.inr (.inr (.inl h)))
  · exact .inr (Option.some.inj h).symm

/-- A brace adds one offset. -/
lemma mem_marks_brace {span : LoopSpan} {first m : Nat}
    (h : m ∈ ({ span with brace := some first } : LoopSpan).marks) :
    m ∈ span.marks ∨ m = first := by
  rw [mem_marks_iff] at h ⊢
  rcases h with h | h | h | h
  · exact .inl (.inl h)
  · exact .inl (.inr (.inl h))
  · exact .inr (Option.some.inj h).symm
  · exact .inl (.inr (.inr (.inr h)))

/-! ### Headers -/

/-- A text that is a loop header up to the parenthesis that closes it. -/
def IsHeader (a : Text) : Prop :=
  ∃ keyword ∈ keywords, ∃ gap group : Text, Text.isBlankOnly gap = true ∧
    a = keyword ++ (gap ++ '(' :: group) ∧
    Text.closingFrom '(' ')' 1 (group ++ [')']) = some group.length

/-- A header is read in the same way whatever follows it. -/
lemma IsHeader.read {a : Text} (h : IsHeader a) (t : Text) :
    ∃ paren close, headerParen? (a ++ ')' :: t) = some paren ∧
      Text.closingParen? ((a ++ ')' :: t).drop paren) = some close ∧ paren + close = a.length := by
  obtain ⟨keyword, hmem, gap, group, hgap, rfl, hclose⟩ := h
  have hsplit : keyword ++ (gap ++ '(' :: group) ++ ')' :: t =
      keyword ++ (gap ++ '(' :: (group ++ ')' :: t)) := by
    simp
  have hdrop : (keyword ++ (gap ++ '(' :: (group ++ ')' :: t))).drop
      (keyword.length + gap.length) = '(' :: (group ++ ')' :: t) := by
    rw [← List.append_assoc, List.drop_left' (by simp)]
  have hlong := Text.closingFrom_append_of_some hclose t
  rw [List.append_assoc, List.singleton_append] at hlong
  refine ⟨keyword.length + gap.length, group.length + 1, ?_, ?_, ?_⟩
  · exact headerParen?_eq_some_iff.mpr ⟨keyword, hmem, gap, _, hgap, hsplit, rfl⟩
  · rw [hsplit, hdrop, Text.closingParen?, Text.closingFrom, if_pos rfl, Int.zero_add, hlong]
    rfl
  · simp only [List.length_append, List.length_cons]
    omega

/-- A header that closes is a header up to the parenthesis. -/
lemma exists_isHeader {t : Text} {paren close : Nat} (hparen : headerParen? t = some paren)
    (hclose : Text.closingParen? (t.drop paren) = some close) :
    ∃ a u, t = a ++ ')' :: u ∧ IsHeader a ∧ a.length = paren + close := by
  obtain ⟨keyword, hmem, gap, rest, hgap, rfl, rfl⟩ := headerParen?_eq_some_iff.mp hparen
  rw [← List.append_assoc, List.drop_left' (by simp), Text.closingParen?, Text.closingFrom,
    if_pos rfl, Int.zero_add] at hclose
  obtain ⟨n, hn, rfl⟩ := Option.map_eq_some_iff.mp hclose
  obtain ⟨group, u, rfl, rfl, hgroup⟩ := Text.exists_of_closingFrom hn
  refine ⟨keyword ++ (gap ++ '(' :: group), u, by simp, ?_, ?_⟩
  · exact ⟨keyword, hmem, gap, group, hgap, rfl, hgroup⟩
  · simp only [List.length_append, List.length_cons]
    omega

/-- A header starts with a letter of a keyword. -/
lemma IsHeader.exists_cons {a : Text} (h : IsHeader a) :
    ∃ c b, a = c :: b ∧ (c = 'f' ∨ c = 'w') := by
  obtain ⟨keyword, hmem, gap, group, -, rfl, -⟩ := h
  have hcases : keyword = "for".toList ∨ keyword = "while".toList := by
    simpa [keywords] using hmem
  rcases hcases with rfl | rfl
  · exact ⟨'f', _, rfl, .inl rfl⟩
  · exact ⟨'w', _, rfl, .inr rfl⟩

end LoopSpan

namespace LoopScan

/-- The state behind a header, by the first character that follows it. -/
def behindHeader (scan : LoopScan) (before : Text) (offset : Nat) (a : Text) (next : Option Char) :
    LoopScan :=
  if next = some ';' then scan
  else scan.addLoop offset a.length (Text.squeeze (a ++ [')'])) (LoopSpan.isBareBody before) next

/-- The pass reads a whole header. -/
lemma run_isHeader {scan : LoopScan} {before a : Text} (hstarted : scan.started = true)
    (hparens : scan.parens = 0) (hbefore : Text.startsWord before = false)
    (hheader : LoopSpan.IsHeader a) (offset : Nat) (t : Text) :
    scan.run before offset 0 (a ++ ')' :: t) =
      (scan.behindHeader before offset a (Text.trimLeft t).head?).run
        ((a ++ [')']).reverse ++ before) (offset + (a ++ [')']).length) 0 t := by
  obtain ⟨paren, close, hopens, hcloses, hlength⟩ := hheader.read t
  rw [run_closed hstarted hparens hbefore hopens hcloses hlength, behindHeader]

/-! ### Runs as lists of moves -/

/-- The pass from one state over a text to another state, move by move.  The text in front is given
in reverse. -/
inductive Runs : LoopScan → Text → Nat → Text → LoopScan → Prop
  /-- The text is over. -/
  | nil (scan : LoopScan) (before : Text) (offset : Nat) : Runs scan before offset [] scan
  /-- A block opens. -/
  | openBrace {scan last : LoopScan} {before t : Text} {offset : Nat}
      (next : Runs (scan.openBrace offset) ('{' :: before) (offset + 1) t last) :
      Runs scan before offset ('{' :: t) last
  /-- A block closes that is not the outermost one. -/
  | closeBrace {scan last : LoopScan} {before t : Text} {offset : Nat}
      (hopen : scan.started = true → 2 ≤ scan.depth)
      (next : Runs (scan.closeBrace offset) ('}' :: before) (offset + 1) t last) :
      Runs scan before offset ('}' :: t) last
  /-- The outermost block closes, and the pass ends. -/
  | lastBrace {scan : LoopScan} {before t : Text} {offset : Nat} (hstarted : scan.started = true)
      (hdepth : scan.depth ≤ 1) : Runs scan before offset ('}' :: t) (scan.closeBrace offset)
  /-- A statement ends. -/
  | semicolon {scan last : LoopScan} {before t : Text} {offset : Nat} (hparens : scan.parens = 0)
      (next : Runs (scan.endBraceless offset) (';' :: before) (offset + 1) t last) :
      Runs scan before offset (';' :: t) last
  /-- A character is passed over. -/
  | quiet {scan last : LoopScan} {before t : Text} {offset : Nat} {c : Char} (hopen : c ≠ '{')
      (hclose : c ≠ '}') (hsemi : scan.parens = 0 → c ≠ ';')
      (hloop : scan.started = true → scan.parens = 0 → Text.startsWord before = false →
        LoopSpan.headerParen? (c :: t) = none)
      (next : Runs { scan with parens := scan.parens + Text.parenDelta [c] } (c :: before)
        (offset + 1) t last) : Runs scan before offset (c :: t) last
  /-- A header never closes, and the pass ends. -/
  | unclosed {scan : LoopScan} {before t : Text} {offset paren : Nat} {c : Char}
      (hstarted : scan.started = true) (hparens : scan.parens = 0)
      (hbefore : Text.startsWord before = false)
      (hparen : LoopSpan.headerParen? (c :: t) = some paren)
      (hclose : Text.closingParen? ((c :: t).drop paren) = none) :
      Runs scan before offset (c :: t) scan
  /-- The `while (...)` at the end of a `do` statement is passed over. -/
  | doWhile {scan last : LoopScan} {before t : Text} {offset : Nat} {a : Text}
      (hstarted : scan.started = true) (hparens : scan.parens = 0)
      (hbefore : Text.startsWord before = false) (hheader : LoopSpan.IsHeader a)
      (hsemi : (Text.trimLeft t).head? = some ';')
      (next : Runs scan ((a ++ [')']).reverse ++ before) (offset + (a ++ [')']).length) t last) :
      Runs scan before offset (a ++ ')' :: t) last
  /-- A loop is found. -/
  | loop {scan last : LoopScan} {before t : Text} {offset : Nat} {a : Text}
      (hstarted : scan.started = true) (hparens : scan.parens = 0)
      (hbefore : Text.startsWord before = false) (hheader : LoopSpan.IsHeader a)
      (hsemi : (Text.trimLeft t).head? ≠ some ';')
      (next : Runs (scan.addLoop offset a.length (Text.squeeze (a ++ [')']))
          (LoopSpan.isBareBody before) (Text.trimLeft t).head?)
        ((a ++ [')']).reverse ++ before) (offset + (a ++ [')']).length) t last) :
      Runs scan before offset (a ++ ')' :: t) last

/-- The depth after a closing brace. -/
lemma closeBrace_fields (scan : LoopScan) (offset : Nat) :
    (scan.closeBrace offset).depth = scan.depth - 1 ∧
      (scan.closeBrace offset).started = scan.started ∧
      (scan.closeBrace offset).parens = scan.parens ∧
      (scan.closeBrace offset).awaiting = scan.awaiting := by
  rw [closeBrace, endBraceless_eq]
  split
  · exact ⟨rfl, rfl, rfl, rfl⟩
  · split
    · exact ⟨rfl, rfl, rfl, rfl⟩
    · exact ⟨rfl, rfl, rfl, rfl⟩

/-- **Every run is a list of moves.** -/
theorem runs_run (t : Text) : ∀ (scan : LoopScan) (before : Text) (offset : Nat),
    Runs scan before offset t (scan.run before offset 0 t) := by
  induction hn : t.length using Nat.strong_induction_on generalizing t with
  | _ n ih =>
    intro scan before offset
    cases t with
    | nil => exact .nil scan before offset
    | cons c t =>
      have hnext : ∀ (scan : LoopScan) (before : Text) (offset : Nat),
          Runs scan before offset t (scan.run before offset 0 t) :=
        ih t.length (by rw [← hn]; simp) t rfl
      by_cases hopen : c = '{'
      · subst hopen
        rw [run_openBrace]
        exact .openBrace (hnext _ _ _)
      by_cases hclose : c = '}'
      · subst hclose
        obtain ⟨hdepth, hstarted, -⟩ := closeBrace_fields scan offset
        rw [run_closeBrace, hdepth, hstarted]
        split
        · rename_i hlast
          exact .lastBrace hlast.1 (by omega)
        · rename_i hlast
          refine .closeBrace (fun h => ?_) (hnext _ _ _)
          by_contra hlt
          exact hlast ⟨h, by omega⟩
      by_cases hsemi : c = ';' ∧ scan.parens = 0
      · obtain ⟨rfl, hparens⟩ := hsemi
        rw [run_semicolon scan hparens]
        exact .semicolon hparens (hnext _ _ _)
      by_cases hloop : (scan.started = true ∧ scan.parens = 0 ∧ Text.startsWord before = false) ∧
          LoopSpan.headerParen? (c :: t) ≠ none
      · -- a header starts here, which may or may not close
        obtain ⟨⟨hstarted, hparens, hbefore⟩, hheader⟩ := hloop
        obtain ⟨paren, hparen⟩ := Option.ne_none_iff_exists'.mp hheader
        cases hclosing : Text.closingParen? ((c :: t).drop paren) with
        | none =>
          rw [run_unclosed hstarted hparens hbefore hparen hclosing]
          exact .unclosed hstarted hparens hbefore hparen hclosing
        | some close =>
          obtain ⟨a, u, hsplit, hheader, hlength⟩ := LoopSpan.exists_isHeader hparen hclosing
          rw [hsplit] at hparen hclosing hn ⊢
          have hu : u.length < n := by
            rw [← hn]
            simp only [List.length_append, List.length_cons]
            omega
          rw [run_closed hstarted hparens hbefore hparen hclosing hlength.symm]
          split
          · rename_i hnext
            exact .doWhile hstarted hparens hbefore hheader hnext (ih _ hu u rfl _ _ _)
          · rename_i hnext
            exact .loop hstarted hparens hbefore hheader hnext (ih _ hu u rfl _ _ _)
      · have hquiet : scan.started = true → scan.parens = 0 → Text.startsWord before = false →
            LoopSpan.headerParen? (c :: t) = none := by
          intro hstarted hparens hbefore
          by_contra hne
          exact hloop ⟨⟨hstarted, hparens, hbefore⟩, hne⟩
        have hends : scan.parens = 0 → c ≠ ';' := fun hparens hc => hsemi ⟨hc, hparens⟩
        rw [run_cons_quiet scan hopen hclose hends hquiet]
        exact .quiet hopen hclose hends hquiet (hnext _ _ _)

/-! ### What a run keeps -/

/-- The cores of the loops found so far. -/
def cores (scan : LoopScan) : List (Nat × Nat × Text) := scan.spans.map LoopSpan.core

/-- A change that keeps what is known of a loop. -/
lemma map_modify_eq {α β : Type*} {f : α → β} {g : α → α} (h : ∀ a, f (g a) = f a) (l : List α)
    (i : Nat) : (l.modify i g).map f = l.map f := by
  induction l generalizing i with
  | nil => cases i <;> rfl
  | cons a l ih =>
    cases i with
    | zero => rw [List.modify_zero_cons, List.map_cons, h, List.map_cons]
    | succ i => rw [List.modify_succ_cons, List.map_cons, ih, List.map_cons]

/-- Ending loops keeps their headers. -/
lemma map_core_endAll (entries : List (Nat × Int)) (last : Nat) (spans : List LoopSpan) :
    (endAll entries last spans).map LoopSpan.core = spans.map LoopSpan.core := by
  induction entries generalizing spans with
  | nil => rfl
  | cons entry entries ih =>
    rw [endAll, List.foldl_cons, ← endAll, ih]
    apply map_modify_eq
    exact fun _ => rfl

@[simp] lemma cores_endBraceless (scan : LoopScan) (offset : Nat) :
    (scan.endBraceless offset).cores = scan.cores := by
  rw [endBraceless_eq]
  exact map_core_endAll _ _ _

@[simp] lemma cores_openBrace (scan : LoopScan) (offset : Nat) :
    (scan.openBrace offset).cores = scan.cores := by
  rw [openBrace]
  split
  · rfl
  · apply map_modify_eq
    exact fun _ => rfl

@[simp] lemma cores_closeBrace (scan : LoopScan) (offset : Nat) :
    (scan.closeBrace offset).cores = scan.cores := by
  rw [closeBrace, cores_endBraceless]
  split
  · rfl
  · split
    · apply map_modify_eq
      exact fun _ => rfl
    · rfl

@[simp] lemma cores_addLoop (scan : LoopScan) (offset length : Nat) (headerText : Text)
    (bareBody : Bool) (next : Option Char) :
    (scan.addLoop offset length headerText bareBody next).cores =
      scan.cores ++ [(offset, offset + length, headerText)] := by
  rw [addLoop]
  split
  · exact List.map_append
  · exact List.map_append

/-- **A run only adds loops**, and they lie in the text that is read. -/
theorem Runs.exists_cores {scan last : LoopScan} {before t : Text} {offset : Nat}
    (h : Runs scan before offset t last) :
    ∃ new, last.cores = scan.cores ++ new ∧
      ∀ core ∈ new, offset ≤ core.1 ∧ core.1 ≤ core.2.1 := by
  have hnone : ∀ scan : LoopScan, ∀ offset : Nat,
      ∃ new, scan.cores = scan.cores ++ new ∧
        ∀ core ∈ new, offset ≤ core.1 ∧ core.1 ≤ core.2.1 :=
    fun scan offset => ⟨[], (List.append_nil _).symm,
      fun core hcore => absurd hcore List.not_mem_nil⟩
  induction h with
  | nil scan before offset => exact hnone scan offset
  | openBrace next ih =>
    obtain ⟨new, hnew, hlater⟩ := ih
    exact ⟨new, by simpa using hnew, fun core hcore => (hlater core hcore).imp_left (by omega)⟩
  | closeBrace hopen next ih =>
    obtain ⟨new, hnew, hlater⟩ := ih
    exact ⟨new, by simpa using hnew, fun core hcore => (hlater core hcore).imp_left (by omega)⟩
  | lastBrace hstarted hdepth =>
    rw [cores_closeBrace]
    exact hnone _ _
  | semicolon hparens next ih =>
    obtain ⟨new, hnew, hlater⟩ := ih
    exact ⟨new, by simpa using hnew, fun core hcore => (hlater core hcore).imp_left (by omega)⟩
  | quiet hopen hclose hsemi hloop next ih =>
    obtain ⟨new, hnew, hlater⟩ := ih
    exact ⟨new, hnew, fun core hcore => (hlater core hcore).imp_left (by omega)⟩
  | unclosed hstarted hparens hbefore hparen hclose => exact hnone _ _
  | doWhile hstarted hparens hbefore hheader hsemi next ih =>
    obtain ⟨new, hnew, hlater⟩ := ih
    exact ⟨new, hnew, fun core hcore => (hlater core hcore).imp_left (by omega)⟩
  | loop hstarted hparens hbefore hheader hsemi next ih =>
    obtain ⟨new, hnew, hlater⟩ := ih
    rw [cores_addLoop, List.append_assoc] at hnew
    refine ⟨_, hnew, fun core hcore => ?_⟩
    rcases List.mem_append.mp hcore with hcore | hcore
    · rw [List.mem_singleton.mp hcore]
      exact ⟨le_rfl, Nat.le_add_right _ _⟩
    · exact (hlater core hcore).imp_left (by omega)

/-- A changed list holds the elements of the list and the changed one. -/
lemma mem_modify {α : Type*} {f : α → α} {l : List α} {i : Nat} {a : α} (h : a ∈ l.modify i f) :
    a ∈ l ∨ ∃ b ∈ l, a = f b := by
  induction l generalizing i with
  | nil => cases i <;> exact absurd h List.not_mem_nil
  | cons b l ih =>
    cases i with
    | zero =>
      rw [List.modify_zero_cons, List.mem_cons] at h
      rcases h with rfl | h
      · exact .inr ⟨b, List.mem_cons_self, rfl⟩
      · exact .inl (List.mem_cons_of_mem b h)
    | succ i =>
      rw [List.modify_succ_cons, List.mem_cons] at h
      rcases h with rfl | h
      · exact .inl List.mem_cons_self
      · rcases ih h with h | ⟨x, hx, hfx⟩
        · exact .inl (List.mem_cons_of_mem b h)
        · exact .inr ⟨x, List.mem_cons_of_mem b hx, hfx⟩

/-- A loop after some loops have ended is a loop as it was, or ended. -/
lemma mem_endAll {entries : List (Nat × Int)} {last : Nat} {spans : List LoopSpan} {span : LoopSpan}
    (h : span ∈ endAll entries last spans) :
    ∃ old ∈ spans, span = old ∨ span = { old with bodyEnd := some last } := by
  induction entries generalizing spans with
  | nil => exact ⟨span, h, .inl rfl⟩
  | cons entry entries ih =>
    rw [endAll, List.foldl_cons, ← endAll] at h
    obtain ⟨old, hold, hspan⟩ := ih h
    rcases mem_modify hold with hmem | ⟨older, hmem, rfl⟩
    · exact ⟨old, hmem, hspan⟩
    · refine ⟨older, hmem, .inr ?_⟩
      rcases hspan with rfl | rfl <;> rfl

/-- A loop after a statement has ended. -/
lemma mem_endBraceless {scan : LoopScan} {offset : Nat} {span : LoopSpan}
    (h : span ∈ (scan.endBraceless offset).spans) :
    ∃ old ∈ scan.spans, span = old ∨ span = { old with bodyEnd := some offset } := by
  rw [endBraceless_eq] at h
  exact mem_endAll h

/-- A loop after a block has closed. -/
lemma mem_closeBrace {scan : LoopScan} {offset : Nat} {span : LoopSpan}
    (h : span ∈ (scan.closeBrace offset).spans) :
    ∃ old ∈ scan.spans, span = old ∨ span = { old with bodyEnd := some offset } := by
  rw [closeBrace] at h
  obtain ⟨old, hold, hspan⟩ := mem_endBraceless h
  split at hold
  · exact ⟨old, hold, hspan⟩
  · split at hold
    · rcases mem_modify hold with hmem | ⟨older, hmem, rfl⟩
      · exact ⟨old, hmem, hspan⟩
      · refine ⟨older, hmem, .inr ?_⟩
        rcases hspan with rfl | rfl <;> rfl
    · exact ⟨old, hold, hspan⟩

/-- A loop after a block has opened. -/
lemma mem_openBrace {scan : LoopScan} {offset : Nat} {span : LoopSpan}
    (h : span ∈ (scan.openBrace offset).spans) :
    ∃ old ∈ scan.spans, span = old ∨ span = { old with brace := some offset } := by
  rw [openBrace] at h
  split at h
  · exact ⟨span, h, .inl rfl⟩
  · rcases mem_modify h with hmem | ⟨old, hmem, rfl⟩
    · exact ⟨span, hmem, .inl rfl⟩
    · exact ⟨old, hmem, .inr rfl⟩

/-- A loop after one has been found. -/
lemma mem_addLoop {scan : LoopScan} {offset length : Nat} {headerText : Text} {bareBody : Bool}
    {next : Option Char} {span : LoopSpan}
    (h : span ∈ (scan.addLoop offset length headerText bareBody next).spans) :
    span ∈ scan.spans ∨
      span = { keyword := offset, parenClose := offset + length, headerText, bareBody } := by
  have hspans : (scan.addLoop offset length headerText bareBody next).spans =
      scan.spans ++
        [{ keyword := offset, parenClose := offset + length, headerText, bareBody }] := by
    rw [addLoop]
    split <;> rfl
  rw [hspans, List.mem_append, List.mem_singleton] at h
  exact h

/-- **The offsets that a run records lie in the text that is read.** -/
theorem Runs.mem_marks {scan last : LoopScan} {before t : Text} {offset : Nat}
    (h : Runs scan before offset t last) : ∀ span ∈ last.spans, ∀ m ∈ span.marks,
      (∃ old ∈ scan.spans, m ∈ old.marks) ∨ offset ≤ m := by
  induction h with
  | nil scan before offset => exact fun span hspan m hm => .inl ⟨span, hspan, hm⟩
  | openBrace next ih =>
    intro span hspan m hm
    rcases ih span hspan m hm with ⟨old, hold, hm⟩ | hm
    · obtain ⟨older, holder, rfl | rfl⟩ := mem_openBrace hold
      · exact .inl ⟨old, holder, hm⟩
      · exact (LoopSpan.mem_marks_brace hm).imp (fun hm => ⟨older, holder, hm⟩) Eq.ge
    · exact .inr (by omega)
  | closeBrace hopen next ih =>
    intro span hspan m hm
    rcases ih span hspan m hm with ⟨old, hold, hm⟩ | hm
    · obtain ⟨older, holder, rfl | rfl⟩ := mem_closeBrace hold
      · exact .inl ⟨old, holder, hm⟩
      · exact (LoopSpan.mem_marks_bodyEnd hm).imp (fun hm => ⟨older, holder, hm⟩) Eq.ge
    · exact .inr (by omega)
  | lastBrace hstarted hdepth =>
    intro span hspan m hm
    obtain ⟨old, hold, rfl | rfl⟩ := mem_closeBrace hspan
    · exact .inl ⟨span, hold, hm⟩
    · exact (LoopSpan.mem_marks_bodyEnd hm).imp (fun hm => ⟨old, hold, hm⟩) Eq.ge
  | semicolon hparens next ih =>
    intro span hspan m hm
    rcases ih span hspan m hm with ⟨old, hold, hm⟩ | hm
    · obtain ⟨older, holder, rfl | rfl⟩ := mem_endBraceless hold
      · exact .inl ⟨old, holder, hm⟩
      · exact (LoopSpan.mem_marks_bodyEnd hm).imp (fun hm => ⟨older, holder, hm⟩) Eq.ge
    · exact .inr (by omega)
  | quiet hopen hclose hsemi hloop next ih =>
    intro span hspan m hm
    exact (ih span hspan m hm).imp_right fun hm => by omega
  | unclosed hstarted hparens hbefore hparen hclose =>
    exact fun span hspan m hm => .inl ⟨span, hspan, hm⟩
  | doWhile hstarted hparens hbefore hheader hsemi next ih =>
    intro span hspan m hm
    exact (ih span hspan m hm).imp_right fun hm => by omega
  | loop hstarted hparens hbefore hheader hsemi next ih =>
    intro span hspan m hm
    rcases ih span hspan m hm with ⟨old, hold, hm⟩ | hm
    · rcases mem_addLoop hold with hold | rfl
      · exact .inl ⟨old, hold, hm⟩
      · rcases LoopSpan.mem_marks_iff.mp hm with rfl | rfl | hb | he
        · exact .inr le_rfl
        · exact .inr (Nat.le_add_right _ _)
        · exact absurd hb (by simp)
        · exact absurd he (by simp)
    · exact .inr (by omega)

end LoopScan

end ShaderProbe
