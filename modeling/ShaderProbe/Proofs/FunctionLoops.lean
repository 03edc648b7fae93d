import Mathlib
import ShaderProbe.Proofs.Comment
import ShaderProbe.Proofs.PassageLoops
import ShaderProbe.Proofs.Position

/-!
# The loops of a function

The loops that are found in a function are the loops of its syntax tree, at the positions that the
tree gives them, and the loops around an expression statement are its ancestors in the tree
(`FunctionText.find_and_enclosing`).

The text of the function is free of comments; what comes before and after it is not restricted.
That a place lies in the body of a loop is decided by positions.  Here it is first decided by
offsets (`LoopSpan.encloses`), where the loops of a phrase lie inside the phrase and the loops of
two neighbouring phrases lie apart.
-/

namespace ShaderProbe

namespace LoopSpan

/-! ### Bodies, by offsets -/

/-- The offset lies in the body of the loop.  A body without braces includes its last character. -/
def encloses (span : LoopSpan) (offset : Nat) : Bool :=
  match span.brace, span.bodyEnd with
  | some brace, some last => decide (brace < offset) && decide (offset < last)
  | none, some last => decide (span.parenClose < offset) && decide (offset ≤ last)
  | some brace, none => decide (brace < offset)
  | none, none => decide (span.parenClose < offset)

/-- The loop and the whole of its body lie between two offsets. -/
structure IsWithin (start stop : Nat) (span : LoopSpan) : Prop where
  keyword : start ≤ span.keyword
  parenClose : span.keyword < span.parenClose
  brace : ∀ brace ∈ span.brace, span.parenClose < brace ∧ brace < stop
  bodyEnd : ∃ last, span.bodyEnd = some last ∧ span.parenClose < last ∧ last < stop

/-- A loop that lies between two offsets lies between offsets farther apart. -/
lemma IsWithin.mono {start stop start' stop' : Nat} {span : LoopSpan} (h : IsWithin start stop span)
    (hstart : start' ≤ start) (hstop : stop ≤ stop') : IsWithin start' stop' span where
  keyword := hstart.trans h.keyword
  parenClose := h.parenClose
  brace := fun brace hbrace =>
    ⟨(h.brace brace hbrace).1, Nat.lt_of_lt_of_le (h.brace brace hbrace).2 hstop⟩
  bodyEnd := by
    obtain ⟨last, hlast, hparen, hlt⟩ := h.bodyEnd
    exact ⟨last, hlast, hparen, Nat.lt_of_lt_of_le hlt hstop⟩

/-- A loop encloses no offset outside of where it lies. -/
lemma IsWithin.bounds_of_encloses {start stop offset : Nat} {span : LoopSpan}
    (h : IsWithin start stop span) (henc : span.encloses offset = true) :
    start < offset ∧ offset < stop := by
  obtain ⟨last, hlast, -, hlt⟩ := h.bodyEnd
  have hkeyword := h.keyword
  have hparen := h.parenClose
  rw [encloses, hlast] at henc
  cases hbrace : span.brace with
  | none =>
    simp only [hbrace, Bool.and_eq_true, decide_eq_true_eq] at henc
    omega
  | some brace =>
    have := (h.brace brace hbrace).1
    simp only [hbrace, Bool.and_eq_true, decide_eq_true_eq] at henc
    omega

/-- The numbers of the loops that enclose an offset, if `count` loops come before the given ones. -/
def around (spans : List LoopSpan) (count offset : Nat) : List Nat :=
  ((spans.zipIdx count).filter fun entry => entry.1.encloses offset).map Prod.snd

/-- The loops of two lists are looked at one list after the other. -/
lemma around_append (spans spans' : List LoopSpan) (count offset : Nat) :
    around (spans ++ spans') count offset =
      around spans count offset ++ around spans' (count + spans.length) offset := by
  rw [around, List.zipIdx_append, List.filter_append, List.map_append, ← around, ← around]

/-- A loop that encloses an offset is counted. -/
lemma around_cons {span : LoopSpan} {offset : Nat} (h : span.encloses offset = true)
    (spans : List LoopSpan) (count : Nat) :
    around (span :: spans) count offset = count :: around spans (count + 1) offset := by
  rw [around, List.zipIdx_cons, List.filter_cons, if_pos h, List.map_cons, ← around]

/-- Loops that lie elsewhere enclose no offset. -/
lemma around_eq_nil {spans : List LoopSpan} {start stop : Nat}
    (hspans : ∀ span ∈ spans, IsWithin start stop span) {offset : Nat}
    (hoffset : offset ≤ start ∨ stop ≤ offset) (count : Nat) : around spans count offset = [] := by
  rw [around, List.map_eq_nil_iff, List.filter_eq_nil_iff]
  intro entry hentry henc
  have := (hspans entry.1 (List.fst_mem_of_mem_zipIdx hentry)).bounds_of_encloses henc
  omega

end LoopSpan

namespace Phrase

/-! ### Where the loops and the statements of a phrase lie -/

/-- A statement is not empty. -/
lemma length_render_pos {b : Bool} (s : Phrase (.statement b)) : 0 < s.render.length := by
  obtain ⟨u, c, hu, -⟩ := s.toPassage.exists_render_eq_append
  rw [← s.render_toPassage, hu, List.length_append]
  exact Nat.succ_pos _

/-- The brace of a block lies inside it. -/
lemma brace?_bounds {kind : PhraseKind} (s : Phrase kind) (start brace : Nat)
    (h : brace ∈ s.brace? start) : start ≤ brace ∧ brace < start + s.render.length := by
  cases s with
  | block gap body close =>
    rw [brace?, Option.mem_some_iff] at h
    simp only [render, List.length_append, List.length_cons]
    omega
  | expression e => exact absurd h (by simp [brace?])
  | ifThen gap paren condition body => exact absurd h (by simp [brace?])
  | ifElse gap paren condition yes otherwise no => exact absurd h (by simp [brace?])
  | loop gap keyword paren group body => exact absurd h (by simp [brace?])
  | doWhile gap body tail paren condition close => exact absurd h (by simp [brace?])
  | nil => exact absurd h (by simp [brace?])
  | cons first rest => exact absurd h (by simp [brace?])

/-- A header is a word, blanks and a group in parentheses. -/
lemma length_header (word : Text) (paren : Gap) (group : Group) :
    (header word paren group).length =
      word.length + paren.text.length + group.text.length + 2 := by
  simp only [header, List.length_append, List.length_cons, List.length_nil]
  omega

/-- The loops of a phrase lie inside it. -/
theorem isWithin_spans {kind : PhraseKind} (s : Phrase kind) (start : Nat) (bare : Bool) :
    ∀ span ∈ s.spans start bare, span.IsWithin start (start + s.render.length) := by
  induction s generalizing start bare with
  | expression e => exact fun span h => absurd h (by simp [spans])
  | nil => exact fun span h => absurd h (by simp [spans])
  | block gap body close ih =>
    intro span h
    refine (ih _ _ span h).mono (by omega) ?_
    simp only [render, List.length_append, List.length_cons]
    omega
  | ifThen gap paren condition body ih =>
    intro span h
    refine (ih _ _ span h).mono (by omega) ?_
    simp only [render, List.length_append]
    omega
  | ifElse gap paren condition yes otherwise no ihyes ihno =>
    intro span h
    rcases List.mem_append.mp h with h | h
    · refine (ihyes _ _ span h).mono (by omega) ?_
      simp only [render, List.length_append]
      omega
    · refine (ihno _ _ span h).mono (by omega) ?_
      simp only [render, List.length_append]
      omega
  | doWhile gap body tail paren condition close ih =>
    intro span h
    refine (ih _ _ span h).mono (by omega) ?_
    simp [render]
    omega
  | cons first rest ihfirst ihrest =>
    intro span h
    rcases List.mem_append.mp h with h | h
    · refine (ihfirst _ _ span h).mono le_rfl ?_
      simp only [render, List.length_append]
      omega
    · refine (ihrest _ _ span h).mono (by omega) ?_
      simp only [render, List.length_append]
      omega
  | loop gap keyword paren group body ih =>
    intro span h
    have hbody := body.length_render_pos
    have hheader := length_header keyword.text paren group
    have hkeyword : 0 < keyword.text.length := by cases keyword <;> decide
    simp only [spans, List.mem_cons] at h
    rcases h with rfl | h
    · simp only [render, List.length_append]
      refine ⟨?_, ?_, fun brace hbrace => ?_, _, rfl, ?_, ?_⟩
      · exact Nat.le_add_right _ _
      · dsimp only
        omega
      · have := body.brace?_bounds _ brace hbrace
        dsimp only
        omega
      · dsimp only
        omega
      · omega
    · refine (ih _ _ span h).mono (by omega) ?_
      simp only [render, List.length_append]
      omega

/-- The expression statements of a phrase lie inside it. -/
lemma sites_bounds {kind : PhraseKind} (s : Phrase kind) (start count : Nat) (outer : List Nat) :
    ∀ site ∈ s.sites start count outer, start ≤ site.1 ∧ site.1 < start + s.render.length := by
  induction s generalizing start count outer with
  | nil => exact fun site h => absurd h (by simp [sites])
  | expression e =>
    intro site h
    rw [sites, List.mem_singleton] at h
    simp only [h, render, List.length_append, List.length_singleton]
    omega
  | block gap body close ih =>
    intro site h
    have := ih _ _ _ site h
    simp only [render, List.length_append, List.length_cons]
    omega
  | ifThen gap paren condition body ih =>
    intro site h
    have := ih _ _ _ site h
    simp only [render, List.length_append] at *
    omega
  | ifElse gap paren condition yes otherwise no ihyes ihno =>
    intro site h
    rcases List.mem_append.mp h with h | h
    · have := ihyes _ _ _ site h
      simp only [render, List.length_append] at *
      omega
    · have := ihno _ _ _ site h
      simp only [render, List.length_append] at *
      omega
  | loop gap keyword paren group body ih =>
    intro site h
    have := ih _ _ _ site h
    simp only [render, List.length_append] at *
    omega
  | doWhile gap body tail paren condition close ih =>
    intro site h
    have := ih _ _ _ site h
    simp [render]
    omega
  | cons first rest ihfirst ihrest =>
    intro site h
    rcases List.mem_append.mp h with h | h
    · have := ihfirst _ _ _ site h
      simp only [render, List.length_append]
      omega
    · have := ihrest _ _ _ site h
      simp only [render, List.length_append]
      omega

/-- A loop encloses the expression statements of its body. -/
lemma encloses_of_mem_sites {b : Bool} (s : Phrase (.statement b)) {start : Nat}
    (hstart : 0 < start)
    {count : Nat} {outer : List Nat} {site : Nat × List Nat} (h : site ∈ s.sites start count outer)
    (keyword : Nat) (headerText : Text) (bare : Bool) :
    LoopSpan.encloses ⟨keyword, start - 1, headerText, bare, s.brace? start,
      some (start + s.render.length - 1)⟩ site.1 = true := by
  have hbounds := s.sites_bounds start count outer site h
  cases hbrace : s.brace? start with
  | none =>
    simp only [LoopSpan.encloses, Bool.and_eq_true, decide_eq_true_eq]
    omega
  | some brace =>
    cases s with
    | block gap body close =>
      rw [brace?, Option.some.injEq] at hbrace
      have hinner := body.sites_bounds _ count outer site h
      simp only [LoopSpan.encloses, Bool.and_eq_true, decide_eq_true_eq, render, List.length_append,
        List.length_cons, List.length_nil] at *
      omega
    | expression e => exact absurd hbrace (by simp [brace?])
    | ifThen gap paren condition body => exact absurd hbrace (by simp [brace?])
    | ifElse gap paren condition yes otherwise no => exact absurd hbrace (by simp [brace?])
    | loop gap keyword paren group body => exact absurd hbrace (by simp [brace?])
    | doWhile gap body tail paren condition close => exact absurd hbrace (by simp [brace?])

/-- The loops of a phrase that enclose an expression statement are its ancestors. -/
theorem sites_eq_around {kind : PhraseKind} (s : Phrase kind) (start count : Nat) (bare : Bool)
    (outer : List Nat) : ∀ site ∈ s.sites start count outer,
      site.2 = outer ++ LoopSpan.around (s.spans start bare) count site.1 := by
  induction s generalizing start count bare outer with
  | nil => exact fun site h => absurd h (by simp [sites])
  | expression e =>
    intro site h
    rw [sites, List.mem_singleton] at h
    simp [h, spans, LoopSpan.around]
  | block gap body close ih => exact fun site h => ih _ _ _ _ site h
  | ifThen gap paren condition body ih => exact fun site h => ih _ _ _ _ site h
  | doWhile gap body tail paren condition close ih => exact fun site h => ih _ _ _ _ site h
  | ifElse gap paren condition yes otherwise no ihyes ihno =>
    intro site h
    rw [spans, LoopSpan.around_append]
    rcases List.mem_append.mp h with h | h
    · have hbounds := yes.sites_bounds _ _ _ site h
      rw [ihyes _ _ true _ site h, LoopSpan.around_eq_nil (no.isWithin_spans _ _), List.append_nil]
      left
      simp only [List.length_append] at *
      omega
    · have hbounds := no.sites_bounds _ _ _ site h
      rw [ihno _ _ true _ site h, LoopSpan.around_eq_nil (yes.isWithin_spans _ _), List.nil_append]
      right
      simp only [List.length_append] at *
      omega
  | cons first rest ihfirst ihrest =>
    intro site h
    rw [spans, LoopSpan.around_append]
    rcases List.mem_append.mp h with h | h
    · have hbounds := first.sites_bounds _ _ _ site h
      rw [ihfirst _ _ false _ site h, LoopSpan.around_eq_nil (rest.isWithin_spans _ _),
        List.append_nil]
      left
      omega
    · have hbounds := rest.sites_bounds _ _ _ site h
      rw [ihrest _ _ false _ site h, LoopSpan.around_eq_nil (first.isWithin_spans _ _),
        List.nil_append]
      right
      omega
  | loop gap keyword paren group body ih =>
    intro site h
    have hinside : 0 < start + (gap.text ++ header keyword.text paren group).length := by
      rw [List.length_append, length_header]
      omega
    rw [ih _ _ true _ site h, List.append_assoc]
    simp only [spans]
    rw [LoopSpan.around_cons (body.encloses_of_mem_sites hinside h _ _ _)]
    rfl

end Phrase

/-! ### From offsets to positions -/

/-- The positions of a loop decide as its offsets do whether a place lies in its body. -/
lemma Loop.contains_ofSpan (flat : FlatText) (span : LoopSpan) (index offset : Nat) :
    (Loop.ofSpan flat span index).contains (flat.locate offset).line
      (some (flat.locate offset).column) = span.encloses offset := by
  have hplace : (Loop.ofSpan flat span index).contains (flat.locate offset).line
      (some (flat.locate offset).column) = (Loop.ofSpan flat span index).containsPlace
        (flat.locate span.parenClose) (flat.locate offset).line (flat.locate offset).column := rfl
  rw [hplace, Loop.containsPlace, LoopSpan.encloses]
  simp only [Loop.ofSpan]
  cases span.brace <;> cases span.bodyEnd <;>
    simp only [Option.map_none, Option.map_some, FlatText.isBefore_locate, Position.isAfter_eq,
      ← decide_not, Nat.not_lt]

/-- The loops around a place, by the offsets of the loops. -/
lemma Loop.index_filter_contains (flat : FlatText) (spans : List LoopSpan) (offset : Nat) :
    ((spans.mapIdx fun index span => Loop.ofSpan flat span index).filter fun loop =>
      loop.contains (flat.locate offset).line (some (flat.locate offset).column)).map Loop.index =
        LoopSpan.around spans 0 offset := by
  rw [List.mapIdx_eq_zipIdx_map, List.filter_map, List.map_map, LoopSpan.around]
  congr 1
  refine List.filter_congr fun entry _ => ?_
  exact Loop.contains_ofSpan flat entry.1 entry.2 offset

namespace FunctionText

/-- The loops of a function lie inside its text. -/
lemma isWithin_spans (f : FunctionText) : ∀ span ∈ f.spans, span.IsWithin 0 f.render.length := by
  intro span h
  refine (f.body.isWithin_spans _ _ span h).mono (Nat.zero_le _) ?_
  simp only [render, List.length_append]
  omega

/-- A loop that lies in the common front of two texts has the same positions in both. -/
lemma ofSpan_congr {flat flat' : FlatText} {stop : Nat}
    (hflat : ∀ offset < stop, flat.locate offset = flat'.locate offset) {span : LoopSpan}
    (h : span.IsWithin 0 stop) (index : Nat) :
    Loop.ofSpan flat span index = Loop.ofSpan flat' span index := by
  obtain ⟨last, hlast, hparen, hlt⟩ := h.bodyEnd
  have hkeyword := h.parenClose
  refine Loop.ofSpan_eq ⟨hflat _ (by omega), hflat _ (by omega), rfl, rfl, ?_, ?_⟩ index
  · cases hbrace : span.brace with
    | none => exact .none
    | some brace => exact .some (hflat _ (h.brace brace hbrace).2)
  · rw [hlast]
    exact .some (hflat _ hlt)

/-- The loops of a function in a source, with the positions that the tree gives them. -/
theorem find_eq (f : FunctionText) (hsep : f.body.isSeparated = true)
    (hfree : Comment.isFree f.render = true) {before : List Text}
    (hbefore : Comment.isOpenAfter false before = false) (rest : Text) :
    Loop.find (before ++ Text.lines (f.render ++ rest)) before.length =
      f.spans.mapIdx fun index span =>
        Loop.ofSpan ⟨Text.lines (f.render ++ rest), before.length⟩ span index := by
  obtain ⟨front, hfront⟩ : ∃ front, f.render = front ++ ['}'] :=
    ⟨f.opening ++ (f.body.render ++ f.close.text), by simp [render]⟩
  have hcode : Text.ofLines (Comment.blankFrom false (Text.lines (f.render ++ rest))) =
      f.render ++ Comment.blankText rest := by
    rw [hfront] at hfree ⊢
    rw [← Comment.blankText, List.append_assoc, List.singleton_append,
      Comment.blankText_append hfree (by decide)]
    simp
  rw [Loop.find_eq, Comment.blankFrom_append, hbefore, Loop.findInCode,
    List.drop_left' (by simp)]
  simp only [FlatText.text, hcode]
  rw [f.spans_render hsep, List.mapIdx_eq_mapIdx_iff]
  intro index hindex
  refine ofSpan_congr (fun offset hoffset => ?_) (f.isWithin_spans _ (List.getElem_mem hindex)) index
  have hne : Comment.blankFrom false (Text.lines (f.render ++ rest)) ≠ [] := by
    rw [← List.length_pos_iff, Comment.length_blankFrom, List.length_pos_iff]
    exact Text.lines_ne_nil _
  rw [FlatText.locate_eq_locateFrom, FlatText.locate_eq_locateFrom]
  exact FlatText.locateFrom_eq_of_append hne (Text.lines_ne_nil _)
    (Comment.not_mem_blankFrom fun l hl => Text.not_mem_lines hl)
    (fun l hl => Text.not_mem_lines hl)
    hcode (Text.ofLines_lines _) before.length (Nat.le_of_lt hoffset)

/-- **The loops that are found in a function are those of its syntax tree.**  They are numbered in
the order of their keywords and have the positions and the flag that the tree gives them, and the
loops around an expression statement are its ancestors in the tree, outermost first. -/
theorem find_and_enclosing (f : FunctionText) (hsep : f.body.isSeparated = true)
    (hfree : Comment.isFree f.render = true) (before : List Text)
    (hbefore : Comment.isOpenAfter false before = false) (rest : Text) :
    let lines := before ++ Text.lines (f.render ++ rest)
    let flat : FlatText := { lines := Text.lines (f.render ++ rest), firstLine := before.length }
    Loop.find lines before.length =
        f.spans.mapIdx (fun index span => Loop.ofSpan flat span index) ∧
      ∀ site ∈ f.sites, (Loop.enclosing lines before.length (flat.locate site.1).line
        (some (flat.locate site.1).column)).map Loop.index = site.2 := by
  intro lines flat
  have hfind := f.find_eq hsep hfree hbefore rest
  refine ⟨hfind, fun site hsite => ?_⟩
  rw [Loop.enclosing, hfind, Loop.index_filter_contains, spans,
    f.body.sites_eq_around _ _ false _ site hsite, List.nil_append]

/-- A function with a loop without braces around a block, and a `do` statement with a loop in it. -/
def nested : FunctionText where
  head := "void f"
  isFreeOfEnds := by decide
  parameters := ⟨"int n", by decide, by decide⟩
  gap := ⟨[' '], by decide⟩
  body :=
    .cons (.loop ⟨['\n', ' '], by decide⟩ .forLoop ⟨[], rfl⟩ ⟨";i<n;", by decide, by decide⟩
      (.ifThen ⟨[], rfl⟩ ⟨[], rfl⟩ ⟨"i>2", by decide, by decide⟩
        (.block ⟨[' '], by decide⟩
          (.cons (.loop ⟨[], rfl⟩ .whileLoop ⟨[' '], by decide⟩ ⟨"b", by decide, by decide⟩
            (.expression ⟨" x++", by decide, by decide, by decide, by decide⟩)) .nil)
          ⟨[], rfl⟩))) <|
    .cons (.doWhile ⟨['\n'], by decide⟩
      (.expression ⟨" y()", by decide, by decide, by decide, by decide⟩)
      ⟨[' '], by decide⟩ ⟨[], rfl⟩ ⟨"c", by decide, by decide⟩ ⟨[], rfl⟩) .nil
  close := ⟨['\n'], by decide⟩

/-- The two loops of the function are found behind a comment, and the loop inside the block is
enclosed by both. -/
theorem find_and_enclosing_nested :
    let lines := ["// head".toList] ++ Text.lines (nested.render ++ "// tail".toList)
    let flat : FlatText :=
      { lines := Text.lines (nested.render ++ "// tail".toList), firstLine := 1 }
    nested.body.isSeparated = true ∧ Comment.isFree nested.render = true ∧
      Comment.isOpenAfter false ["// head".toList] = false ∧
      nested.spans.length = 2 ∧ nested.sites.map Prod.snd = [[0, 1], []] ∧
      Loop.find lines 1 = nested.spans.mapIdx (fun index span => Loop.ofSpan flat span index) ∧
      ∀ site ∈ nested.sites, (Loop.enclosing lines 1 (flat.locate site.1).line
        (some (flat.locate site.1).column)).map Loop.index = site.2 :=
  ⟨by decide, by decide, by decide, by decide, by decide,
    nested.find_and_enclosing (by decide) (by decide) ["// head".toList] (by decide)
      "// tail".toList⟩

end FunctionText

end ShaderProbe
