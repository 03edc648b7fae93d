import Mathlib
import ShaderProbe.Proofs.CapStatements
import ShaderProbe.Proofs.EditBraces
import ShaderProbe.Proofs.LoopPlaces
import ShaderProbe.Proofs.OneEdit
import ShaderProbe.Proofs.Outcome

/-!
# Capping puts text in

Loops are capped in any text, also in one that is malformed or in which a block comment is open
between two lines.  Every mark of a loop stands on a character of the code (`Loop.IsMarked`), so the
texts that are put into a line stand next to the code, and whatever is put on a line of its own
holds neither braces nor comment marks: `Cap.edits_of_counterEdits` and `Cap.edits_of_guardEdits`.

It follows that capping takes nothing away and that it opens as many blocks as it closes, except for
loops whose body has no known end (`Cap.unclosed`): `Cap.openBlocks_of_apply`.
-/

namespace ShaderProbe

/-- A character of the code stands at the place, on a line from `start` on. -/
structure Position.IsCode (lines : List Text) (start : Nat) (place : Position) : Prop where
  start_le : start ≤ place.line
  exists_char : ∃ l c, lines[place.line]? = some l ∧ isBlank c = false ∧
    (Comment.blankLine (Comment.isOpenAfter false (lines.take place.line)) l).1[place.column]? =
      some c

namespace Position

variable {lines : List Text} {start : Nat} {place : Position} {text : Text}

/-- A character of the flat code is one of the code. -/
lemma isCode_locate {m : Nat} {c : Char} (hm : (Loop.flatCode lines start)[m]? = some c)
    (hc : isBlank c = false) :
    (FlatText.locate ⟨Loop.codeFrom lines start, start⟩ m).IsCode lines start := by
  obtain ⟨n, l, column, hl, hcolumn, -, hlocate⟩ := FlatText.exists_locate_of_ink hm hc start
  have hplace : FlatText.locate ⟨Loop.codeFrom lines start, start⟩ m = ⟨start + n, column⟩ := hlocate
  rw [Loop.codeFrom, List.getElem?_drop, Comment.strip, Comment.stripFrom_eq,
    List.getElem?_map] at hl
  obtain ⟨blanked, hblanked, rfl⟩ := Option.map_eq_some_iff.mp hl
  obtain ⟨source, hsource, -, rfl⟩ := Comment.exists_source hblanked
  rw [hplace]
  exact ⟨Nat.le_add_right _ _, source, c, hsource, hc, Comment.getElem?_of_trimRight hcolumn⟩

/-- A text that is put in front of a character of the code stands next to the code. -/
lemma IsCode.inFront (h : place.IsCode lines start) (htext : Comment.IsInset text) :
    (Edit.inline place.line place.column text).IsBeside lines start := by
  obtain ⟨hstart, l, c, hl, hblank, hc⟩ := h
  refine ⟨hstart, l, hl, htext, c, ?_, .inl hc⟩
  rintro rfl
  exact absurd hblank (by decide)

/-- A text that is put behind a character of the code stands next to the code. -/
lemma IsCode.behind (h : place.IsCode lines start) (htext : Comment.IsInset text) :
    (Edit.inline place.line (place.column + 1) text).IsBeside lines start := by
  obtain ⟨hstart, l, c, hl, hblank, hc⟩ := h
  refine ⟨hstart, l, hl, htext, c, ?_, .inr ⟨_, rfl, hc⟩⟩
  rintro rfl
  exact absurd hblank (by decide)

/-- A character of the code is one of a line. -/
lemma IsCode.exists_line (h : place.IsCode lines start) :
    ∃ l, lines[place.line]? = some l ∧ place.column < l.length := by
  obtain ⟨-, l, c, hl, -, hc⟩ := h
  exact ⟨l, hl, (List.getElem?_eq_some_iff.mp hc).1.trans_le (Comment.length_blankLine_le _ l)⟩

/-- The line of a character of the code can be looked up. -/
lemma IsCode.lineAt (h : place.IsCode lines start) :
    lineAt lines place.line = .ok (lines.getD place.line []) := by
  obtain ⟨-, l, c, hl, -⟩ := h
  rw [lineAt_eq_ok_iff, List.getD_eq_getElem?_getD, hl]
  rfl

/-- The code of the line can be looked up, too. -/
lemma IsCode.exists_lineAt_strip (h : place.IsCode lines start) :
    ∃ code, ShaderProbe.lineAt (Comment.strip lines) place.line = .ok code := by
  obtain ⟨-, l, c, hl, -⟩ := h
  refine exists_lineAt ?_
  rw [Comment.length_strip]
  exact (List.getElem?_eq_some_iff.mp hl).1

/-- A quiet line is put in front of a line of the code. -/
lemma IsCode.above (h : place.IsCode lines start) (htext : Comment.IsQuiet text) :
    (Edit.lineBefore place.line text).IsBeside lines start := by
  obtain ⟨hstart, l, c, hl, -⟩ := h
  exact ⟨hstart, l, hl, htext⟩

/-- A quiet line is put behind a line of the code. -/
lemma IsCode.below (h : place.IsCode lines start) (htext : Comment.IsQuiet text) :
    (Edit.lineAfter place.line text).IsBeside lines start := by
  obtain ⟨hstart, l, c, hl, -⟩ := h
  exact ⟨hstart, l, hl, htext⟩

end Position

namespace Loop

/-- The marks of the loop are characters of the code, on lines from `start` on. -/
structure IsMarked (lines : List Text) (start : Nat) (loop : Loop) : Prop where
  keyword : ∃ place, loop.keyword = some place ∧ place.line = loop.headerLine ∧
    place.IsCode lines start
  parenClose : ∃ place, loop.parenClose = some place ∧ place.IsCode lines start
  brace : ∀ place ∈ loop.brace, place.IsCode lines start
  bodyEnd : ∀ place ∈ loop.bodyEnd, place.IsCode lines start

/-- **The marks of the loops of a function are characters of its code.** -/
theorem isMarked_of_mem_find {lines : List Text} {start : Nat} {loop : Loop}
    (h : loop ∈ find lines start) : loop.IsMarked lines start := by
  obtain ⟨index, span, hspan, rfl⟩ := exists_of_mem_find h
  obtain ⟨htrue, -⟩ := isTrue_of_mem_spans (List.mem_of_getElem? hspan)
  have hmark : ∀ m ∈ span.marks,
      (FlatText.locate ⟨codeFrom lines start, start⟩ m).IsCode lines start := by
    intro m hm
    obtain ⟨c, hc, hblank⟩ := htrue.mark hm
    exact Position.isCode_locate hc hblank
  constructor
  · exact ⟨_, rfl, rfl, hmark _ (LoopSpan.mem_marks_iff.mpr (.inl rfl))⟩
  · exact ⟨_, rfl, hmark _ (LoopSpan.mem_marks_iff.mpr (.inr (.inl rfl)))⟩
  · intro place hplace
    obtain ⟨b, hb, rfl⟩ := Option.map_eq_some_iff.mp hplace
    exact hmark b (LoopSpan.mem_marks_iff.mpr (.inr (.inr (.inl hb))))
  · intro place hplace
    obtain ⟨e, he, rfl⟩ := Option.map_eq_some_iff.mp hplace
    exact hmark e (LoopSpan.mem_marks_iff.mpr (.inr (.inr (.inr he))))

end Loop

namespace Cap

/-- The line that declares the counter of a loop, indented as the loop is. -/
def declarationLine (lines : List Text) (loop : Loop) : Text :=
  Text.indent (lines.getD loop.headerLine []) ++ declaration {} loop

/-- The line that guards a loop, indented as the body of the loop is. -/
def guardLine (lines : List Text) (loop : Loop) (cap : Int) : Text :=
  Text.indent (lines.getD loop.headerLine []) ++ ({} : Config).indent ++ guard {} loop cap

/-- The number of blocks that capping opens for a loop and does not close, because the end of the
loop is not known. -/
def unclosed (loop : Loop) : Nat :=
  if loop.bodyEnd.isSome then 0
  else (if loop.bareBody then 1 else 0) + if loop.isBraced then 0 else 1

/-- Every block is closed if the end of the loop is known or none is opened. -/
lemma unclosed_eq_zero_iff (loop : Loop) :
    unclosed loop = 0 ↔
      (loop.isBraced = false ∨ loop.bareBody = true → loop.bodyEnd.isSome = true) := by
  rw [unclosed]
  cases loop.bodyEnd <;> cases loop.bareBody <;> cases loop.isBraced <;> simp

variable {lines : List Text} {start : Nat} {loop : Loop} {cap : Int} {edits : List Edit}

/-- A statement with blanks in front of it is quiet if it holds no braces. -/
lemma isQuiet_indented {g t : Text} (hg : Text.isBlankOnly g = true) (ht : IsStatement t)
    (hbraces : ∀ d ∈ ['{', '}'], d ∉ t) : Comment.IsQuiet (g ++ t) := by
  have hquiet : Comment.IsQuiet t := Comment.isQuiet_of_not_mem (fun h => (ht.plain '/' h).1 rfl)
    (hbraces '{' (by decide)) (hbraces '}' (by decide))
  refine (Comment.isQuiet_of_isBlankOnly hg).append hquiet fun c hc d hd => ?_
  have hplain := ht.plain d (List.mem_of_head? hd)
  simp [Comment.isMark, Comment.opens, hplain]

/-- The line of a declaration is quiet. -/
lemma isQuiet_declarationLine (lines : List Text) (loop : Loop) :
    Comment.IsQuiet (declarationLine lines loop) := by
  refine isQuiet_indented (Text.isBlankOnly_indent _) (isStatement_declaration loop) fun d hd => ?_
  have hwritten := isWritten_declaration loop.index
  rw [declaration_eq_append, List.mem_append, not_or]
  fin_cases hd
  · exact ⟨hwritten.not_mem (by decide) (by decide), by decide⟩
  · exact ⟨hwritten.not_mem (by decide) (by decide), by decide⟩

/-- The line of a guard is quiet. -/
lemma isQuiet_guardLine (lines : List Text) (loop : Loop) (hcap : 0 ≤ cap) :
    Comment.IsQuiet (guardLine lines loop cap) := by
  have hindent : Text.isBlankOnly
      (Text.indent (lines.getD loop.headerLine []) ++ ({} : Config).indent) = true := by
    rw [Text.isBlankOnly, List.all_append]
    exact Bool.and_eq_true_iff.mpr ⟨Text.isBlankOnly_indent _, by decide⟩
  refine isQuiet_indented hindent (isStatement_guard loop hcap) fun d hd => ?_
  have hwritten := isWritten_guard hcap loop.index
  rw [guard_eq_append, List.mem_append, not_or, List.mem_cons, List.mem_cons, not_or, not_or]
  fin_cases hd
  · exact ⟨⟨by decide, by decide, hwritten.not_mem (by decide) (by decide)⟩, by decide⟩
  · exact ⟨⟨by decide, by decide, hwritten.not_mem (by decide) (by decide)⟩, by decide⟩

/-- The edit stands next to the code or is a given line. -/
structure Inserts (lines : List Text) (start : Nat) (own : Text) (e : Edit) : Prop where
  isBeside : e.IsBeside lines start
  own : e.rank ≠ 1 → e.text = own

/-- An edit inside a line is no line of its own. -/
lemma inserts_inline {own text : Text} {line column : Nat}
    (h : (Edit.inline line column text).IsBeside lines start) :
    Inserts lines start own (.inline line column text) :=
  ⟨h, fun hrank => absurd rfl hrank⟩

/-- A block is closed if the end of the loop is known. -/
lemma edits_of_closeBody (hloop : loop.IsMarked lines start) (own : Text) :
    (∀ e ∈ closeBody loop, Inserts lines start own e) ∧
      ((closeBody loop).map fun e => Text.braceDelta e.text).sum =
        if loop.bodyEnd.isSome then -1 else 0 := by
  rw [closeBody]
  cases hend : loop.bodyEnd with
  | none => exact ⟨fun e he => absurd he List.not_mem_nil, rfl⟩
  | some last =>
    refine ⟨fun e he => ?_, rfl⟩
    obtain rfl := List.mem_singleton.mp he
    exact inserts_inline ((hloop.bodyEnd last hend).behind (.of_plain (by simp)))

/-- A cap is one of the list. -/
lemma nonneg_of_capOf? {caps : Caps} (hcaps : ∀ entry ∈ caps, 0 ≤ entry.2)
    (h : capOf? caps loop = some cap) : 0 ≤ cap := by
  obtain ⟨entry, hentry, rfl⟩ := Option.map_eq_some_iff.mp h
  exact hcaps entry (List.mem_of_find?_eq_some hentry)

/-- **The edits that declare a counter.** -/
lemma edits_of_counterEdits (hloop : loop.IsMarked lines start)
    (h : counterEdits {} lines (Comment.strip lines) loop = .ok edits) :
    (∀ e ∈ edits, Inserts lines start (declarationLine lines loop) e) ∧
      (edits.map fun e => Text.braceDelta e.text).sum =
        if loop.bareBody ∧ loop.bodyEnd = none then 1 else 0 := by
  obtain ⟨place, hkeyword, hline, hcode⟩ := hloop.keyword
  obtain ⟨code, hlookup⟩ := hcode.exists_lineAt_strip
  obtain ⟨hclose, hsum⟩ := edits_of_closeBody hloop (declarationLine lines loop)
  have hplain : ∀ front : Text, (∀ c ∈ front, c ≠ '/' ∧ c ≠ '*') →
      ∀ c ∈ front ++ (declaration {} loop ++ [' ']), c ≠ '/' ∧ c ≠ '*' := fun front hfront =>
    (isStatement_declaration loop).plain_around hfront (by simp)
  have hdelta : ∀ front : Text,
      Text.braceDelta (front ++ (declaration {} loop ++ [' '])) = Text.braceDelta front := by
    intro front
    rw [Text.braceDelta_append, Text.braceDelta_append, braceDelta_declaration]
    exact Int.add_zero _
  rw [counterEdits, ← hline, hcode.lineAt, hkeyword] at h
  simp only [Option.getD_some, bind, Except.bind, pure, Except.pure] at h
  cases hbare : loop.bareBody with
  | true =>
    rw [hbare, if_pos rfl] at h
    obtain rfl := Except.ok.inj h
    constructor
    · rintro e (_ | ⟨_, he⟩)
      · exact inserts_inline (hcode.inFront (.of_plain <| hplain "\x7b ".toList (by simp)))
      · exact hclose e he
    · have hopen := hdelta "\x7b ".toList
      rw [List.map_cons, List.sum_cons, hsum]
      refine (congrArg (· + _) hopen).trans ?_
      cases loop.bodyEnd <;> rfl
  | false =>
    rw [hbare, if_neg (by simp), hlookup] at h
    dsimp only at h
    split at h
    · obtain rfl := Except.ok.inj h
      refine ⟨fun e he => ?_, (Int.add_zero _).trans (hdelta [])⟩
      obtain rfl := List.mem_singleton.mp he
      exact inserts_inline (hcode.inFront (.of_plain <| hplain [] (by simp)))
    · obtain rfl := Except.ok.inj h
      have hquiet := isQuiet_declarationLine lines loop
      rw [declarationLine, ← hline] at hquiet ⊢
      refine ⟨fun e he => ?_, (Int.add_zero _).trans hquiet.braceDelta⟩
      obtain rfl := List.mem_singleton.mp he
      exact ⟨hcode.above hquiet, fun _ => rfl⟩

/-- **The edits that guard a loop.** -/
lemma edits_of_guardEdits (hloop : loop.IsMarked lines start) (hcap : 0 ≤ cap)
    (h : guardEdits {} lines (Comment.strip lines) loop cap = .ok edits) :
    (∀ e ∈ edits, Inserts lines start (guardLine lines loop cap) e) ∧
      (edits.map fun e => Text.braceDelta e.text).sum =
        if loop.brace = none ∧ loop.bodyEnd = none then 1 else 0 := by
  obtain ⟨header, -, hline, hheader⟩ := hloop.keyword
  obtain ⟨close, hparen, hcode⟩ := hloop.parenClose
  obtain ⟨hclose, hsum⟩ := edits_of_closeBody hloop (guardLine lines loop cap)
  have hplain : ∀ front : Text, (∀ c ∈ front, c ≠ '/' ∧ c ≠ '*') →
      ∀ c ∈ front ++ guard {} loop cap, c ≠ '/' ∧ c ≠ '*' := by
    intro front hfront c hc
    exact (List.mem_append.mp hc).elim (hfront c) ((isStatement_guard loop hcap).plain c)
  have hdelta : ∀ front : Text,
      Text.braceDelta (front ++ guard {} loop cap) = Text.braceDelta front := by
    intro front
    rw [Text.braceDelta_append, braceDelta_guard loop hcap, Int.add_zero]
  rw [guardEdits] at h
  cases hbrace : loop.brace with
  | none =>
    rw [hbrace, hparen] at h
    obtain rfl := Except.ok.inj h
    constructor
    · rintro e (_ | ⟨_, he⟩)
      · exact inserts_inline (hcode.behind (.of_plain <| hplain " \x7b ".toList (by simp)))
      · exact hclose e he
    · have hopen := hdelta " \x7b ".toList
      rw [List.map_cons, List.sum_cons, hsum]
      refine (congrArg (· + _) hopen).trans ?_
      cases loop.bodyEnd <;> rfl
  | some brace =>
    have hopen := hloop.brace brace hbrace
    obtain ⟨code, hlookup⟩ := hopen.exists_lineAt_strip
    rw [hbrace] at h
    simp only [hlookup, bind, Except.bind, pure, Except.pure] at h
    split at h
    · obtain rfl := Except.ok.inj h
      refine ⟨fun e he => ?_, (Int.add_zero _).trans (hdelta [' '])⟩
      obtain rfl := List.mem_singleton.mp he
      exact inserts_inline (hopen.behind (.of_plain <| hplain [' '] (by simp)))
    · rw [← hline, hheader.lineAt] at h
      obtain rfl := Except.ok.inj h
      have hquiet := isQuiet_guardLine lines loop hcap
      rw [guardLine, ← hline] at hquiet ⊢
      refine ⟨fun e he => ?_, (Int.add_zero _).trans hquiet.braceDelta⟩
      obtain rfl := List.mem_singleton.mp he
      exact ⟨hopen.below hquiet, fun _ => rfl⟩

/-- **The edits that cap loops** are made for the loops that have a cap, and the blocks that they
open are closed, apart from those of loops without a known end. -/
theorem edits_of_editsFor {caps : Caps} (hcaps : ∀ entry ∈ caps, 0 ≤ entry.2) {loops : List Loop}
    (hloops : ∀ loop ∈ loops, loop.IsMarked lines start)
    (h : editsFor {} lines (Comment.strip lines) caps loops = .ok edits) :
    (∀ e ∈ edits, ∃ loop ∈ loops, ∃ cap, capOf? caps loop = some cap ∧
        (Inserts lines start (declarationLine lines loop) e ∨
          Inserts lines start (guardLine lines loop cap) e)) ∧
      (edits.map fun e => Text.braceDelta e.text).sum =
        ((loops.filter fun loop => (capOf? caps loop).isSome).map unclosed).sum := by
  induction loops generalizing edits with
  | nil =>
    obtain rfl := Except.ok.inj h
    exact ⟨fun e he => absurd he List.not_mem_nil, rfl⟩
  | cons loop loops ih =>
    have hloop := hloops loop List.mem_cons_self
    have hrest := fun loop hmem => hloops loop (List.mem_cons_of_mem _ hmem)
    rw [editsFor] at h
    split at h
    · rename_i hnone
      obtain ⟨hmem, hsum⟩ := ih hrest h
      refine ⟨fun e he => ?_, by rw [hsum, List.filter_cons_of_neg (by simp [hnone])]⟩
      obtain ⟨other, hother, hcap⟩ := hmem e he
      exact ⟨other, List.mem_cons_of_mem _ hother, hcap⟩
    · rename_i cap hcap
      obtain ⟨counter, hcounter, h⟩ := bind_eq_ok_iff.mp h
      obtain ⟨guard, hguard, h⟩ := bind_eq_ok_iff.mp h
      obtain ⟨others, hothers, h⟩ := bind_eq_ok_iff.mp h
      obtain rfl := Except.ok.inj h
      obtain ⟨hdeclares, hdeclared⟩ := edits_of_counterEdits hloop hcounter
      obtain ⟨hguards, hguarded⟩ := edits_of_guardEdits hloop (nonneg_of_capOf? hcaps hcap) hguard
      obtain ⟨hmem, hsum⟩ := ih hrest hothers
      constructor
      · intro e he
        rcases List.mem_append.mp he with he | he
        · rcases List.mem_append.mp he with he | he
          · exact ⟨loop, List.mem_cons_self, cap, hcap, .inl (hdeclares e he)⟩
          · exact ⟨loop, List.mem_cons_self, cap, hcap, .inr (hguards e he)⟩
        · obtain ⟨other, hother, hcap⟩ := hmem e he
          exact ⟨other, List.mem_cons_of_mem _ hother, hcap⟩
      · rw [List.map_append, List.map_append, List.sum_append, List.sum_append, hdeclared, hguarded,
          hsum, List.filter_cons_of_pos (by simp [hcap]), List.map_cons, List.sum_cons, unclosed,
          Loop.isBraced]
        cases loop.bodyEnd <;> cases loop.bareBody <;> cases loop.brace <;> simp

/-- Without caps for the loops there is nothing to do. -/
lemma editsFor_eq_nil {config : Config} {code : List Text} {caps : Caps} {loops : List Loop}
    (h : ∀ loop ∈ loops, capOf? caps loop = none) :
    editsFor config lines code caps loops = .ok [] := by
  induction loops with
  | nil => rfl
  | cons loop loops ih =>
    rw [editsFor, h loop List.mem_cons_self]
    exact ih fun other hother => h other (List.mem_cons_of_mem loop hother)

/-- Loops are capped if the caps are valid. -/
lemma exists_apply (config : Config) (lines : List Text) (start : Nat) {caps : Caps}
    (hcaps : ∀ entry ∈ caps, 0 ≤ entry.1 ∧ 0 ≤ entry.2) :
    ∃ result, apply config lines start caps = .ok result := by
  have hvalid : (caps.find? fun entry => entry.1 < 0 || entry.2 < 0) = none := by
    refine List.find?_eq_none.mpr fun entry hentry => ?_
    simpa using hcaps entry hentry
  obtain ⟨edits, hedits⟩ := exists_editsFor config
    (fun loop hloop => Loop.liesIn_of_mem_find hloop) (Comment.length_strip lines) caps
  exact ⟨Edit.apply edits lines, by rw [apply, hvalid, Cap.edits, hedits]; rfl⟩

/-- What capping makes of the lines. -/
lemma exists_edits_of_apply {config : Config} {caps : Caps} {result : List Text}
    (h : apply config lines start caps = .ok result) :
    ∃ edits, editsFor config lines (Comment.strip lines) caps (Loop.find lines start) = .ok edits ∧
      result = Edit.apply edits lines := by
  rw [apply] at h
  split at h
  · exact absurd h (by simp)
  · obtain ⟨edits, hedits, h⟩ := bind_eq_ok_iff.mp h
    exact ⟨edits, hedits, (Except.ok.inj h).symm⟩

/-- **What capping leaves open.**  It opens the blocks of the loops without a known end, and a block
comment is open behind the lines as before. -/
theorem openBlocks_of_apply {caps : Caps} {result : List Text}
    (h : apply {} lines start caps = .ok result) :
    Balance.openBlocks result start = Balance.openBlocks lines start +
        (((Loop.find lines start).filter fun loop => (capOf? caps loop).isSome).map unclosed).sum ∧
      Comment.isOpenAfter false result = Comment.isOpenAfter false lines := by
  obtain ⟨edits, hedits, rfl⟩ := exists_edits_of_apply h
  obtain ⟨hmem, hsum⟩ := edits_of_editsFor (fun entry hentry => (valid_of_apply h entry hentry).2)
    (fun loop hloop => Loop.isMarked_of_mem_find hloop) hedits
  have hbeside : ∀ e ∈ edits, e.IsBeside lines start := by
    intro e he
    obtain ⟨loop, -, cap, -, hinserts | hinserts⟩ := hmem e he
    · exact hinserts.isBeside
    · exact hinserts.isBeside
  rw [← hsum]
  exact Edit.openBlocks_apply hbeside

/-- **Capping only puts text in.**  Every line is a subsequence of a capped line, in order; every
other capped line declares the counter of a capped loop or guards one.  Nothing changes if no loop
has a cap, and no block is left open by capping loops that are in braces or have a known end. -/
theorem exists_image_of_apply (lines : List Text) (start : Nat) (caps : Caps)
    (hcaps : ∀ entry ∈ caps, 0 ≤ entry.1 ∧ 0 ≤ entry.2) :
    ∃ result, apply {} lines start caps = .ok result ∧
      (∃ image : Nat → Nat, StrictMono image ∧
        (∀ n l, lines[n]? = some l → ∃ l', result[image n]? = some l' ∧ l.Sublist l') ∧
        ∀ k l', result[k]? = some l' → (∃ n < lines.length, image n = k) ∨
          ∃ loop ∈ Loop.find lines start, ∃ cap, capOf? caps loop = some cap ∧
            (l' = declarationLine lines loop ∨ l' = guardLine lines loop cap)) ∧
      ((∀ loop ∈ Loop.find lines start, capOf? caps loop = none) → result = lines) ∧
      ((∀ loop ∈ Loop.find lines start, (capOf? caps loop).isSome = true →
          loop.isBraced = false ∨ loop.bareBody = true → loop.bodyEnd.isSome = true) →
        Balance.openBlocks result start = Balance.openBlocks lines start) := by
  obtain ⟨result, hresult⟩ := exists_apply {} lines start hcaps
  refine ⟨result, hresult, ?_, ?_, ?_⟩
  · obtain ⟨edits, hedits, rfl⟩ := exists_edits_of_apply hresult
    obtain ⟨hmem, -⟩ := edits_of_editsFor (fun entry hentry => (hcaps entry hentry).2)
      (fun loop hloop => Loop.isMarked_of_mem_find hloop) hedits
    rw [Edit.apply_eq_applyFrom]
    refine ⟨Edit.image edits 0 lines, Edit.strictMono_image _ _ _, fun n l hl =>
      ⟨_, Edit.getElem?_image edits hl, Edit.sublist_weave _ _ _⟩, fun k l' hl' => ?_⟩
    refine (Edit.exists_of_getElem?_applyFrom hl').imp_right ?_
    rintro ⟨e, he, hrank, rfl⟩
    obtain ⟨loop, hloop, cap, hcap, hinserts⟩ := hmem e he
    exact ⟨loop, hloop, cap, hcap, hinserts.imp (·.own hrank) (·.own hrank)⟩
  · intro hnone
    obtain ⟨edits, hedits, rfl⟩ := exists_edits_of_apply hresult
    obtain rfl := Except.ok.inj (hedits.symm.trans (editsFor_eq_nil hnone))
    exact Edit.apply_nil lines
  · intro hends
    have hzero : (((Loop.find lines start).filter fun loop => (capOf? caps loop).isSome).map
        unclosed).sum = 0 := by
      refine List.sum_eq_zero fun n hn => ?_
      obtain ⟨loop, hloop, rfl⟩ := List.mem_map.mp hn
      obtain ⟨hloop, hcapped⟩ := List.mem_filter.mp hloop
      exact (unclosed_eq_zero_iff loop).mpr (hends loop hloop hcapped)
    rw [(openBlocks_of_apply hresult).1, hzero]
    exact Int.add_zero _

/-- A loop that follows a block comment of two lines and is the body of a condition, and a loop that
does not end. -/
def commentedLoops : List Text :=
  ["void f(float x) \x7b", "  if (x > 0.0) /* bounded",
    "    \x7b */ for (int i = 0; i < 8; i++) x += 1.0;", "  while (x > 2.0)"]

/-- The first loop is capped, and the blocks that this opens are closed. -/
theorem exists_image_of_apply_commented :
    (∀ entry ∈ [((0 : Int), (3 : Int))], 0 ≤ entry.1 ∧ 0 ≤ entry.2) ∧
      ∃ result, apply {} commentedLoops 0 [(0, 3)] = .ok result ∧
        (∃ image : Nat → Nat, StrictMono image ∧
          ∃ l', result[image 2]? = some l' ∧
            "    \x7b */ for (int i = 0; i < 8; i++) x += 1.0;".toList.Sublist l') ∧
        Balance.openBlocks result 0 = 1 := by
  refine ⟨by decide, ?_⟩
  obtain ⟨result, hresult, ⟨image, hmono, himage, -⟩, -, hbraces⟩ :=
    exists_image_of_apply commentedLoops 0 [(0, 3)] (by decide)
  exact ⟨result, hresult, ⟨image, hmono, himage 2 _ rfl⟩,
    (hbraces (by decide +kernel)).trans (by decide +kernel)⟩

end Cap

end ShaderProbe
