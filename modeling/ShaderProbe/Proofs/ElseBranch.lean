import Mathlib
import ShaderProbe.Edit.Cap
import ShaderProbe.Proofs.FunctionLoops
import ShaderProbe.Proofs.LoopsAround

/-!
# Loops around an `else`

A loop without braces is taken to end at the first `;` behind its header, or at the brace that
closes its first block.  That is the end of its body exactly if no `else` and no `do` stands in the
body outside braces (`Passage.reach_eq_iff`).  In front of an `else` the loop ends too early: the
second branch is not in its body, and the brace that is to close the body when the loop is capped
stands between the first branch and the `else` (`FunctionPassage.find_of_bodies`).
-/

namespace ShaderProbe

namespace Passage

open Phrase (header)

/-! ### What a statement reaches -/

/-- A statement reaches at least one character, and none behind its end. -/
lemma reach_bounds (s : Passage .statement) : 0 < s.reach ∧ s.reach ≤ s.render.length := by
  generalize hkind : PassageKind.statement = kind at s
  induction s with
  | expression e => simp [reach, render]
  | block gap body close => simp [reach, render]
  | ifThen gap paren condition body ih =>
    have := ih rfl
    simp only [reach, render, List.length_append]
    omega
  | ifElse gap paren condition yes otherwise no ihYes _ =>
    have := ihYes rfl
    simp only [reach, render, List.length_append]
    omega
  | loop gap keyword paren group body ih =>
    have := ih rfl
    simp only [reach, render, List.length_append]
    omega
  | doWhile gap body tail paren condition close ih =>
    have := ih rfl
    simp [reach, render]
    omega
  | nil => exact absurd hkind (by simp)
  | cons first rest => exact absurd hkind (by simp)

/-- The body of a loop lies behind the start of the passage. -/
lemma lt_of_mem_bodies {kind : PassageKind} (s : Passage kind) (start : Nat)
    {body : Nat × Passage .statement} (h : body ∈ s.bodies start) : start < body.1 := by
  induction s generalizing start with
  | expression e => exact absurd h (by simp [bodies])
  | block gap inner close ih => exact lt_of_le_of_lt (by omega) (ih _ h)
  | ifThen gap paren condition inner ih => exact lt_of_le_of_lt (by omega) (ih _ h)
  | ifElse gap paren condition yes otherwise no ihYes ihNo =>
    rcases List.mem_append.mp h with h | h
    · exact lt_of_le_of_lt (by omega) (ihYes _ h)
    · exact lt_of_le_of_lt (by omega) (ihNo _ h)
  | loop gap keyword paren group inner ih =>
    rcases List.mem_cons.mp h with rfl | h
    · rw [List.length_append, Phrase.length_header]
      dsimp only
      omega
    · exact lt_of_le_of_lt (by omega) (ih _ h)
  | doWhile gap inner tail paren condition close ih => exact lt_of_le_of_lt (by omega) (ih _ h)
  | nil => exact absurd h (by simp [bodies])
  | cons first rest ihFirst ihRest =>
    rcases List.mem_append.mp h with h | h
    · exact ihFirst _ h
    · exact lt_of_le_of_lt (by omega) (ihRest _ h)

/-- **A statement reaches its end exactly if no `else` and no `do` stands outside its braces.** -/
lemma reach_eq_iff (s : Passage .statement) :
    s.reach = s.render.length ↔ s.isWhole = true := by
  generalize hkind : PassageKind.statement = kind at s
  induction s with
  | expression e => simp [reach, render, isWhole]
  | block gap body close => simp [reach, render, isWhole]
  | ifThen gap paren condition body ih =>
    rw [isWhole, ← ih rfl]
    simp only [reach, render, List.length_append]
    omega
  | ifElse gap paren condition yes otherwise no _ _ =>
    have hyes := yes.reach_bounds
    have hno := no.reach_bounds
    simp only [isWhole, Bool.false_eq_true, iff_false, reach, render, List.length_append]
    omega
  | loop gap keyword paren group body ih =>
    rw [isWhole, ← ih rfl]
    simp only [reach, render, List.length_append]
    omega
  | doWhile gap body tail paren condition close _ =>
    have hbody := body.reach_bounds
    simp only [isWhole, Bool.false_eq_true, iff_false, reach, render, List.length_append,
      List.length_singleton, Phrase.length_header]
    simp
    omega
  | nil => exact absurd hkind (by simp)
  | cons first rest => exact absurd hkind (by simp)

/-- **A statement does not reach the `else` that its headers lead to.** -/
lemma reach_le_of_else? (s : Passage .statement) {o : Nat} (h : s.else? = some o) :
    s.reach ≤ o ∧ "else".toList <+: s.render.drop o := by
  generalize hkind : PassageKind.statement = kind at s
  induction s generalizing o with
  | expression e => exact absurd h (by simp [else?])
  | block gap body close => exact absurd h (by simp [else?])
  | ifThen gap paren condition body ih =>
    obtain ⟨n, hn, rfl⟩ := Option.map_eq_some_iff.mp h
    obtain ⟨hreach, helse⟩ := ih rfl hn
    refine ⟨by simpa [reach] using hreach, ?_⟩
    rwa [render, List.drop_length_add_append]
  | ifElse gap paren condition yes otherwise no _ _ =>
    have hyes := yes.reach_bounds
    rw [else?, Option.some.injEq] at h
    subst h
    refine ⟨?_, ?_⟩
    · rw [reach]
      omega
    · have hfront : gap.text ++ header "if" paren condition ++ yes.render ++ otherwise.text ++ "else" ++
          no.render = (gap.text ++ header "if" paren condition ++ yes.render ++ otherwise.text) ++
            ("else" ++ no.render) := by
        simp
      rw [render, hfront, ← List.length_append, ← List.length_append, List.drop_left]
      exact List.prefix_append _ _
  | loop gap keyword paren group body ih =>
    obtain ⟨n, hn, rfl⟩ := Option.map_eq_some_iff.mp h
    obtain ⟨hreach, helse⟩ := ih rfl hn
    refine ⟨by simpa [reach] using hreach, ?_⟩
    rwa [render, List.drop_length_add_append]
  | doWhile gap body tail paren condition close => exact absurd h (by simp [else?])
  | nil => exact absurd hkind (by simp)
  | cons first rest => exact absurd hkind (by simp)

end Passage

namespace FunctionPassage

/-- The loops of a function, by their offsets in the code. -/
lemma find_eq_spans (f : FunctionPassage) (hsep : f.body.isSeparated = true) {lines : List Text}
    {start : Nat} {rest : Text}
    (hcode : Text.ofLines (Loop.blankCode lines start) = f.render ++ rest) :
    Loop.find lines start = f.spans.mapIdx fun index span =>
      Loop.ofSpan ⟨Loop.blankCode lines start, start⟩ span index := by
  refine List.ext_getElem? fun index => ?_
  rw [Loop.getElem?_find_blankCode, hcode, f.spans_render hsep, List.getElem?_mapIdx]

/-- The loop of a body. -/
lemma exists_span (f : FunctionPassage) {index inside : Nat} {body : Passage .statement}
    (h : f.bodies[index]? = some (inside, body)) :
    ∃ span, f.spans[index]? = some span ∧ span.parenClose = inside - 1 ∧
      span.brace = body.brace? inside ∧ span.bodyEnd = some (inside + body.reach - 1) := by
  have hmap := congrArg (·[index]?) (f.body.map_spans f.opening.length false)
  simp only [List.getElem?_map] at hmap
  rw [← spans, ← bodies, h, Option.map_some, Option.map_eq_some_iff] at hmap
  obtain ⟨span, hspan, heq⟩ := hmap
  simp only [Prod.mk.injEq] at heq
  exact ⟨span, hspan, heq⟩

/-- **Where a loop without braces ends.**  Let the code of the lines, with the comments blanked,
start with the text of a function.  A loop whose body is no block ends where its body reaches, and
that is the end of the body exactly if no `else` and no `do` stands in the body outside braces.  The
places of the body up to there lie in the loop, the others do not.  If the loop is capped, the brace
that closes its body is put right behind that place, so it stands in front of the `else` if the body
is an `if` with two branches or its headers lead to one. -/
theorem find_of_bodies (f : FunctionPassage) (hsep : f.body.isSeparated = true) {lines : List Text}
    {start : Nat} {rest : Text}
    (hcode : Text.ofLines (Loop.blankCode lines start) = f.render ++ rest) {index inside : Nat}
    {body : Passage .statement} (hbody : f.bodies[index]? = some (inside, body))
    (hbrace : body.brace? inside = none) :
    let flat : FlatText := { lines := Loop.blankCode lines start, firstLine := start }
    let close := flat.locate (inside - 1)
    let last := flat.locate (inside + body.reach - 1)
    ∃ loop, (Loop.find lines start)[index]? = some loop ∧
      loop.bodyEnd = some last ∧
      (loop.bodyEnd = some (flat.locate (inside + body.render.length - 1)) ↔ body.isWhole = true) ∧
      (∀ n, loop ∈ Loop.enclosing lines start (flat.locate (inside + n)).line
        (some (flat.locate (inside + n)).column) ↔ n < body.reach) ∧
      (∀ config code cap, Cap.guardEdits config lines code loop cap =
        .ok [.inline close.line (close.column + 1) (" \x7b " ++ Cap.guard config loop cap),
          .inline last.line (last.column + 1) " \x7d"]) ∧
      ∀ o ∈ body.else?, body.reach ≤ o ∧ "else".toList <+: body.render.drop o := by
  intro flat close last
  have hpos := f.body.lt_of_mem_bodies f.opening.length (List.mem_of_getElem? hbody)
  have hreach := body.reach_bounds
  obtain ⟨span, hspan, hclose, hbraced, hend⟩ := f.exists_span hbody
  have hfound : (Loop.find lines start)[index]? = some (Loop.ofSpan flat span index) := by
    rw [f.find_eq_spans hsep hcode, List.getElem?_mapIdx, hspan]
    rfl
  have hlast : (Loop.ofSpan flat span index).bodyEnd = some last := by
    simp only [Loop.ofSpan, hend, Option.map_some, last]
  refine ⟨_, hfound, hlast, ?_, fun n => ?_, fun config code cap => ?_,
    fun o ho => body.reach_le_of_else? ho⟩
  · rw [hlast, Option.some.injEq, flat.locate_injective.eq_iff, ← body.reach_eq_iff]
    omega
  · rw [Loop.enclosing, List.mem_filter, Loop.contains_ofSpan,
      and_iff_right (List.mem_of_getElem? hfound), LoopSpan.encloses, hbraced, hbrace, hend, hclose]
    simp only [Bool.and_eq_true, decide_eq_true_eq]
    omega
  · have hopen : (Loop.ofSpan flat span index).brace = none := by
      simp only [Loop.ofSpan, hbraced, hbrace, Option.map_none]
    have hparen : (Loop.ofSpan flat span index).parenClose = some close := by
      simp only [Loop.ofSpan, hclose, close]
    rw [Cap.guardEdits, hopen, hparen, Cap.closeBody, hlast]
    rfl

/-- The start of a header holds no bracket and ends no statement. -/
lemma isFreeOf_voidF : Text.isFreeOf ['(', ')', '{', '}', ';'] "void f" = true := by decide

/-- A function whose loops without braces lead to an `if` with two branches. -/
def branched : FunctionPassage where
  head := "void f"
  isFreeOfEnds := isFreeOf_voidF
  parameters := ⟨"float a", by decide, by decide⟩
  gap := ⟨" ", by decide⟩
  body :=
    .cons (.loop ⟨"\n  ", by decide⟩ .whileLoop ⟨" ", by decide⟩ ⟨"a < 9.0", by decide, by decide⟩
      (.loop ⟨" ", by decide⟩ .forLoop ⟨" ", by decide⟩ ⟨";;", by decide, by decide⟩
        (.ifElse ⟨"\n    ", by decide⟩ ⟨" ", by decide⟩ ⟨"a > 1.0", by decide, by decide⟩
          (.expression ⟨" a = 1.0", by decide, by decide, by decide, by decide⟩)
          ⟨"          \n    ", by decide⟩
          (.expression ⟨" a += 2.0", by decide, by decide, by decide, by decide⟩)))) .nil
  close := ⟨"\n", by decide⟩

/-- The lines of the function, with a comment in front of the `else`. -/
def branchedLines : List Text :=
  ["void f(float a) \x7b", "  while (a < 9.0) for (;;)", "    if (a > 1.0) a = 1.0; /* one */",
    "    else a += 2.0;", "\x7d"]

/-- Both loops end in front of the comment, and the second branch lies in none of them. -/
theorem find_of_bodies_branched :
    branched.body.isSeparated = true ∧
      Text.ofLines (Loop.blankCode branchedLines 0) = branched.render ++ [] ∧
      ∃ inside body, branched.bodies[0]? = some (inside, body) ∧ body.brace? inside = none ∧
        body.isWhole = false ∧
        ∃ loop, (Loop.find branchedLines 0)[0]? = some loop ∧ loop.bodyEnd = some ⟨2, 24⟩ ∧
          loop ∉ Loop.enclosing branchedLines 0 3 (some 17) := by
  have hcode : Text.ofLines (Loop.blankCode branchedLines 0) = branched.render ++ [] := by
    decide +kernel
  obtain ⟨loop, hloop, hend, -, hmem, -⟩ :=
    find_of_bodies branched (by decide) hcode (show branched.bodies[0]? = some _ from rfl) rfl
  refine ⟨by decide, hcode, _, _, rfl, rfl, rfl, loop, hloop, ?_, ?_⟩
  · rw [hend]
    decide +kernel
  · have houtside := (hmem 63).not.mpr (by decide)
    exact houtside

/-- A function with a loop around an `if` with two branches. -/
def elseLoop : FunctionPassage where
  head := "void f"
  isFreeOfEnds := isFreeOf_voidF
  parameters := ⟨"float a", by decide, by decide⟩
  gap := ⟨" ", by decide⟩
  body :=
    .cons (.loop ⟨"\n  ", by decide⟩ .forLoop ⟨" ", by decide⟩
      ⟨"int i = 0; i < 3; i++", by decide, by decide⟩
      (.ifElse ⟨" ", by decide⟩ ⟨" ", by decide⟩ ⟨"a > 1.0", by decide, by decide⟩
        (.expression ⟨" a = 1.0", by decide, by decide, by decide, by decide⟩) ⟨" ", by decide⟩
        (.expression ⟨" a += 2.0", by decide, by decide, by decide, by decide⟩))) .nil
  close := ⟨"\n", by decide⟩

/-- The lines of the function. -/
def elseLines : List Text :=
  ["void f(float a) \x7b",
    "  for (int i = 0; i < 3; i++) if (a > 1.0) a = 1.0; else a += 2.0;", "\x7d"]

/-- The loop does not end with its body: the second branch is in no loop, and once the loop is
capped the `else` follows a closing brace. -/
theorem find_of_bodies_else :
    Text.ofLines elseLines = elseLoop.render ∧ elseLoop.body.isSeparated = true ∧
      (∃ inside body, elseLoop.bodies = [(inside, body)] ∧ body.brace? inside = none ∧
        body.else?.isSome = true ∧
        FlatText.locate ⟨elseLines, 0⟩ (inside + body.render.length - 1) = ⟨1, 65⟩) ∧
      (Loop.find elseLines 0).map Loop.bodyEnd = [some ⟨1, 50⟩] ∧
      Loop.enclosing elseLines 0 1 (some 65) = [] ∧
      Cap.apply {} elseLines 0 [(0, 5)] = .ok
        ["void f(float a) \x7b", "  int _dbgIter0 = 0;",
          "  for (int i = 0; i < 3; i++) \x7b if (++_dbgIter0 > 5) break; " ++
            "if (a > 1.0) a = 1.0; \x7d else a += 2.0;", "\x7d"] :=
  ⟨by decide +kernel, by decide, ⟨_, _, rfl, rfl, rfl, by decide +kernel⟩, by decide +kernel,
    by decide +kernel, eq_ok_of_toOption (by decide +kernel)⟩

end FunctionPassage

end ShaderProbe
