import Mathlib
import ShaderProbe.Proofs.OneLine

/-!
# The lines of a statement

A statement is found from any of its lines: backwards to the first line, then forwards to the `;`.
Only the way back depends on the line, and it ends at the first boundary that it meets.
`Statement.find_eq_iff` says what this comes to: a line of a statement leads to the same statement
exactly if no line of the statement in front of it is a boundary.  The number of lines that are
looked at plays no part, since a statement that is found is shorter than that.

A blank line or a comment on a line of its own is a boundary, also in the middle of a statement, so
a statement with one of them has lines that do not lead to it (`Target.classify_behind_comment`).
-/

namespace ShaderProbe

namespace Statement

variable {max : Int} {code : List Text} {line first : Nat}

/-! ### The way back -/

/-- No line from the first one up to the second one, which is left out, is a boundary. -/
def IsConnected (code : List Text) (first line : Nat) : Prop :=
  ∀ k, first ≤ k → k < line → ∀ l ∈ code[k]?, isBoundary l = false

/-- A statement starts behind a boundary or with the text. -/
def IsStart (code : List Text) (first : Nat) : Prop :=
  ∀ k, first = k + 1 → ∀ l ∈ code[k]?, isBoundary l = true

/-- The lines in front of a line, the nearest first. -/
lemma getElem?_reverse_take (hline : line ≤ code.length) {i : Nat} (hi : i < line) :
    (code.take line).reverse[i]? = code[line - 1 - i]? := by
  have hlength : (code.take line).length = line := List.length_take_of_le hline
  rw [List.getElem?_reverse (by omega), hlength, List.getElem?_take_of_lt (by omega)]

/-- The elements that a walk passes, and the one at which it stops. -/
lemma length_takeWhile_eq_iff {α : Type*} {p : α → Bool} {l : List α} {n : Nat}
    (hn : n ≤ l.length) :
    (l.takeWhile p).length = n ↔
      (∀ i < n, ∀ a ∈ l[i]?, p a = true) ∧ ∀ a ∈ l[n]?, p a = false := by
  induction l generalizing n with
  | nil =>
    obtain rfl : n = 0 := by simpa using hn
    simp
  | cons a l ih =>
    cases n with
    | zero => cases hp : p a <;> simp [hp]
    | succ n =>
      have hrest := ih (n := n) (by simpa using hn)
      cases hp : p a with
      | false =>
        rw [List.takeWhile_cons_of_neg (by simp [hp])]
        refine iff_of_false (by simp) fun h => ?_
        have := h.1 0 (by omega) a (by simp)
        rw [hp] at this
        exact absurd this (by simp)
      | true =>
        rw [List.takeWhile_cons_of_pos hp, List.length_cons, Nat.add_right_cancel_iff, hrest]
        constructor
        · rintro ⟨hpass, hstop⟩
          refine ⟨fun i hi b hb => ?_, by simpa using hstop⟩
          cases i with
          | zero =>
            obtain rfl : a = b := by simpa using hb
            exact hp
          | succ i => exact hpass i (by omega) b (by simpa using hb)
        · rintro ⟨hpass, hstop⟩
          exact ⟨fun i hi b hb => hpass (i + 1) (by omega) b (by simpa using hb),
            by simpa using hstop⟩

/-- **The first line of a statement, if it is not too far away**: the lines from there on are no
boundaries, and it does not go on further back. -/
theorem firstLine_eq_iff (hline : line ≤ code.length) (hfirst : first ≤ line)
    (hnear : line < first + max.toNat) :
    firstLine max code line = first ↔ IsConnected code first line ∧ IsStart code first := by
  set walked := (code.take line).reverse.take max.toNat with hwalked
  have hlength : walked.length = min max.toNat line := by
    rw [hwalked, List.length_take, List.length_reverse, List.length_take_of_le hline]
  have hget : ∀ i < line, i < max.toNat → walked[i]? = code[line - 1 - i]? := by
    intro i hi hmax
    rw [hwalked, List.getElem?_take_of_lt hmax, getElem?_reverse_take hline hi]
  have hwalk : firstLine max code line = first ↔
      (walked.takeWhile fun l => !isBoundary l).length = line - first := by
    have hle := (List.takeWhile_prefix (l := walked) fun l => !isBoundary l).length_le
    rw [firstLine, ← hwalked]
    omega
  rw [hwalk, length_takeWhile_eq_iff (by omega)]
  refine and_congr ⟨fun h k hlow hhigh l hl => ?_, fun h i hi l hl => ?_⟩
    ⟨fun h k hk l hl => ?_, fun h l hl => ?_⟩
  · have hpass := h (line - 1 - k) (by omega) l (by
      rw [hget _ (by omega) (by omega), show line - 1 - (line - 1 - k) = k by omega]
      exact hl)
    simpa using hpass
  · rw [hget i (by omega) (by omega)] at hl
    simpa using h (line - 1 - i) (by omega) (by omega) l hl
  · have hstop := h l (by
      rw [hget _ (by omega) (by omega), show line - 1 - (line - first) = k by omega]
      exact hl)
    simpa using hstop
  · rcases Nat.eq_zero_or_pos first with rfl | hpos
    · rw [List.getElem?_eq_none (by omega)] at hl
      exact absurd hl (by simp)
    · rw [hget _ (by omega) (by omega)] at hl
      simpa using h (line - 1 - (line - first)) (by omega) l hl

/-! ### The way forward -/

/-- The `;` of a statement lies on one of the lines that are looked at. -/
lemma line_of_endFrom {depth : Int} {ls : List Text} {last : Position}
    (h : endFrom depth line ls = some last) : line ≤ last.line ∧ last.line < line + ls.length := by
  induction ls generalizing depth line with
  | nil => exact absurd h (by simp [endFrom])
  | cons l ls ih =>
    rw [endFrom] at h
    split at h
    · obtain rfl := Option.some.inj h
      simp
    · exact absurd h (by simp)
    · have := ih h
      rw [List.length_cons]
      omega

/-- The statement between a first line and the `;` that is found from there. -/
def from? (max : Int) (code : List Text) (first : Nat) : Option Statement :=
  (endFrom 0 first ((code.drop first).take max.toNat)).map fun last =>
    ⟨textTo code first last, first, last.line, last.column⟩

/-- The statement that touches a line is the one from its first line on, if it reaches the line. -/
lemma spanning?_eq_some_iff {s : Statement} :
    spanning? max code line = some s ↔
      from? max code (firstLine max code line) = some s ∧ line ≤ s.endLine := by
  simp only [spanning?, from?, Option.bind_eq_bind, Option.bind_eq_some_iff, Option.map_eq_some_iff]
  constructor
  · rintro ⟨last, hlast, h⟩
    split at h
    · exact absurd h (by simp)
    · obtain rfl := Option.some.inj h
      exact ⟨⟨last, hlast, rfl⟩, by dsimp only; omega⟩
  · rintro ⟨⟨last, hlast, rfl⟩, hle⟩
    dsimp only at hle
    exact ⟨last, hlast, by rw [if_neg (by omega)]⟩

/-- A statement starts where the search for its end starts, and is not too long. -/
lemma bounds_of_from? {s : Statement} (h : from? max code first = some s) :
    s.startLine = first ∧ first ≤ s.endLine ∧ s.endLine < first + max.toNat ∧
      s.endLine < code.length := by
  obtain ⟨last, hlast, rfl⟩ := Option.map_eq_some_iff.mp h
  obtain ⟨hlow, hhigh⟩ := line_of_endFrom hlast
  rw [List.length_take, List.length_drop] at hhigh
  dsimp only
  omega

/-- The statement at a line that is found. -/
lemma find_eq_some_iff {s : Statement} :
    find max code line = .ok (some s) ↔
      (∃ l, code[line]? = some l ∧ Text.isBlankOnly l = false) ∧
        spanning? max code line = some s := by
  simp only [find, bind_eq_ok_iff, lineAt_eq_ok_iff, pure, Except.pure, Except.ok.injEq]
  constructor
  · rintro ⟨l, hl, h⟩
    split at h
    · exact absurd h (by simp)
    · rename_i hblank
      exact ⟨⟨l, hl, by simpa using hblank⟩, h⟩
  · rintro ⟨⟨l, hl, hblank⟩, h⟩
    exact ⟨l, hl, by rw [hblank]; exact h⟩

/-! ### The same statement -/

/-- A statement that is found from a line: its first line is reached, and the line is one of it. -/
lemma bounds_of_find {s : Statement} (h : find max code line = .ok (some s)) :
    from? max code s.startLine = some s ∧ IsConnected code s.startLine line ∧
      IsStart code s.startLine ∧ s.startLine ≤ line ∧ line ≤ s.endLine ∧
        s.endLine < s.startLine + max.toNat ∧ s.endLine < code.length := by
  obtain ⟨-, hspan⟩ := find_eq_some_iff.mp h
  obtain ⟨hfrom, hline⟩ := spanning?_eq_some_iff.mp hspan
  obtain ⟨hstart, -, hmax, hlength⟩ := bounds_of_from? hfrom
  rw [← hstart] at hfrom hmax
  have hle : s.startLine ≤ line := by
    rw [hstart]
    exact Nat.sub_le _ _
  obtain ⟨hconnected, hfirst⟩ := (firstLine_eq_iff (by omega) hle (by omega)).mp hstart.symm
  exact ⟨hfrom, hconnected, hfirst, hle, hline, hmax, hlength⟩

/-- **A line of a statement leads to it exactly if no line of the statement in front of the line is
a boundary.** -/
theorem find_eq_iff {s : Statement} (h : find max code line = .ok (some s)) {other : Nat}
    (hlow : s.startLine ≤ other) (hhigh : other ≤ s.endLine)
    (hcode : ∀ l ∈ code[other]?, Text.isBlankOnly l = false) :
    find max code other = .ok (some s) ↔ IsConnected code s.startLine other := by
  obtain ⟨hfrom, -, hfirst, -, -, hmax, hlength⟩ := bounds_of_find h
  constructor
  · exact fun hother => (bounds_of_find hother).2.1
  · intro hconnected
    have hstart : firstLine max code other = s.startLine :=
      (firstLine_eq_iff (by omega) hlow (by omega)).mpr ⟨hconnected, hfirst⟩
    have hget : code[other]? = some code[other] := List.getElem?_eq_getElem (by omega)
    refine find_eq_some_iff.mpr ⟨⟨_, hget, hcode _ hget⟩, spanning?_eq_some_iff.mpr ⟨?_, hhigh⟩⟩
    rwa [hstart]

end Statement

/-- The search for the end of a statement depends on the statement only. -/
lemma Statement.endAt_of_find {max : Int} {lines : List Text} {line : Nat} {s : Statement}
    (h : Statement.find max (Comment.strip lines) line = .ok (some s)) :
    Statement.endAt max lines line = .ok (some ⟨s.endLine, s.endColumn⟩) := by
  obtain ⟨-, -, -, -, hline, -, hlength⟩ := Statement.bounds_of_find h
  rw [Comment.length_strip] at hlength
  rw [Statement.endAt, if_pos (by omega), Int.toNat_natCast, h]
  rfl

/-- Whether a value is returned depends on the statement only. -/
lemma ReturnStatement.find_of_find {max : Int} {lines : List Text} {line : Nat} {s : Statement}
    (h : Statement.find max (Comment.strip lines) line = .ok (some s)) :
    ReturnStatement.find max lines line = .ok
      ((Statement.returned? s.text).map fun expression =>
        ⟨expression, s.startLine, s.endLine⟩) := by
  obtain ⟨-, -, -, -, hline, -, hlength⟩ := Statement.bounds_of_find h
  rw [Comment.length_strip] at hlength
  rw [ReturnStatement.find, if_pos (by omega), Int.toNat_natCast, h]
  rfl

/-- The first and the last line of a statement that is shown. -/
def Classification.span? : Classification → Option (Nat × Nat)
  | .declaration _ first last => some (first, last)
  | .assignment _ _ first last => some (first, last)
  | .noMatch _ => none

namespace Statement

/-- A statement that is shown spans its own lines. -/
lemma span?_of_classify {code : List Text} {function : Option Signature} {s : Statement}
    {kinds : List Kind} {found : Classification} {span : Nat × Nat}
    (h : classify code function s kinds = .ok found) (hspan : found.span? = some span) :
    span = (s.startLine, s.endLine) := by
  induction kinds with
  | nil =>
    obtain rfl := Except.ok.inj h
    exact absurd hspan (by simp [Classification.span?])
  | cons kind kinds ih =>
    obtain ⟨result, hresult, h⟩ := bind_eq_ok_iff.mp h
    cases result with
    | none => exact ih h
    | some result =>
      obtain rfl := Except.ok.inj h
      cases kind with
      | declaration =>
        obtain ⟨v, -, rfl⟩ := Option.map_eq_some_iff.mp (Except.ok.inj hresult)
        exact (Option.some.inj hspan).symm
      | assignment =>
        rw [classifyAs] at hresult
        split at hresult
        · exact absurd (Except.ok.inj hresult) (by simp)
        · obtain ⟨type, -, hresult⟩ := bind_eq_ok_iff.mp hresult
          obtain ⟨v, -, rfl⟩ := Option.map_eq_some_iff.mp (Except.ok.inj hresult)
          exact (Option.some.inj hspan).symm

end Statement

namespace Target

variable {config : Config} {kinds : List Statement.Kind} {lines : List Text} {line : Nat}
  {function : Option Signature} {found : Classification} {span : Nat × Nat}

/-- A line without a text is meant as it is. -/
lemma resolve_natCast (h : line < lines.length) : resolve lines line none = some line := by
  have hrange : inRange lines line = true := by simpa [inRange] using h
  rw [resolve, Option.map_none]
  dsimp only
  rw [inRange?, if_pos hrange, Int.toNat_natCast]

/-- A line that is found holds the statement that is classified. -/
lemma find_of_classify (h : classify config kinds lines line none function = .ok found)
    (hspan : found.span? = some span) :
    ∃ s : Statement, Statement.find config.maxStatementLines (Comment.strip lines) line =
        .ok (some s) ∧ span = (s.startLine, s.endLine) ∧
      s.classify (Comment.strip lines) function kinds = .ok found := by
  rw [classify] at h
  split at h
  · obtain rfl := Except.ok.inj h
    exact absurd hspan (by simp [Classification.span?])
  · rename_i target htarget
    obtain rfl : line = target := by
      rw [resolve, Option.map_none] at htarget
      obtain ⟨-, h⟩ := Option.ite_some_none_eq_some.mp htarget
      simpa using h
    obtain ⟨statement, hfind, h⟩ := bind_eq_ok_iff.mp h
    cases statement with
    | none =>
      obtain rfl := Except.ok.inj h
      exact absurd hspan (by simp [Classification.span?])
    | some s => exact ⟨s, hfind, Statement.span?_of_classify h hspan, h⟩

/-- The classification at a line is that of its statement. -/
lemma classify_of_find {s : Statement}
    (h : Statement.find config.maxStatementLines (Comment.strip lines) line = .ok (some s)) :
    classify config kinds lines line none function =
      s.classify (Comment.strip lines) function kinds := by
  obtain ⟨-, -, -, -, hline, -, hlength⟩ := Statement.bounds_of_find h
  rw [Comment.length_strip] at hlength
  rw [classify, resolve_natCast (by omega)]
  dsimp only
  rw [h]
  rfl

end Target

namespace Probe

variable {config : Config} {settings : Variant.Settings} {lines : List Text} {function : Signature}
  {line other : Nat} {s : Statement}

/-- What is answered for a line depends on the statement at the line only. -/
lemma showVariable_congr
    (h : Statement.find config.maxStatementLines (Comment.strip lines) line = .ok (some s))
    (h' : Statement.find config.maxStatementLines (Comment.strip lines) other = .ok (some s))
    (shown : Variable) (last : Nat) :
    showVariable config settings lines function other shown last =
      showVariable config settings lines function line shown last := by
  have hloops : loopsAround config lines function other =
      loopsAround config lines function line := by
    rw [loopsAround, loopsAround, Statement.endAt_of_find h, Statement.endAt_of_find h']
    rfl
  have hcapture : Variant.captureReturn config lines other shown =
      Variant.captureReturn config lines line shown := by
    rw [Variant.captureReturn, Variant.captureReturn, ReturnStatement.find_of_find h,
      ReturnStatement.find_of_find h']
  have hhelper : ∀ loops,
      Variant.helper config settings lines function other shown loops (some last) =
      Variant.helper config settings lines function line shown loops (some last) := by
    intro loops
    rw [Variant.helper, Variant.helper, hcapture]
    rfl
  simp only [showVariable, hloops, hhelper]

/-- A shown statement is answered alike from all the lines that lead to it. -/
lemma instrumentLine_congr {found : Classification} {span : Nat × Nat}
    (h : Statement.find config.maxStatementLines (Comment.strip lines) line = .ok (some s))
    (h' : Statement.find config.maxStatementLines (Comment.strip lines) other = .ok (some s))
    (hfound : s.classify (Comment.strip lines) (some function) shownKinds = .ok found)
    (hspan : found.span? = some span) :
    instrumentLine config settings lines function other =
      instrumentLine config settings lines function line := by
  rw [instrumentLine, instrumentLine, Target.classify_of_find h, Target.classify_of_find h', hfound]
  cases found with
  | declaration shown first last => exact congrArg (some <$> ·) (showVariable_congr h h' shown last)
  | assignment shown operator first last =>
    exact congrArg (some <$> ·) (showVariable_congr h h' shown last)
  | noMatch cause => exact absurd hspan (by simp [Classification.span?])

end Probe

namespace Target

/-- **The lines of a shown statement that lead to it.**  Let a line hold a declaration or an
assignment that spans some lines.  A line of code among them is classified alike exactly if no line
of the statement in front of it is a boundary.  The statement then ends at the same place, and the
answer of an editor's request is the same, if the two lines lie in one function. -/
theorem classify_eq_iff_isConnected (config : Config) (lines : List Text) (line other : Nat)
    (function : Option Signature) (found : Classification) (first last : Nat)
    (h : classify config Probe.shownKinds lines line none function = .ok found)
    (hspan : found.span? = some (first, last)) (hlow : first ≤ other) (hhigh : other ≤ last)
    (hcode : ∀ l ∈ (Comment.strip lines)[other]?, Text.isBlankOnly l = false) :
    (classify config Probe.shownKinds lines other none function = .ok found ↔
      Statement.IsConnected (Comment.strip lines) first other) ∧
    (Statement.IsConnected (Comment.strip lines) first other →
      Statement.endAt config.maxStatementLines lines other =
          Statement.endAt config.maxStatementLines lines line ∧
        ∀ (settings : Variant.Settings) (source : Text), Text.lines source = lines →
          Outline.enclosing? config lines line = function →
          Outline.enclosing? config lines other = function →
          Probe.instrument config settings source other none =
            Probe.instrument config settings source line none) := by
  obtain ⟨s, hfind, hlines, hfound⟩ := find_of_classify h hspan
  obtain ⟨rfl, rfl⟩ := Prod.mk.inj hlines
  have hiff := Statement.find_eq_iff hfind hlow hhigh hcode
  refine ⟨⟨fun hother => ?_, fun hconnected => ?_⟩, fun hconnected => ⟨?_, ?_⟩⟩
  · obtain ⟨s', hfind', hlines', -⟩ := find_of_classify hother hspan
    rw [(Prod.mk.inj hlines').1]
    exact (Statement.bounds_of_find hfind').2.1
  · rw [classify_of_find (hiff.mpr hconnected), hfound]
  · rw [Statement.endAt_of_find hfind, Statement.endAt_of_find (hiff.mpr hconnected)]
  · rintro settings source rfl hline hother
    obtain ⟨-, -, -, -, hle, -, hlength⟩ := Statement.bounds_of_find hfind
    rw [Comment.length_strip] at hlength
    have hmeant : resolve (Text.lines source) line none = some line := resolve_natCast (by omega)
    have hmeant' : resolve (Text.lines source) other none = some other := resolve_natCast (by omega)
    simp only [Probe.instrument, hmeant, hmeant', hline, hother]
    cases function with
    | none => rfl
    | some function =>
      exact Probe.instrumentLine_congr hfind (hiff.mpr hconnected) hfound hspan

/-- A helper with a declaration over two lines. -/
def splitDeclaration : List Text :=
  ["float f(vec2 p) \x7b", "  float d = length(p)", "    - 0.5;", "  return d;", "\x7d"]

/-- Both lines of the declaration lead to it. -/
theorem classify_split_declaration :
    classify {} Probe.shownKinds splitDeclaration 1 none none =
        .ok (.declaration ⟨"d", "float"⟩ 1 2) ∧
      classify {} Probe.shownKinds splitDeclaration 2 none none =
        .ok (.declaration ⟨"d", "float"⟩ 1 2) := by
  have hclassify : classify {} Probe.shownKinds splitDeclaration (1 : Nat) none none =
      .ok (.declaration ⟨"d", "float"⟩ 1 2) := eq_ok_of_toOption (by decide +kernel)
  refine ⟨hclassify, ?_⟩
  refine (classify_eq_iff_isConnected {} splitDeclaration 1 2 none _ 1 2 hclassify rfl (by decide)
    (by decide) (by decide +kernel)).1.mpr fun k hlow hhigh => ?_
  obtain rfl : k = 1 := by omega
  decide +kernel

/-- A helper with a declaration over two lines that has a comment in between. -/
def commentedDeclaration : List Text :=
  ["float f(vec2 p) \x7b", "  float d = length(p)", "    // radius", "    - 0.5;", "  return d;",
    "\x7d"]

/-- The last line of a declaration does not lead to it if a comment stands in front on a line of its
own. -/
theorem classify_behind_comment :
    classify {} Probe.shownKinds commentedDeclaration 1 none none =
        .ok (.declaration ⟨"d", "float"⟩ 1 3) ∧
      (Comment.strip commentedDeclaration)[3]?.map Text.isBlankOnly = some false ∧
        classify {} Probe.shownKinds commentedDeclaration 3 none none =
          .ok (.noMatch .otherStatement) := by
  refine ⟨eq_ok_of_toOption ?_, ?_, eq_ok_of_toOption ?_⟩ <;> decide +kernel

end Target

end ShaderProbe
