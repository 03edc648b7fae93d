import Mathlib
import ShaderProbe.Proofs.StatementSpans

/-!
# The nearest line with a text

A request names a line by its number and by the text that stands there.  The number may be any
integer, and several lines may have the text.

* `Target.nearest?_spec`: of increasing numbers the nearest one is taken, and of two numbers at the
  same distance the smaller.
* `Target.resolve_of_text`, `Target.resolve_of_none`: the line that is meant is the nearest one with
  the text, or else the number itself.
* `Target.resolve_nearest`: both together; the line that is meant is meant by its own number as
  well, and a shader is changed for it in the same way.
-/

namespace ShaderProbe

namespace Target

variable {lines : List Text} {line : Int} {text : Text}

/-! ### The nearest number -/

/-- A number is at least as good as another one: it is nearer to the line, or it is as near and not
larger. -/
def IsNearer (line : Int) (i j : Nat) : Prop :=
  ((i : Int) - line).natAbs < ((j : Int) - line).natAbs ∨
    (((i : Int) - line).natAbs = ((j : Int) - line).natAbs ∧ i ≤ j)

/-- Of some numbers one is taken. -/
lemma exists_nearest? (line : Int) {is : List Nat} (h : is ≠ []) :
    ∃ i, nearest? line is = some i := by
  obtain ⟨first, is, rfl⟩ := List.exists_cons_of_ne_nil h
  rw [nearest?]
  split
  · exact ⟨_, rfl⟩
  · split <;> exact ⟨_, rfl⟩

/-- Of increasing numbers the one that is taken is at least as good as all of them. -/
lemma nearest?_spec {is : List Nat} (hsorted : is.Pairwise (· < ·)) {i : Nat}
    (h : nearest? line is = some i) : i ∈ is ∧ ∀ j ∈ is, IsNearer line i j := by
  induction is generalizing i with
  | nil => exact absurd h (by simp [nearest?])
  | cons first is ih =>
    obtain ⟨hfirst, hrest⟩ := List.pairwise_cons.mp hsorted
    have hself : IsNearer line first first := .inr ⟨rfl, le_rfl⟩
    rw [nearest?] at h
    split at h
    · rename_i hnone
      obtain rfl : first = i := Option.some.inj h
      -- without an answer there are no further numbers
      obtain rfl : is = [] := by
        by_contra hne
        obtain ⟨best, hbest⟩ := exists_nearest? line hne
        exact absurd (hnone.symm.trans hbest) (by simp)
      exact ⟨List.mem_cons_self, by simpa using hself⟩
    · rename_i best hbest
      obtain ⟨hmem, hnearer⟩ := ih hrest hbest
      have horder := hfirst best hmem
      split at h
      · rename_i hless
        obtain rfl : best = i := Option.some.inj h
        refine ⟨List.mem_cons_of_mem first hmem, List.forall_mem_cons.mpr ⟨.inl hless, hnearer⟩⟩
      · rename_i hless
        obtain rfl : first = i := Option.some.inj h
        refine ⟨List.mem_cons_self, List.forall_mem_cons.mpr ⟨hself, fun j hj => ?_⟩⟩
        have hj' := hfirst j hj
        have hbestj := hnearer j hj
        unfold IsNearer at hbestj ⊢
        omega

/-! ### Lines with a text -/

/-- The line of the number has the text, blanks at both ends aside. -/
def HasText (lines : List Text) (text : Text) (i : Nat) : Prop :=
  ∃ l, lines[i]? = some l ∧ Text.trim l = Text.trim text

/-- A line with a text is one of the lines. -/
lemma HasText.lt {i : Nat} (h : HasText lines text i) : i < lines.length := by
  obtain ⟨l, hl, -⟩ := h
  exact (List.getElem?_eq_some_iff.mp hl).1

/-- The numbers that are searched are those of the lines with the text. -/
lemma mem_matching_iff {i : Nat} : i ∈ matching lines (Text.trim text) ↔ HasText lines text i := by
  unfold matching
  rw [List.mem_filter, List.mem_range, beq_iff_eq, Option.map_eq_some_iff]
  exact ⟨fun h => h.2, fun h => ⟨HasText.lt h, h⟩⟩

/-- The numbers that are searched increase. -/
lemma pairwise_matching (lines : List Text) (wanted : Text) :
    (matching lines wanted).Pairwise (· < ·) :=
  List.pairwise_lt_range.filter _

/-- The number itself, if it is one of the lines'. -/
lemma inRange?_eq (lines : List Text) (line : Int) :
    inRange? lines line =
      if 0 ≤ line ∧ line < lines.length then some line.toNat else none := by
  unfold inRange? inRange
  simp only [Bool.and_eq_true, decide_eq_true_eq]

/-! ### The line that is meant -/

/-- Without a text, with a blank text and with a text that no line has, the number is kept if it is
one of the lines'. -/
lemma resolve_of_none {shown : Option Text}
    (h : ∀ text ∈ shown, Text.isBlankOnly text = true ∨ ∀ i, ¬HasText lines text i) :
    resolve lines line shown =
      if 0 ≤ line ∧ line < lines.length then some line.toNat else none := by
  rw [← inRange?_eq]
  cases shown with
  | none => rfl
  | some text =>
    unfold resolve
    rw [Option.map_some]
    rcases h text rfl with hblank | hmissing
    · rw [Text.trim_eq_nil_iff.mpr hblank]
    · have hnone : matching lines (Text.trim text) = [] :=
        List.eq_nil_iff_forall_not_mem.mpr fun i hi => hmissing i (mem_matching_iff.mp hi)
      split
      · rfl
      · rfl
      · rename_i wanted _ hwanted
        obtain rfl : Text.trim text = wanted := Option.some.inj hwanted
        rw [hnone]
        rfl

/-- With the text of some line, the nearest such line is meant. -/
lemma resolve_of_text (line : Int) (hink : Text.isBlankOnly text = false)
    (h : ∃ i, HasText lines text i) :
    ∃ i, resolve lines line (some text) = some i ∧ HasText lines text i ∧
      ∀ j, HasText lines text j → IsNearer line i j := by
  obtain ⟨k, hk⟩ := h
  have hne : Text.trim text ≠ [] := by
    rw [Ne, Text.trim_eq_nil_iff, hink]
    decide
  obtain ⟨i, hi⟩ := exists_nearest? line (List.ne_nil_of_mem (mem_matching_iff.mpr hk))
  obtain ⟨hmem, hnearer⟩ := nearest?_spec (pairwise_matching lines _) hi
  refine ⟨i, ?_, mem_matching_iff.mp hmem, fun j hj => hnearer j (mem_matching_iff.mpr hj)⟩
  unfold resolve
  rw [Option.map_some]
  split
  · rename_i hnone
    exact absurd hnone (by simp)
  · rename_i hnil
    exact absurd (Option.some.inj hnil) hne
  · rename_i wanted _ hwanted
    obtain rfl : Text.trim text = wanted := Option.some.inj hwanted
    rw [hi]
    rfl

/-- A line that has the text is meant by its own number. -/
lemma resolve_of_hasText {i : Nat} (hink : Text.isBlankOnly text = false)
    (h : HasText lines text i) : resolve lines i (some text) = some i := by
  obtain ⟨j, hj, -, hnearer⟩ := resolve_of_text i hink ⟨i, h⟩
  have hij := hnearer i h
  obtain rfl : j = i := by
    unfold IsNearer at hij
    omega
  exact hj

/-- **The line that is meant is meant by its own number too.** -/
lemma resolve_resolve {shown : Option Text} {r : Nat} (h : resolve lines line shown = some r) :
    resolve lines r shown = some r := by
  have hr := lt_of_resolve h
  have hkept : (∀ text ∈ shown, Text.isBlankOnly text = true ∨ ∀ i, ¬HasText lines text i) →
      resolve lines r shown = some r := by
    intro hnone
    rw [resolve_of_none hnone, if_pos (by omega), Int.toNat_natCast]
  cases shown with
  | none => exact hkept fun text htext => absurd htext (by simp)
  | some text =>
    by_cases hblank : Text.isBlankOnly text = true
    · exact hkept fun t ht => .inl (by rwa [← Option.some.inj ht])
    · rw [Bool.not_eq_true] at hblank
      by_cases hsome : ∃ i, HasText lines text i
      · obtain ⟨i, hi, htext, -⟩ := resolve_of_text line hblank hsome
        obtain rfl : i = r := Option.some.inj (hi.symm.trans h)
        exact resolve_of_hasText hblank htext
      · rw [not_exists] at hsome
        exact hkept fun t ht => .inr (by rwa [← Option.some.inj ht])

end Target

/-- A shader is changed for the line that is meant. -/
lemma Probe.instrument_of_resolve {config : Config} {settings : Variant.Settings} {source : Text}
    {line : Int} {shown : Option Text} {r : Nat}
    (h : Target.resolve (Text.lines source) line shown = some r) :
    instrument config settings source line shown = instrument config settings source r none := by
  unfold instrument
  dsimp only
  rw [h, Target.resolve_natCast (Target.lt_of_resolve h)]

/-- **The nearest line with the text is meant.**  Without a text, or with a blank one, the number
counts if it is in range.  With a text that some line has, the nearest such line is meant, and of
two at the same distance the one with the smaller number; a line that has the text is then meant by
its own number.  With a text that no line has, the number counts again.  What is meant is one of the
lines and is meant by its own number, and a shader is changed as for that number without a text. -/
theorem Target.resolve_nearest (lines : List Text) (line : Int) (shown : Option Text) :
    ((∀ text ∈ shown, Text.isBlankOnly text = true) →
      resolve lines line shown =
        if 0 ≤ line ∧ line < lines.length then some line.toNat else none) ∧
    (∀ text ∈ shown, Text.isBlankOnly text = false →
      ((∃ i, HasText lines text i) →
        ∃ i, resolve lines line shown = some i ∧ HasText lines text i ∧
          ∀ j, HasText lines text j → IsNearer line i j) ∧
      (∀ i : Nat, line = i → HasText lines text i → resolve lines line shown = some i) ∧
      ((∀ i, ¬HasText lines text i) →
        resolve lines line shown =
          if 0 ≤ line ∧ line < lines.length then some line.toNat else none)) ∧
    (∀ r, resolve lines line shown = some r →
      r < lines.length ∧ resolve lines r shown = some r) ∧
    ∀ (config : Config) (settings : Variant.Settings) (source : Text) (r : Nat),
      resolve (Text.lines source) line shown = some r →
        Probe.instrument config settings source line shown =
          Probe.instrument config settings source r none := by
  refine ⟨fun hblank => resolve_of_none fun text htext => .inl (hblank text htext), ?_,
    fun r hr => ⟨lt_of_resolve hr, resolve_resolve hr⟩,
    fun config settings source r hr => Probe.instrument_of_resolve hr⟩
  intro text htext hink
  obtain rfl : shown = some text := htext
  refine ⟨resolve_of_text line hink, ?_, fun hmissing => ?_⟩
  · rintro i rfl hi
    exact resolve_of_hasText hink hi
  · exact resolve_of_none fun t ht => .inr (by rwa [← Option.some.inj ht])

/-- An entry point with the same statement on two of its lines. -/
def Target.repeatedLine : Text :=
  "void mainImage(out vec4 O, in vec2 U) \x7b\n  float a;\n  a = 1.0; \n  O = vec4(a);\n" ++
    "  a = 1.0;\n\x7d"

/-- The entry point that shows what the second of these statements computes. -/
def Target.repeatedLineAnswer : Text :=
  "void mainImage(out vec4 O, in vec2 U) \x7b\n  float a;\n  a = 1.0; \n  O = vec4(a);\n" ++
    "  a = 1.0;\n  O = vec4(vec3(a), 1.0); // Debug: visualize float as grayscale\n\x7d"

/-- A request for line 7 means the nearer one of the two lines with the text, and a request for line
3, which lies between them, means the first.  The shader is changed as for the line that is meant.
-/
theorem Target.resolve_nearest_repeated :
    HasText (Text.lines repeatedLine) "a = 1.0;  " 2 ∧
    HasText (Text.lines repeatedLine) "a = 1.0;  " 4 ∧
    (∃ i, resolve (Text.lines repeatedLine) 7 (some "a = 1.0;  ") = some i ∧
      HasText (Text.lines repeatedLine) "a = 1.0;  " i ∧
      ∀ j, HasText (Text.lines repeatedLine) "a = 1.0;  " j → IsNearer 7 i j) ∧
    resolve (Text.lines repeatedLine) 7 (some "a = 1.0;  ") = some 4 ∧
    resolve (Text.lines repeatedLine) 4 (some "a = 1.0;  ") = some 4 ∧
    resolve (Text.lines repeatedLine) 3 (some "a = 1.0;  ") = some 2 ∧
    Probe.instrument {} {} repeatedLine 7 (some "a = 1.0;  ") =
      Probe.instrument {} {} repeatedLine 4 none ∧
    Probe.instrument {} {} repeatedLine 4 none = .ok (some repeatedLineAnswer) := by
  have hfirst : HasText (Text.lines repeatedLine) "a = 1.0;  " 2 :=
    ⟨"  a = 1.0; ", rfl, by decide⟩
  have hsecond : HasText (Text.lines repeatedLine) "a = 1.0;  " 4 :=
    ⟨"  a = 1.0;", rfl, by decide⟩
  have hlast : resolve (Text.lines repeatedLine) 7 (some "a = 1.0;  ") = some 4 := by
    decide +kernel
  obtain ⟨-, htext, hmeant, hshader⟩ :=
    resolve_nearest (Text.lines repeatedLine) 7 (some "a = 1.0;  ")
  exact ⟨hfirst, hsecond, (htext _ rfl (by decide)).1 ⟨2, hfirst⟩, hlast, (hmeant 4 hlast).2,
    by decide +kernel, hshader {} {} repeatedLine 4 hlast,
    eq_ok_of_toOption (by decide +kernel)⟩

end ShaderProbe
