import Mathlib
import ShaderProbe.Proofs.Output

/-!
# What a synthesized call passes

The arguments of a call are put together in one pass over the parameters with two counters: the
position of a parameter, which names its local, and its number among the parameters that can be
configured, which selects its override.  `CallArguments.argumentsFrom_eq` takes the pass apart: the
argument at a position depends on the parameter there and on the number of configurable parameters
in front of it (`CallArguments.visibleBefore`), and on nothing else.

The main statement is `CallArguments.of_eq_passing`.  It describes the arguments and everything that
is set up for them, and says that an override reaches the parameter that the summary of the function
lists under its number.
-/

namespace ShaderProbe

namespace Text

/-- The word stands in the text with no word character next to it. -/
def ContainsWord (w t : Text) : Prop :=
  ∃ before after, t = before ++ (w ++ after) ∧ startsWord before.reverse = false ∧
    startsWord after = false

/-- The last character of a longer front. -/
lemma startsWord_reverse_cons (c : Char) (t : Text) :
    startsWord (c :: t).reverse = if t = [] then isWordChar c else startsWord t.reverse := by
  rw [List.reverse_cons]
  cases h : t.reverse with
  | nil =>
    rw [if_pos (List.reverse_eq_nil_iff.mp h)]
    rfl
  | cons d u =>
    rw [if_neg (by rintro rfl; exact absurd h (by simp))]
    rfl

/-- Where a word is found, no word character stands next to it. -/
lemma startsWord_of_splitAtWordFrom {w t front rest : Text} {inWord : Bool}
    (h : splitAtWordFrom w inWord t = some (front, rest)) :
    startsWord rest = false ∧
      (if front = [] then inWord else startsWord front.reverse) = false := by
  induction t generalizing inWord front with
  | nil => exact absurd h (by simp [splitAtWordFrom])
  | cons c t ih =>
    unfold splitAtWordFrom at h
    split at h
    · rename_i found hread
      simp only [Option.some.injEq, Prod.mk.injEq] at h
      rw [← h.1, ← h.2, if_pos rfl]
      cases inWord with
      | true => exact absurd hread (by simp)
      | false =>
        rw [if_neg (by simp), readWord?, Option.filter_eq_some_iff] at hread
        exact ⟨by simpa using hread.2, rfl⟩
    · rw [Option.map_eq_some_iff] at h
      obtain ⟨found, hfound, heq⟩ := h
      simp only [Prod.mk.injEq] at heq
      have hfound' : splitAtWordFrom w (isWordChar c) t = some (found.1, rest) := by
        rw [hfound, ← heq.2]
      rw [← heq.1, if_neg (by simp), startsWord_reverse_cons]
      exact ih hfound'

/-- A word is found exactly in the texts that contain it. -/
lemma hasWord_iff_containsWord {w : Text} (hw : w ≠ []) (t : Text) :
    hasWord w t = true ↔ ContainsWord w t := by
  rw [hasWord, splitAtWord, Option.isSome_iff_exists]
  constructor
  · rintro ⟨⟨front, rest⟩, h⟩
    have hends := startsWord_of_splitAtWordFrom h
    refine ⟨front, rest, (append_of_splitAtWordFrom h).symm, ?_, hends.1⟩
    by_cases hfront : front = []
    · rw [hfront]
      rfl
    · rw [if_neg hfront] at hends
      exact hends.2
  · rintro ⟨before, after, rfl, hbefore, hafter⟩
    rw [← Option.isSome_iff_exists]
    exact splitAtWordFrom_isSome hw hafter before false (fun _ => rfl) hbefore

end Text

namespace CallArguments

variable {config : Config} {overrides : Overrides} {parameters : List Parameter}

/-! ### The arguments by position -/

/-- The number of parameters in front of a position that can be configured. -/
def visibleBefore (parameters : List Parameter) (position : Nat) : Nat :=
  (parameters.take position).countP fun p => !p.isOutput

/-- The value for the parameter at a position.  A parameter that is only written has none; for any
other one it is what its number among the configurable parameters is mapped to, which may be
nothing, and otherwise the parameter's own. -/
def chosen (overrides : Overrides) (parameters : List Parameter) (position : Nat) (p : Parameter) :
    Option Text :=
  if p.qualifier = .output then none
  else (overrides.lookup (visibleBefore parameters position : Int)).getD p.value

/-- How a parameter is served by a call. -/
inductive Passing where
  /-- The value itself is passed. -/
  | direct (value : Text)
  /-- A local is passed, with an initial value if there is one. -/
  | stored (initial : Option Text)

namespace Passing

/-- A value that is only read is passed itself; all else is stored in a local. -/
def of (qualifier : Qualifier) : Option Text → Passing
  | some value => if qualifier = .input then direct value else stored (some value)
  | none => stored none

/-- The local for the parameter at a position. -/
def localName (config : Config) (position : Nat) : Text :=
  config.storageStem ++ Text.ofNat position

/-- The expression that is passed. -/
def expression (config : Config) (position : Nat) : Passing → Text
  | direct value => value
  | stored _ => localName config position

/-- The declaration of the local, if one is passed. -/
def declaration? (config : Config) (position : Nat) (type : Text) : Passing → Option Text
  | direct _ => none
  | stored none => some (type ++ " " ++ localName config position ++ ";")
  | stored (some value) =>
    some (type ++ " " ++ localName config position ++ " = " ++ value ++ ";")

end Passing

/-- How the call serves the parameter at a position. -/
def passing (overrides : Overrides) (parameters : List Parameter) (position : Nat) (p : Parameter) :
    Passing :=
  .of p.qualifier (chosen overrides parameters position p)

/-- A parameter that is looked at adds one to the number of configurable ones, unless it is only
written. -/
lemma visibleBefore_cons (p : Parameter) (position : Nat) :
    visibleBefore (p :: parameters) (position + 1) =
      (if p.isOutput then 0 else 1) + visibleBefore parameters position := by
  unfold visibleBefore
  rw [List.take_succ_cons, List.countP_cons]
  cases p.isOutput <;> simp [Nat.add_comm]

/-- **The pass over the parameters**, position by position: the second counter is the number of
configurable parameters that have been passed. -/
lemma argumentsFrom_eq (parameters : List Parameter) (position visible : Nat) :
    argumentsFrom config overrides position visible parameters =
      parameters.mapIdx fun i p =>
        argument config (position + i) p
          (valueOf overrides (visible + visibleBefore parameters i) p) := by
  induction parameters generalizing position visible with
  | nil => rfl
  | cons p parameters ih =>
    rw [argumentsFrom, ih, List.mapIdx_cons]
    have hcount : ∀ i, (if p.isOutput then visible else visible + 1) + visibleBefore parameters i =
        visible + visibleBefore (p :: parameters) (i + 1) := by
      intro i
      rw [visibleBefore_cons]
      split <;> omega
    have hplace : ∀ i, position + 1 + i = position + (i + 1) := by
      intro i
      omega
    simp only [hcount, hplace]
    rfl

/-- The value of a parameter is looked up under its number. -/
lemma valueOf_eq_chosen (position : Nat) (p : Parameter) :
    valueOf overrides (visibleBefore parameters position) p =
      chosen overrides parameters position p := by
  have hlookup : ∀ (entries : Overrides) (key : Int),
      (entries.find? fun entry => entry.1 = key).map Prod.snd = entries.lookup key := by
    intro entries key
    induction entries with
    | nil => rfl
    | cons entry entries ih =>
      by_cases hkey : entry.1 = key
      · simp [List.lookup, hkey]
      · have hne : (key == entry.1) = false := by
          rw [beq_eq_false_iff_ne]
          exact fun h => hkey h.symm
        rw [List.find?_cons_of_neg (by simpa using hkey), ih, List.lookup, hne]
  unfold valueOf chosen Parameter.isOutput
  simp only [decide_eq_true_eq]
  rw [← hlookup]
  split
  · rfl
  · cases overrides.find? fun entry => entry.1 = (visibleBefore parameters position : Int) <;> rfl

/-- The parts of an argument are those of the way in which its parameter is served. -/
lemma argument_eq_passing (position : Nat) {p : Parameter} {value : Option Text}
    (hvalue : p.qualifier = .output → value = none) :
    argument config position p value =
      { text := (Passing.of p.qualifier value).expression config position
        storage := (Passing.of p.qualifier value).declaration? config position p.type
        value } := by
  cases value with
  | none => rfl
  | some v =>
    cases hq : p.qualifier with
    | input => simp [argument, Passing.of, Passing.expression, Passing.declaration?, hq]
    | output => exact absurd (hvalue hq) (by simp)
    | both =>
      simp [argument, Passing.of, Passing.expression, Passing.declaration?, Passing.localName, hq]

/-- The argument for the parameter at a position. -/
def argumentAt (config : Config) (overrides : Overrides) (parameters : List Parameter)
    (position : Nat) (p : Parameter) : Argument :=
  { text := (passing overrides parameters position p).expression config position
    storage := (passing overrides parameters position p).declaration? config position p.type
    value := chosen overrides parameters position p }

/-- **The arguments of a call by the positions of the parameters.** -/
lemma arguments_eq_mapIdx (parameters : List Parameter) :
    argumentsFrom config overrides 0 0 parameters =
      parameters.mapIdx (argumentAt config overrides parameters) := by
  rw [argumentsFrom_eq]
  refine List.mapIdx_eq_mapIdx_iff.mpr fun i hi => ?_
  rw [Nat.zero_add, Nat.zero_add, valueOf_eq_chosen]
  refine argument_eq_passing i fun houtput => ?_
  unfold chosen
  rw [if_pos houtput]

/-- A part of every argument, by the positions of the parameters. -/
lemma map_arguments {α : Type} (part : Argument → α) (parameters : List Parameter) :
    (argumentsFrom config overrides 0 0 parameters).map part =
      parameters.mapIdx fun i p => part (argumentAt config overrides parameters i p) := by
  rw [arguments_eq_mapIdx]
  refine List.ext_getElem? fun i => ?_
  rw [List.getElem?_map, List.getElem?_mapIdx, List.getElem?_mapIdx, Option.map_map]
  rfl

/-! ### The coordinates -/

/-- A value that the call passes or stores contains the word. -/
def Uses (overrides : Overrides) (parameters : List Parameter) (word : Text) : Prop :=
  ∃ i p value, parameters[i]? = some p ∧ chosen overrides parameters i p = some value ∧
    Text.ContainsWord word value

/-- The lines are the given one if it is needed, and none otherwise. -/
def IsSetup (needed : Prop) (line : Text) (lines : List Text) : Prop :=
  (needed ∧ lines = [line]) ∨ (¬needed ∧ lines = [])

/-- A coordinate variable is set up exactly if a value uses it. -/
lemma isSetup_coordinates (config : Config) {name : Text} (hname : name ≠ []) (line : Text) :
    IsSetup (Uses overrides parameters name) line
      (coordinates (argumentsFrom config overrides 0 0 parameters) name line) := by
  have huses : ((argumentsFrom config overrides 0 0 parameters).any fun argument =>
      argument.value.any (Text.hasWord name)) = true ↔ Uses overrides parameters name := by
    rw [arguments_eq_mapIdx, List.any_eq_true]
    constructor
    · rintro ⟨argument, hmem, hany⟩
      obtain ⟨i, hi, rfl⟩ := List.mem_mapIdx.mp hmem
      obtain ⟨value, hvalue, hword⟩ := (Option.any_eq_true _ _).mp hany
      exact ⟨i, _, value, List.getElem?_eq_getElem hi, hvalue,
        (Text.hasWord_iff_containsWord hname value).mp hword⟩
    · rintro ⟨i, p, value, hp, hvalue, hword⟩
      obtain ⟨hi, rfl⟩ := List.getElem?_eq_some_iff.mp hp
      refine ⟨_, List.mem_mapIdx.mpr ⟨i, hi, rfl⟩, (Option.any_eq_true _ _).mpr ⟨value, hvalue, ?_⟩⟩
      exact (Text.hasWord_iff_containsWord hname value).mpr hword
  unfold coordinates
  split
  · rename_i hany
    exact .inl ⟨huses.mp hany, rfl⟩
  · rename_i hany
    exact .inr ⟨fun h => hany (huses.mpr h), rfl⟩

/-! ### The numbers of the listed parameters -/

/-- A parameter that is listed under a number stands at a position with as many configurable
parameters in front of it. -/
lemma exists_position {k : Nat} {p : Parameter}
    (h : (parameters.filter fun p => !p.isOutput)[k]? = some p) :
    ∃ i, parameters[i]? = some p ∧ visibleBefore parameters i = k ∧ p.qualifier ≠ .output := by
  induction parameters generalizing k with
  | nil => exact absurd h (by simp)
  | cons q parameters ih =>
    by_cases hq : q.isOutput = true
    · rw [List.filter_cons_of_neg (by simp [hq])] at h
      obtain ⟨i, hi, hcount, hp⟩ := ih h
      refine ⟨i + 1, hi, ?_, hp⟩
      rw [visibleBefore_cons, if_pos hq, hcount, Nat.zero_add]
    · rw [List.filter_cons_of_pos (by simpa using hq)] at h
      cases k with
      | zero =>
        obtain rfl : q = p := by simpa using h
        exact ⟨0, rfl, rfl, by simpa [Parameter.isOutput] using hq⟩
      | succ k =>
        obtain ⟨i, hi, hcount, hp⟩ := ih h
        refine ⟨i + 1, hi, ?_, hp⟩
        rw [visibleBefore_cons, if_neg hq, hcount, Nat.add_comm]

/-- The summary of a function lists its configurable parameters. -/
lemma exists_function_of_context {source : Text} {line : Int} {context : Probe.Context}
    (h : Probe.context config source line = .ok (some context)) :
    ∃ function, Outline.enclosing? config (Text.lines source) line = some function ∧
      context.parameters = function.visibleParameters := by
  unfold Probe.context at h
  dsimp only at h
  split at h
  · exact absurd h (by simp)
  · rename_i function hfunction
    refine ⟨function, hfunction, ?_⟩
    cases hloops : Probe.loopsAround config (Text.lines source) function line with
    | error e =>
      rw [hloops] at h
      exact absurd h (by simp [bind, Except.bind])
    | ok loops =>
      rw [hloops] at h
      simp only [bind, Except.bind, pure, Except.pure, Except.ok.injEq, Option.some.injEq] at h
      rw [← h]

/-- **A call passes the right argument for every parameter.**  There is one argument for each
parameter, in order: the value itself where it is only read, and a local everywhere else.  In front
of the call the coordinates are set up that a value uses, and then the locals are declared, in order
and nothing else.  An override reaches the parameter that is listed under its number. -/
theorem of_eq_passing (config : Config) (signature : Signature) (overrides : Overrides) :
    (of config signature.parameters overrides).args =
        signature.parameters.mapIdx (fun i p =>
          (passing overrides signature.parameters i p).expression config i) ∧
      (∃ uv centeredUv, IsSetup (Uses overrides signature.parameters "uv") config.uvSetup uv ∧
        IsSetup (Uses overrides signature.parameters "centeredUv") config.centeredUvSetup
          centeredUv ∧
        (of config signature.parameters overrides).setup = uv ++ centeredUv ++
          (signature.parameters.mapIdx fun i p =>
            (passing overrides signature.parameters i p).declaration? config i
              p.type).reduceOption) ∧
      ∀ (source : Text) (line : Int) (context : Probe.Context),
        Probe.context config source line = .ok (some context) →
          ∃ function, Outline.enclosing? config (Text.lines source) line = some function ∧
            ∀ (k : Nat) (p : Parameter), context.parameters[k]? = some p →
              ∃ i, function.parameters[i]? = some p ∧ visibleBefore function.parameters i = k ∧
                ∀ value, overrides.lookup (k : Int) = some value →
                  chosen overrides function.parameters i p = value := by
  refine ⟨?_, ⟨_, _, isSetup_coordinates config (by decide) config.uvSetup,
    isSetup_coordinates config (by decide) config.centeredUvSetup, ?_⟩, ?_⟩
  · unfold of
    exact map_arguments Argument.text signature.parameters
  · have hstored : (argumentsFrom config overrides 0 0 signature.parameters).map Argument.storage =
        signature.parameters.mapIdx fun i p =>
          (passing overrides signature.parameters i p).declaration? config i p.type :=
      map_arguments Argument.storage signature.parameters
    unfold of
    rw [← hstored, List.reduceOption, List.filterMap_map]
    rfl
  · intro source line context hcontext
    obtain ⟨function, hfunction, hlisted⟩ := exists_function_of_context hcontext
    refine ⟨function, hfunction, fun k p hp => ?_⟩
    rw [hlisted, Signature.visibleParameters] at hp
    obtain ⟨i, hi, hcount, hread⟩ := exists_position hp
    refine ⟨i, hi, hcount, fun value hvalue => ?_⟩
    unfold chosen
    rw [if_neg hread, hcount, hvalue]
    rfl

/-- A function whose first parameter is only written. -/
def shiftedSource : Text := "float f(out float a, vec2 p, inout vec3 q) \x7b\n  return 1.0;\n\x7d"

/-- Its signature. -/
def shifted : Signature :=
  { name := "f"
    returnType := "float"
    parameters := [.ofType {} "a" "float" .output, .ofType {} "p" "vec2" .input,
      .ofType {} "q" "vec3" .both]
    endLine := some 2 }

/-- Nothing for the first parameter that can be configured, and a value for the second one. -/
def shiftedOverrides : Overrides := [(1, some "vec3(uv, 0.0)"), (0, none)]

/-- The overrides skip the parameter that is only written: the first one takes the value of `p`
away, and the second one is stored for `q`. -/
theorem of_eq_passing_shifted :
    (of {} shifted.parameters shiftedOverrides).args = ["_dbgOut0", "_dbgOut1", "_dbgOut2"] ∧
      ∃ context, Probe.context {} shiftedSource 1 = .ok (some context) ∧
        context.parameters[1]? = some (.ofType {} "q" "vec3" .both) ∧
        ∃ i, shifted.parameters[i]? = some (.ofType {} "q" "vec3" .both) ∧
          visibleBefore shifted.parameters i = 1 ∧
          chosen shiftedOverrides shifted.parameters i (.ofType {} "q" "vec3" .both) =
            some "vec3(uv, 0.0)" := by
  obtain ⟨hargs, -, hlisted⟩ := of_eq_passing {} shifted shiftedOverrides
  have hcontext : Probe.context {} shiftedSource 1 = .ok (some
      { functionName := "f", returnType := "float", parameters := shifted.visibleParameters,
        isHelper := true, loops := [] }) := eq_ok_of_toOption (by decide +kernel)
  obtain ⟨function, hfunction, hreach⟩ := hlisted shiftedSource 1 _ hcontext
  have hfound : Outline.enclosing? {} (Text.lines shiftedSource) 1 = some shifted := by
    decide +kernel
  obtain rfl : shifted = function := Option.some.inj (hfound.symm.trans hfunction)
  obtain ⟨i, hi, hcount, hvalue⟩ := hreach 1 (.ofType {} "q" "vec3" .both) (by decide +kernel)
  refine ⟨?_, _, hcontext, by decide +kernel, i, hi, hcount, hvalue _ (by decide)⟩
  rw [hargs]
  decide +kernel

end CallArguments

end ShaderProbe
