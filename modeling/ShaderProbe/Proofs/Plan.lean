import Mathlib
import ShaderProbe.Proofs.Output
import ShaderProbe.Proofs.StatementLines

/-!
# What a request comes to

A request is answered in two steps.  The source and the line decide what is shown: nothing, the
value of a variable behind its statement, or the result of a whole helper (`Probe.plan`).  The caps,
expressions and color options of the request only matter when the plan is carried out
(`Probe.Plan.run`).  `Probe.instrument_eq_run` says that the two steps are the answer.

The first step never fails, and what it decides is known (`Probe.exists_plan`): a shown variable
belongs to a statement at a line of the function, so its `;` lies on that line or behind it.
-/

namespace ShaderProbe

namespace Probe

/-! ### Plans -/

/-- What is shown for a line. -/
inductive Plan where
  /-- Nothing is computed at the line. -/
  | nothing
  /-- The variable of the statement at a line of a function, which ends on the line `last`. -/
  | value (function : Signature) (line : Nat) (shown : Variable) (last : Nat)
  /-- The result of a helper. -/
  | result (function : Signature)
  deriving DecidableEq

/-- What is shown for a line of a function. -/
def planLine (config : Config) (lines : List Text) (function : Signature) (line : Nat) :
    Except Error Plan := do
  match ← Target.classify config shownKinds lines line none (some function) with
  | .declaration shown _ last | .assignment shown _ _ last => return .value function line shown last
  | .noMatch _ =>
    if function.isEntryPoint config then return .nothing
    else
      match ← ReturnStatement.find config.maxStatementLines lines line, function.returnsValue with
      | some returned, true =>
        return .value function line ⟨config.captured, function.returnType⟩ returned.endLine
      | _, returnsValue =>
        if returnsValue && Outline.inHeader lines function line then return .result function
        else return .nothing

/-- What is shown for a line of a source. -/
def plan (config : Config) (lines : List Text) (line : Int) (shown : Option Text) :
    Except Error Plan :=
  match Target.resolve lines line shown with
  | none => .ok .nothing
  | some line =>
    match Outline.enclosing? config lines line with
    | none => .ok .nothing
    | some function => planLine config lines function line

/-- The answer that carries out a plan. -/
def Plan.run (config : Config) (settings : Variant.Settings) (lines : List Text) :
    Plan → Except Error (Option Text)
  | .nothing => .ok none
  | .value function line shown last =>
    some <$> showVariable config settings lines function line shown last
  | .result function => some <$> Variant.wholeHelper config settings lines function

/-- **A request is answered by carrying out its plan.** -/
theorem instrument_eq_run (config : Config) (settings : Variant.Settings) (source : Text)
    (line : Int) (shown : Option Text) :
    instrument config settings source line shown =
      plan config (Text.lines source) line shown >>=
        Plan.run config settings (Text.lines source) := by
  rw [instrument, plan]
  cases Target.resolve (Text.lines source) line shown with
  | none => rfl
  | some target =>
    dsimp only
    cases Outline.enclosing? config (Text.lines source) target with
    | none => rfl
    | some function =>
      dsimp only
      rw [instrumentLine, planLine]
      cases Target.classify config shownKinds (Text.lines source) target none (some function) with
      | error e => rfl
      | ok found =>
        cases found with
        | declaration v first last => rfl
        | assignment v operator first last => rfl
        | noMatch cause =>
          simp only [bind, Except.bind]
          split
          · rfl
          · rw [showReturn]
            cases ReturnStatement.find config.maxStatementLines (Text.lines source) target with
            | error e => rfl
            | ok returned =>
              cases returned with
              | none =>
                simp only [bind, Except.bind]
                split <;> rfl
              | some returned =>
                cases function.returnsValue with
                | true => rfl
                | false => rfl

end Probe

/-! ### Searches that find an answer -/

/-- The line that is meant is one of the lines. -/
lemma Target.lt_of_resolve {lines : List Text} {line : Int} {shown : Option Text} {target : Nat}
    (h : resolve lines line shown = some target) : target < lines.length := by
  have hrange : ∀ {k}, inRange? lines line = some k → k < lines.length := by
    intro k hk
    obtain ⟨hrange, rfl⟩ := Option.ite_some_none_eq_some.mp hk
    simp only [inRange, Bool.and_eq_true, decide_eq_true_eq] at hrange
    omega
  have hnearest : ∀ {is : List Nat} {k}, nearest? line is = some k → k ∈ is := by
    intro is
    induction is with
    | nil => exact fun h => absurd h (by simp [nearest?])
    | cons i is ih =>
      intro k hk
      rw [nearest?] at hk
      split at hk
      · exact Option.some.inj hk ▸ List.mem_cons_self
      · rename_i j hj
        split at hk
        · exact Option.some.inj hk ▸ List.mem_cons_of_mem i (ih hj)
        · exact Option.some.inj hk ▸ List.mem_cons_self
  rw [resolve] at h
  split at h
  · exact hrange h
  · exact hrange h
  · rename_i wanted _ _
    cases hfound : nearest? line (matching lines wanted) with
    | none =>
      rw [hfound] at h
      exact hrange h
    | some k =>
      rw [hfound] at h
      obtain rfl : k = target := Option.some.inj h
      exact List.mem_range.mp (List.mem_of_mem_filter (hnearest hfound))

/-- A line of the text can be searched for a statement. -/
lemma Statement.exists_find (max : Int) {lines : List Text} {line : Nat} (h : line < lines.length) :
    ∃ statement, Statement.find max (Comment.strip lines) line = .ok statement := by
  have hcode : line < (Comment.strip lines).length := by rwa [Comment.length_strip]
  have hline : lineAt (Comment.strip lines) line = .ok (Comment.strip lines)[line] :=
    lineAt_eq_ok_iff.mpr (List.getElem?_eq_getElem hcode)
  rw [Statement.find, hline]
  exact ⟨_, rfl⟩

/-- Any line can be searched for a returned value. -/
lemma ReturnStatement.exists_find (max : Int) (lines : List Text) (line : Int) :
    ∃ returned, ReturnStatement.find max lines line = .ok returned := by
  rw [ReturnStatement.find]
  split
  · rename_i hrange
    have hline : line.toNat < lines.length := by omega
    obtain ⟨statement, hstatement⟩ := Statement.exists_find max hline
    rw [hstatement]
    exact ⟨_, rfl⟩
  · exact ⟨_, rfl⟩

/-- Any line can be searched for the end of a statement. -/
lemma Statement.exists_endAt (max : Int) (lines : List Text) (line : Int) :
    ∃ last, Statement.endAt max lines line = .ok last := by
  rw [Statement.endAt]
  split
  · rename_i hrange
    have hline : line.toNat < lines.length := by omega
    obtain ⟨statement, hstatement⟩ := Statement.exists_find max hline
    rw [hstatement]
    exact ⟨_, rfl⟩
  · exact ⟨_, rfl⟩

/-- A type is looked up from any line of the text. -/
lemma TypeLookup.exists_resolve {code : List Text} {name : Text} {before : Nat}
    {function : Signature} (hbefore : before ≤ code.length)
    (hfunction : function.startLine ≤ code.length) :
    ∃ type, TypeLookup.resolve code name before (some function) = .ok type := by
  unfold TypeLookup.resolve
  dsimp only [Option.map_some, Option.getD_some]
  have hnear : ¬(function.startLine < before ∧ code.length < before) := by omega
  rw [if_neg hnear]
  cases backward? name 0 ((code.take before).drop function.startLine).reverse with
  | some type => exact ⟨_, rfl⟩
  | none =>
    dsimp only
    split
    · exact ⟨_, rfl⟩
    · exact ⟨_, if_neg (by omega)⟩

/-- A statement of the text is classified. -/
lemma Statement.exists_classify {code : List Text} {function : Signature} {s : Statement}
    (hs : s.startLine ≤ code.length) (hfunction : function.startLine ≤ code.length)
    (kinds : List Kind) : ∃ found, s.classify code (some function) kinds = .ok found := by
  induction kinds with
  | nil => exact ⟨_, rfl⟩
  | cons kind kinds ih =>
    have hkind : ∃ found, classifyAs code (some function) s kind = .ok found := by
      cases kind with
      | declaration => exact ⟨_, rfl⟩
      | assignment =>
        rw [classifyAs]
        split
        · exact ⟨_, rfl⟩
        · obtain ⟨type, htype⟩ := TypeLookup.exists_resolve hs hfunction
          rw [htype]
          exact ⟨_, rfl⟩
    obtain ⟨found, hfound⟩ := hkind
    rw [classify, hfound]
    cases found with
    | none => exact ih
    | some found => exact ⟨_, rfl⟩

namespace Outline

variable {config : Config} {lines : List Text} {line : Int} {f : Signature}

/-- A function starts on a line of the text. -/
lemma lt_of_mem_functions (h : f ∈ functions config lines) : f.startLine < lines.length := by
  have hcode := ofCode?_of_mem_functionsFrom h
  rw [Signature.ofCode?] at hcode
  simp only [Option.bind_eq_bind, Option.bind_eq_some_iff] at hcode
  obtain ⟨text, htext, -⟩ := hcode
  have hlt := (List.getElem?_eq_some_iff.mp htext).1
  rwa [Comment.length_strip] at hlt

/-- The function around a line starts there or in front of it. -/
lemma startLine_le_of_enclosing? (h : enclosing? config lines line = some f) :
    (f.startLine : Int) ≤ line := by
  have hin : ∀ {count : Nat} {fs : List Signature}, enclosingIn? count line fs = some f →
      (f.startLine : Int) ≤ line := by
    intro count fs
    induction fs with
    | nil => exact fun h => absurd h (by simp [enclosingIn?])
    | cons g fs ih =>
      intro h
      rw [enclosingIn?] at h
      split at h
      · rename_i hrange
        obtain rfl := Option.some.inj h
        exact hrange.1
      · split at h
        · exact absurd h (by simp)
        · exact ih h
  exact hin h

end Outline

/-- A line of a function is classified. -/
lemma Target.exists_classify (config : Config) (kinds : List Statement.Kind) {lines : List Text}
    {line : Nat} {function : Signature} (hline : line < lines.length)
    (hfunction : function.startLine ≤ lines.length) :
    ∃ found, classify config kinds lines line none (some function) = .ok found := by
  rw [classify, resolve_natCast hline]
  dsimp only
  obtain ⟨statement, hfind⟩ := Statement.exists_find config.maxStatementLines hline
  rw [hfind]
  cases statement with
  | none => exact ⟨_, rfl⟩
  | some s =>
    obtain ⟨-, -, -, hstart, -, -, -⟩ := Statement.bounds_of_find hfind
    refine Statement.exists_classify ?_ ?_ kinds
    · rw [Comment.length_strip]
      omega
    · rwa [Comment.length_strip]

namespace Probe

/-- What is known of a plan for a line of a function. -/
inductive Plan.IsFor (lines : List Text) (function : Signature) (line : Nat) : Plan → Prop
  | nothing : IsFor lines function line .nothing
  | value {shown : Variable} {s : Statement}
      (hfind : Statement.find ({} : Config).maxStatementLines (Comment.strip lines) line =
        .ok (some s))
      (hshown : shown.IsPlain) (hknown : function.KnowsType shown.type)
      (hcapture : Variant.IsCapturable lines line shown) :
      IsFor lines function line (.value function line shown s.endLine)
  | result (hhelper : function.isEntryPoint {} = false) :
    IsFor lines function line (.result function)

/-- The plan for a line of a function. -/
lemma exists_planLine {lines : List Text} {function : Signature} {line : Nat}
    (hline : line < lines.length) (hfunction : Outline.enclosing? {} lines line = some function) :
    ∃ p, planLine {} lines function line = .ok p ∧ p.IsFor lines function line := by
  have hplain := Outline.isPlain_of_enclosing? hfunction
  have hstart := Outline.startLine_le_of_enclosing? hfunction
  have hfirst : function.startLine ≤ lines.length := by omega
  obtain ⟨found, hfound⟩ := Target.exists_classify {} shownKinds hline hfirst
  -- the statement of a shown variable, and what its classification says about the variable
  have hvalue : ∀ {shown : Variable} {first last : Nat}, found.variable? = some shown →
      found.span? = some (first, last) →
      Plan.IsFor lines function line (.value function line shown last) := by
    intro shown first last hshown hspan
    obtain ⟨hv, hknown, hcases⟩ := Target.cases_of_classify hplain hshown hfound
    obtain ⟨s, hfind, hlines, -⟩ := Target.find_of_classify hfound hspan
    obtain ⟨-, rfl⟩ := Prod.mk.inj hlines
    refine .value hfind hv hknown (hcases.imp_left fun htype => ?_)
    exact Text.not_mem_of_isWordChar (GlslType.isWordChar_of_mem htype) (by decide)
  rw [planLine, hfound]
  cases found with
  | declaration shown first last => exact ⟨_, rfl, hvalue rfl rfl⟩
  | assignment shown operator first last => exact ⟨_, rfl, hvalue rfl rfl⟩
  | noMatch cause =>
    simp only [bind, Except.bind]
    split
    · exact ⟨_, rfl, .nothing⟩
    · rename_i hhelper
      obtain ⟨returned, hreturned⟩ :=
        ReturnStatement.exists_find ({} : Config).maxStatementLines lines line
      rw [hreturned]
      dsimp only
      split
      · rename_i statement hvalue
        refine ⟨_, rfl, ?_⟩
        rw [ReturnStatement.find, if_pos (by omega), Int.toNat_natCast] at hreturned
        obtain ⟨found, hfind, hreturned⟩ := bind_eq_ok_iff.mp hreturned
        cases found with
        | none => exact absurd (Except.ok.inj hreturned) (by simp)
        | some s =>
          obtain ⟨expression, -, rfl⟩ := Option.map_eq_some_iff.mp (Except.ok.inj hreturned)
          have hword := Text.isWordChar_of_isIdent hplain.returnType
          exact .value hfind
            ⟨(by decide : Text.isIdent ({} : Config).captured = true),
              Text.not_mem_of_isIdent hplain.returnType⟩ (.inr (.inl rfl))
            (.inl (Text.not_mem_of_isWordChar hword (by decide)))
      · split
        · exact ⟨_, rfl, .result (by simpa using hhelper)⟩
        · exact ⟨_, rfl, .nothing⟩

/-- **Every request has a plan**: nothing is shown outside of functions, and the plan for a line of
a function is known. -/
theorem exists_plan (lines : List Text) (line : Int) (shown : Option Text) :
    plan {} lines line shown = .ok .nothing ∨
      ∃ target function p, Target.resolve lines line shown = some target ∧
        Outline.enclosing? {} lines target = some function ∧
          planLine {} lines function target = .ok p ∧ plan {} lines line shown = .ok p ∧
            p.IsFor lines function target := by
  rw [plan]
  cases htarget : Target.resolve lines line shown with
  | none => exact .inl rfl
  | some target =>
    dsimp only
    cases hfunction : Outline.enclosing? {} lines target with
    | none => exact .inl rfl
    | some function =>
      obtain ⟨p, hp, hfor⟩ := exists_planLine (Target.lt_of_resolve htarget) hfunction
      exact .inr ⟨target, function, p, rfl, hfunction, hp, hp, hfor⟩

end Probe

end ShaderProbe
