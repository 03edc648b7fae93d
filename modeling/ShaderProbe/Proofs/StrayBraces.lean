import Mathlib
import ShaderProbe.Proofs.CountedLines
import ShaderProbe.Proofs.Outcome
import ShaderProbe.Proofs.ShadowEdits

/-!
# Sources without stray braces

A request fails if a text closes more blocks than it opens.  This file asks when that can happen to
a source in which no `}` is stray, that is, every front of its code holds at least as many `{` as
`}`.

A function that stands apart from the rest of the source (`Outline.StandsApart`) is truncated
without closing more than it opens, whatever is put into it: its code from the header on is the end
of a front of the source.  A truncated copy, a helper and a synthesized entry point are each
completed on their own.  An entry point in place is completed too, but the lines behind its last one
follow, and these may close blocks that were opened on that last line.
`Probe.instrument_eq_error_iff` says that this is the only way in which such a request fails.
-/

namespace ShaderProbe

/-! ### Counting from a line on -/

namespace Text

/-- The braces of a text are those of its lines. -/
lemma braceDelta_ofLines (ls : List Text) : braceDelta (ofLines ls) = bracesOf ls := by
  induction ls with
  | nil => rfl
  | cons l ls ih =>
    cases ls with
    | nil => simp [ofLines_singleton]
    | cons l' ls =>
      have hfeed : braceDelta ('\n' :: ofLines (l' :: ls)) = braceDelta (ofLines (l' :: ls)) := by
        simp [braceDelta]
      rw [ofLines_cons_cons, braceDelta_append, hfeed, ih, bracesOf_cons l]

/-- The first lines make a front of the text. -/
lemma ofLines_take_isPrefix (ls : List Text) (n : Nat) : ofLines (ls.take n) <+: ofLines ls := by
  by_cases hfront : ls.take n = []
  · rw [hfront]
    exact List.nil_prefix
  · by_cases hback : ls.drop n = []
    · rw [List.take_of_length_le (List.drop_eq_nil_iff.mp hback)]
    · refine ⟨'\n' :: ofLines (ls.drop n), ?_⟩
      rw [← ofLines_append hfront hback, List.take_append_drop]

end Text

namespace Balance

/-- From a line on, only the lines behind it count, and the state of the comments there. -/
lemma openBlocks_eq_drop (lines : List Text) (start : Nat) :
    openBlocks lines start = Text.bracesOf
      (Comment.blankFrom (Comment.isOpenAfter false (lines.take start)) (lines.drop start)) := by
  rw [openBlocks_eq]
  by_cases hstart : start ≤ lines.length
  · conv_lhs => rw [← List.take_append_drop start lines, Comment.blankFrom_append]
    rw [List.drop_left' (by simp [hstart])]
  · rw [List.drop_eq_nil_of_le (by simpa using by omega), List.drop_eq_nil_of_le (by omega)]
    rfl

/-- What lines open, and what further lines open behind them. -/
lemma openBlocks_append_of_le {front : List Text} {start : Nat} (hstart : start ≤ front.length)
    (lines : List Text) : openBlocks (front ++ lines) start = openBlocks front start +
      Text.bracesOf (Comment.blankFrom (Comment.isOpenAfter false front) lines) := by
  rw [openBlocks_eq, openBlocks_eq, Comment.blankFrom_append,
    List.drop_append_of_le_length (by simpa using hstart), Text.bracesOf_append]

/-- The lines from `start` on, if no comment is open in front of them or behind them. -/
lemma hasBraces_drop {lines : List Text} {start : Nat}
    (hfront : Comment.isOpenAfter false (lines.take start) = false)
    (hback : Comment.isOpenAfter false lines = false) :
    Comment.HasBraces (lines.drop start) (openBlocks lines start) := by
  constructor
  · rw [openBlocks_eq_drop, hfront]
  · rw [← List.take_append_drop start lines, Comment.isOpenAfter_append, hfront] at hback
    exact hback

/-- Lines that open `n` blocks are completed. -/
lemma close_of_hasBraces {lines : List Text} {n : Nat} (h : Comment.HasBraces lines n) :
    close lines 0 = .ok (lines ++ List.replicate n ['}']) := by
  refine close_eq_ok_iff.mpr ⟨n, ?_, rfl⟩
  rw [openBlocks_eq, List.drop_zero, h.braces]

/-- Behind lines that leave no comment open, lines without braces are complete. -/
lemma exists_close {front lines : List Text} (hfront : Comment.isOpenAfter false front = false)
    (h : Comment.HasBraces lines 0) :
    ∃ result, close (front ++ lines) front.length = .ok result := by
  refine ⟨_, close_eq_ok_iff.mpr ⟨0, ?_, rfl⟩⟩
  rw [openBlocks_append, hfront, h.braces]
  rfl

/-- **The code of a source without stray braces**, from a line at depth zero on, closes no more
blocks than it opens up to any later line. -/
lemma openBlocks_take_nonneg {lines : List Text} {start n : Nat}
    (hstray : ∀ front, front <+: Text.ofLines (Comment.strip lines) → 0 ≤ Text.braceDelta front)
    (hdepth : Text.bracesOf ((Comment.strip lines).take start) = 0) (hn : start ≤ n) :
    0 ≤ openBlocks (lines.take n) start := by
  have hfront := hstray _ (Text.ofLines_take_isPrefix (Comment.strip lines) n)
  rw [Text.braceDelta_ofLines] at hfront
  have hsplit := Text.bracesOf_append (((Comment.strip lines).take n).take start)
    (((Comment.strip lines).take n).drop start)
  rw [List.take_append_drop, List.take_take, Nat.min_eq_left hn, hdepth] at hsplit
  rw [openBlocks, Comment.strip_take]
  omega

end Balance

/-! ### The types of a function -/

namespace Signature

/-- The type of a parameter is an identifier with an array size, which starts with a bracket. -/
lemma exists_of_parameter? {config : Config} {item : Text} {parameter : Parameter}
    (h : parameter? config item = some parameter) :
    ∃ type suffix : Text, Text.isIdent type = true ∧ isArraySuffix suffix = true ∧
      (∀ c ∈ suffix.head?, c = '[') ∧ parameter.type = type ++ suffix.filter (· != ' ') := by
  have hitem : ∀ {qualifier type name} {suffix : Text}, isArraySuffix suffix = true →
      (∀ c ∈ suffix.head?, c = '[') → item? config qualifier type name suffix = some parameter →
      ∃ type suffix : Text, Text.isIdent type = true ∧ isArraySuffix suffix = true ∧
        (∀ c ∈ suffix.head?, c = '[') ∧ parameter.type = type ++ suffix.filter (· != ' ') := by
    intro qualifier type name suffix hsuffix hhead h
    unfold item? at h
    split at h
    · rename_i hident
      rw [Bool.and_eq_true] at hident
      obtain rfl := Option.some.inj h
      exact ⟨type, suffix, hident.1, hsuffix, hhead, rfl⟩
    · exact absurd h (by simp)
  have hbracket : ∀ t : Text, ∀ c ∈ (t.dropWhile (· != '[')).head?, c = '[' := by
    intro t c hc
    have hnot := List.head?_dropWhile_not (· != '[') t
    rw [Option.mem_def.mp hc] at hnot
    simpa using hnot
  unfold parameter? at h
  dsimp only at h
  split at h
  · rename_i hsuffix
    unfold itemOfWords? at h
    split at h
    · exact hitem hsuffix (hbracket _) h
    · obtain ⟨qualifier, -, h⟩ := Option.bind_eq_some_iff.mp h
      exact hitem hsuffix (hbracket _) h
    · exact absurd h (by simp)
  · exact absurd h (by simp)

/-- The type of a parameter is solid if it is quiet. -/
lemma isSolid_of_parameter? {config : Config} {item : Text} {parameter : Parameter}
    (h : parameter? config item = some parameter) (hquiet : Comment.IsQuiet parameter.type) :
    Comment.isSolid parameter.type = true := by
  obtain ⟨type, suffix, hident, hsuffix, -, htype⟩ := exists_of_parameter? h
  have hsolid := Comment.isSolid_of_isIdent hident
  have hinset := Comment.isInset_of_isSolid hsolid
  have hne := Comment.ne_nil_of_isSolid hsolid
  rw [htype] at hquiet ⊢
  refine Comment.isSolid_of_isQuiet hquiet (List.append_ne_nil_of_left_ne_nil hne _) ?_ ?_
  · intro c hc
    rw [List.head?_append_of_ne_nil _ hne] at hc
    simpa [Comment.isBland] using hinset.head c hc
  · intro c hc
    rw [isArraySuffix, Bool.or_eq_true] at hsuffix
    rcases hsuffix with hempty | hbracket
    · rw [List.isEmpty_iff.mp hempty, List.filter_nil, List.append_nil] at hc
      simpa [Comment.isBland] using hinset.last c hc
    · -- an array size ends with a bracket
      have hsplit : suffix = suffix.takeWhile (· != ']') ++ [']'] := by
        conv_lhs => rw [← List.takeWhile_append_dropWhile (p := (· != ']')) (l := suffix)]
        rw [eq_of_beq hbracket]
      rw [hsplit, List.filter_append] at hc
      obtain rfl : ']' = c := by simpa using hc
      decide

end Signature

/-- The parameters of a function are read from items. -/
lemma Outline.exists_of_mem_parameters {config : Config} {lines : List Text} {f : Signature}
    (h : f ∈ functions config lines) {p : Parameter} (hp : p ∈ f.parameters) :
    ∃ item, Signature.parameter? config item = some p := by
  have hcode := ofCode?_of_mem_functionsFrom h
  rw [Signature.ofCode?] at hcode
  simp only [Option.bind_eq_bind, Option.bind_eq_some_iff] at hcode
  obtain ⟨text, -, header, -, hcode⟩ := hcode
  split at hcode
  · obtain ⟨list, -, hcode⟩ := Option.bind_eq_some_iff.mp hcode
    rw [← Option.some.inj hcode] at hp
    simp only [Signature.parseParameters] at hp
    split at hp
    · exact absurd hp List.not_mem_nil
    · obtain ⟨item, -, hitem⟩ := List.mem_filterMap.mp hp
      exact ⟨item, hitem⟩
  · exact absurd hcode (by simp)

/-- The types that a function knows are solid if those of its parameters are. -/
lemma Signature.KnowsType.isSolid {function : Signature} {type : Text}
    (h : function.KnowsType type) (hfunction : function.IsPlain)
    (htypes : ∀ p ∈ function.parameters, Comment.isSolid p.type = true) :
    Comment.isSolid type = true := by
  rcases h with hkeyword | rfl | ⟨p, hp, rfl⟩
  · exact (by decide : ∀ t ∈ GlslType.variableKeywords, Comment.isSolid t = true) type hkeyword
  · exact Comment.isSolid_of_isIdent hfunction.returnType
  · exact htypes p hp

/-! ### Truncation -/

/-- A character of the code stays one if the lines up to its own stay. -/
lemma Position.IsCode.of_take {lines lines' : List Text} {start : Nat} {place : Position}
    (h : place.IsCode lines start)
    (htake : lines'.take (place.line + 1) = lines.take (place.line + 1)) :
    place.IsCode lines' start := by
  obtain ⟨hstart, l, c, hl, hblank, hc⟩ := h
  have hfront : lines'.take place.line = lines.take place.line := by
    have := congrArg (List.take place.line) htake
    rwa [List.take_take, List.take_take, Nat.min_eq_left (Nat.le_succ _)] at this
  have hline : lines'[place.line]? = lines[place.line]? := by
    have := congrArg (·[place.line]?) htake
    simpa [List.getElem?_take] using this
  exact ⟨hstart, l, c, hline.trans hl, hblank, by rwa [hfront]⟩

/-- The loop starts in front of a line, and its keyword is a word of the code. -/
structure Loop.StartsBefore (lines : List Text) (start target : Nat) (loop : Loop) : Prop where
  headerLine_lt : loop.headerLine < target
  keyword : ∃ k, loop.keyword = some ⟨loop.headerLine, k⟩ ∧
    Position.IsCode lines start ⟨loop.headerLine, k⟩

namespace Shadow

variable {lines : List Text} {start target k : Nat} {shown : Variable} {d a : Edit}

/-- The declaration stands next to the code and closes no block. -/
lemma Declares.isBeside {loop : Loop} (h : Declares lines loop k
      (shown.type ++ " " ++ ({} : Config).shadow ++ ";") d)
    (hcode : Position.IsCode lines start ⟨loop.headerLine, k⟩)
    (htype : Comment.isSolid shown.type = true) :
    d.IsBeside lines start ∧ 0 ≤ Text.braceDelta d.text := by
  have hsolid : Comment.isSolid
      (shown.type ++ " ".toList ++ ({} : Config).shadow ++ ";".toList) = true :=
    Comment.isSolid_append (Comment.isSolid_append (Comment.isSolid_append htype (by decide))
      (by decide)) (by decide)
  have hspace := Comment.isSolid_append hsolid (by decide : Comment.isSolid [' '] = true)
  rcases h with rfl | ⟨gap, code, hgap, -, rfl, -, -⟩
  · constructor
    · refine hcode.inFront (Comment.IsInset.append ?_ (Comment.isInset_of_isSolid hspace))
      refine .of_plain fun c hc => ?_
      split at hc
      · exact (by simp : ∀ c ∈ "\x7b ".toList, c ≠ '/' ∧ c ≠ '*') c hc
      · exact absurd hc List.not_mem_nil
    · have hdelta := (Comment.isQuiet_of_isSolid hspace).braceDelta
      change 0 ≤ Text.braceDelta (_ ++ _)
      rw [Text.braceDelta_append, hdelta]
      split <;> decide
  · have hline : Comment.IsQuiet (gap ++ (shown.type ++ " ".toList ++ ({} : Config).shadow ++
        ";".toList)) := by
      exact (Comment.isQuiet_of_isBlankOnly hgap).append_isSolid hsolid
    exact ⟨hcode.above hline, hline.braceDelta.ge⟩

/-- The assignment stands next to the code and holds no brace. -/
lemma Assigns.isBeside
    (h : Assigns {} lines target (({} : Config).shadow ++ " = " ++ shown.name ++ ";") a)
    (hstart : start ≤ target) (hname : Text.isIdent shown.name = true) :
    a.IsBeside lines start ∧ Text.braceDelta a.text = 0 := by
  have hsolid : Comment.isSolid
      (({} : Config).shadow ++ " = ".toList ++ shown.name ++ ";".toList) = true :=
    Comment.isSolid_append (Comment.isSolid_append (by decide)
      (Comment.isSolid_of_isIdent hname)) (by decide)
  obtain ⟨l, hl, ⟨column, hend, -, rfl⟩ | ⟨rfl, -⟩⟩ := h
  · have hspace := Comment.isSolid_append (by decide : Comment.isSolid [' '] = true) hsolid
    obtain ⟨n, code, -, -, -, hsemi, hplace⟩ := exists_offset_of_endAt hend hstart
    have hcode := Position.isCode_locate hsemi (by decide)
    rw [hplace] at hcode
    exact ⟨hcode.behind (Comment.isInset_of_isSolid hspace),
      (Comment.isQuiet_of_isSolid hspace).braceDelta⟩
  · have hline : Comment.IsQuiet (Text.indent l ++ (({} : Config).shadow ++ " = ".toList ++
        shown.name ++ ";".toList)) := by
      exact (Comment.isQuiet_of_isBlankOnly (Text.isBlankOnly_indent l)).append_isSolid hsolid
    exact ⟨⟨hstart, l, hl, hline⟩, hline.braceDelta⟩

/-- The two statements that carry a value out of loops are put next to the code. -/
lemma exists_isBeside_of_insert {loops : List Loop} {outermost : Loop} {count : Nat}
    {marked : List Text} {shadow : Option Text} (htarget : target < lines.length)
    (hstart : start ≤ target) (hmost : Loop.outermost? loops = some outermost)
    (hlies : outermost.LiesIn start count)
    (hkeyword : outermost.keyword = some ⟨outermost.headerLine, k⟩)
    (hcode : Position.IsCode lines start ⟨outermost.headerLine, k⟩)
    (hplace : outermost.headerLine < target ∨ outermost.headerLine = target ∧ ∀ column,
      Statement.endAt ({} : Config).maxStatementLines lines target = .ok (some ⟨target, column⟩) →
        k ≤ column)
    (hname : Text.isIdent shown.name = true) (htype : Comment.isSolid shown.type = true)
    (h : insert {} lines target shown loops = .ok (marked, shadow)) :
    ∃ d a : Edit, marked = Edit.apply [d, a] lines ∧ shadow = some ({} : Config).shadow ∧
      Declares lines outermost k (shown.type ++ " " ++ ({} : Config).shadow ++ ";") d ∧
      Assigns {} lines target (({} : Config).shadow ++ " = " ++ shown.name ++ ";") a ∧
      ∀ e ∈ [d, a], e.IsBeside lines start := by
  obtain ⟨source, hsource, hk⟩ := hcode.exists_line
  obtain ⟨d, a, hinsert, hd, ha⟩ :=
    exists_edits_of_insert {} shown hmost hlies hkeyword hsource hk.le
    (List.getElem?_eq_getElem htarget) hplace
  rw [hinsert] at h
  obtain ⟨rfl, rfl⟩ := Prod.mk.inj (Except.ok.inj h)
  refine ⟨d, a, rfl, rfl, hd, ha, ?_⟩
  simp only [List.mem_cons, List.not_mem_nil, or_false]
  rintro e (rfl | rfl)
  · exact (hd.isBeside hcode htype).1
  · exact (ha.isBeside hstart hname).1

/-- **Carrying a value out of loops that start in front of its line closes no block** and leaves the
comments as they are. -/
theorem openBlocks_of_insert {loops : List Loop} {count : Nat} {marked : List Text}
    {shadow : Option Text} (htarget : target < lines.length) (hstart : start ≤ target)
    (hlies : ∀ loop ∈ loops, loop.LiesIn start count)
    (hfront : ∀ loop ∈ loops, loop.StartsBefore lines start target)
    (hname : Text.isIdent shown.name = true) (htype : Comment.isSolid shown.type = true)
    (h : insert {} lines target shown loops = .ok (marked, shadow)) :
    Balance.openBlocks lines start ≤ Balance.openBlocks marked start ∧
      Comment.isOpenAfter false marked = Comment.isOpenAfter false lines ∧
      ∀ name ∈ shadow, name = ({} : Config).shadow := by
  cases hmost : Loop.outermost? loops with
  | none =>
    unfold insert at h
    rw [hmost] at h
    obtain ⟨rfl, rfl⟩ := Prod.mk.inj (Except.ok.inj h)
    exact ⟨le_rfl, rfl, by simp⟩
  | some outermost =>
    have hmem := Loop.mem_of_outermost? hmost
    obtain ⟨hlt, k, hkeyword, hcode⟩ := hfront outermost hmem
    obtain ⟨d, a, rfl, rfl, hd, ha, hbeside⟩ := exists_isBeside_of_insert htarget hstart hmost
      (hlies outermost hmem) hkeyword hcode (.inl hlt) hname htype h
    obtain ⟨-, hdelta⟩ := hd.isBeside hcode htype
    obtain ⟨-, hdelta'⟩ := ha.isBeside hstart hname
    obtain ⟨hblocks, hopen⟩ := Edit.openBlocks_apply hbeside
    refine ⟨?_, hopen, by simp⟩
    simp only [List.map_cons, List.map_nil, List.sum_cons, List.sum_nil, hdelta'] at hblocks
    omega

end Shadow

namespace Variant

variable {settings : Settings} {lines : List Text} {function : Signature} {shown : Variable}
  {loops : List Loop} {statementEnd : Nat}

/-- **Truncation closes no block** and leaves the comments of the kept lines as they are. -/
theorem openBlocks_of_truncated {kept : List Text} {name : Text}
    (hcut : IsCut lines function statementEnd loops)
    (hfront : ∀ loop ∈ loops, loop.StartsBefore
      (lines.take (keptLines lines.length statementEnd loops)) function.startLine statementEnd)
    (hname : Text.isIdent shown.name = true) (htype : Comment.isSolid shown.type = true)
    (h : truncated {} settings lines function statementEnd shown loops = .ok (kept, name)) :
    Balance.openBlocks (lines.take (keptLines lines.length statementEnd loops)) function.startLine ≤
        Balance.openBlocks kept function.startLine ∧
      Comment.isOpenAfter false kept = Comment.isOpenAfter false
        (lines.take (keptLines lines.length statementEnd loops)) ∧
      Comment.isSolid name = true := by
  obtain ⟨⟨marked, shadow⟩, hinsert, h⟩ := bind_eq_ok_iff.mp h
  obtain ⟨capped, hcapped, h⟩ := bind_eq_ok_iff.mp h
  obtain ⟨rfl, rfl⟩ := Prod.mk.inj (Except.ok.inj h)
  obtain ⟨hblocks, hopen, hshadow⟩ := Shadow.openBlocks_of_insert hcut.lt_length hcut.start
    hcut.liesIn hfront hname htype hinsert
  obtain ⟨hcaps, hopen'⟩ := Cap.openBlocks_of_apply hcapped
  refine ⟨by omega, hopen'.trans hopen, ?_⟩
  cases shadow with
  | none => exact Comment.isSolid_of_isIdent hname
  | some shadow =>
    obtain rfl := hshadow shadow rfl
    exact (by decide : Comment.isSolid ({} : Config).shadow = true)

/-- A function is truncated if the caps are valid. -/
lemma exists_truncated (hcut : IsCut lines function statementEnd loops)
    (hcaps : ∀ entry ∈ settings.caps, 0 ≤ entry.1 ∧ 0 ≤ entry.2) (shown : Variable) :
    ∃ kept name, truncated {} settings lines function statementEnd shown loops = .ok (kept, name) ∧
      function.startLine < kept.length ∧
      kept.take function.startLine = lines.take function.startLine := by
  have hlength := hcut.lt_length
  obtain ⟨⟨marked, shadow⟩, hinsert, -⟩ := Shadow.exists_insert {} hlength hcut.liesIn
    (fun loop hloop => (hcut.headerLine loop (Loop.mem_of_outermost? hloop)).trans_lt hlength) shown
  obtain ⟨capped, hcapped⟩ := Cap.exists_apply {} marked function.startLine hcaps
  have htruncated : truncated {} settings lines function statementEnd shown loops =
      .ok (capped, (shadow.filter (!·.isEmpty)).getD shown.name) := by
    unfold truncated
    simp only [hinsert, bind, Except.bind, hcapped]
    rfl
  exact ⟨_, _, htruncated, ((onlyFails_truncated hcut).2 _ _ htruncated).1,
    take_of_truncated hcut.liesIn hcut.start htruncated⟩

/-- The color output of an entry point is solid. -/
lemma isSolid_outputOf {entry : Signature} (hentry : entry.IsPlain) :
    Comment.isSolid (outputOf {} entry) = true := by
  unfold outputOf
  split
  · rename_i parameter hparameter
    exact Comment.isSolid_of_isIdent
      (hentry.parameters parameter (List.mem_of_find?_eq_some hparameter)).name
  · decide

/-- **An entry point in place** is completed, unless the lines behind it close blocks that they do
not open. -/
theorem entryPoint_eq {kept : List Text} {name : Text} (hfunction : function.IsPlain)
    (htruncated : truncated {} settings lines function statementEnd shown loops = .ok (kept, name))
    (hlength : function.startLine ≤ kept.length) (hname : Comment.isSolid name = true)
    (hblocks : 0 ≤ Balance.openBlocks kept function.startLine)
    (hopen : Comment.isOpenAfter false kept = false)
    (hbehind : Comment.isOpenAfter false (lines.take (function.stopLine lines.length)) = false) :
    (Balance.openBlocks lines (function.stopLine lines.length) < 0 →
        entryPoint {} settings lines function statementEnd shown loops = .error (.unbalancedBraces
          (Balance.openBlocks lines (function.stopLine lines.length)).natAbs function.startLine)) ∧
      (0 ≤ Balance.openBlocks lines (function.stopLine lines.length) →
        ∃ text, entryPoint {} settings lines function statementEnd shown loops = .ok text) := by
  obtain ⟨n, hn⟩ := Int.eq_ofNat_of_zero_le hblocks
  have hclose : Balance.close kept function.startLine = .ok (kept ++ List.replicate n ['}']) :=
    Balance.close_eq_ok_iff.mpr ⟨n, hn, rfl⟩
  have hvisible := Visualization.hasBraces_indented settings.options shown.type
    (.inr (isSolid_outputOf hfunction)) hname
  have hadded := hvisible.append (Comment.HasBraces.replicate n)
  -- what is shown and completed adds up to nothing, so the lines behind it decide
  have htotal : Balance.openBlocks (kept ++ Visualization.indented {} settings.options
      (outputOf {} function) shown.type name ++ List.replicate n ['}'] ++
        lines.drop (function.stopLine lines.length)) function.startLine =
      Balance.openBlocks lines (function.stopLine lines.length) := by
    rw [List.append_assoc, List.append_assoc, Balance.openBlocks_append_of_le hlength, hopen, hn,
      ← List.append_assoc, Comment.blankFrom_append, hadded.closed, Text.bracesOf_append,
      hadded.braces, Balance.openBlocks_eq_drop lines, hbehind]
    omega
  have hrun : entryPoint {} settings lines function statementEnd shown loops =
      Balance.close (kept ++ Visualization.indented {} settings.options (outputOf {} function)
        shown.type name ++ List.replicate n ['}'] ++
          lines.drop (function.stopLine lines.length)) function.startLine >>=
        fun result => .ok (Text.ofLines result) := by
    unfold entryPoint Signature.stopLine
    rw [htruncated]
    simp only [bind, Except.bind, hclose, List.drop_left]
    cases function.endLine with
    | none => simp only [List.drop_length]; rfl
    | some last => rfl
  rw [hrun, Balance.close, htotal]
  constructor
  · intro hneg
    rw [if_pos hneg]
    rfl
  · intro hnonneg
    rw [if_neg (by omega)]
    exact ⟨_, rfl⟩

/-- **The truncated copy of a helper** is completed. -/
theorem exists_debugCopy {kept : List Text} {name value : Text}
    (htruncated : truncated {} settings lines function statementEnd shown loops = .ok (kept, value))
    (hlength : function.startLine < kept.length) (hvalue : Comment.isSolid value = true)
    (htype : Comment.isSolid shown.type = true) (hname : Comment.isSolid name = true)
    (hblocks : 0 ≤ Balance.openBlocks kept function.startLine)
    (hfront : Comment.isOpenAfter false (kept.take function.startLine) = false)
    (hopen : Comment.isOpenAfter false kept = false) :
    ∃ copy, debugCopy {} settings lines function statementEnd shown loops name = .ok copy ∧
      Comment.HasBraces copy 0 := by
  obtain ⟨n, hn⟩ := Int.eq_ofNat_of_zero_le hblocks
  have hown := Balance.hasBraces_drop hfront hopen
  rw [hn] at hown
  cases hdrop : kept.drop function.startLine with
  | nil => exact absurd (List.drop_eq_nil_iff.mp hdrop) (by omega)
  | cons header body =>
    rw [hdrop] at hown
    have hcounts : List.Forall₂ Comment.CountsAs (header :: body)
        (renameHeader header shown.type name :: body) :=
      .cons (countsAs_renameHeader header htype hname) (List.forall₂_same.mpr fun l _ => .refl l)
    obtain ⟨hbraces, hstate⟩ := Comment.braces_of_forall₂ hcounts false
    have hcopy : Comment.HasBraces (renameHeader header shown.type name :: body) n :=
      ⟨hbraces.trans hown.braces, hstate.trans hown.closed⟩
    have hreturn : Comment.HasBraces
        [({} : Config).indent ++ "return ".toList ++ value ++ ";".toList] 0 := by
      refine .of_isQuiet fun l hl => ?_
      rw [List.mem_singleton.mp hl]
      exact Comment.isQuiet_of_isSolid (Comment.isSolid_append (Comment.isSolid_append
        (by decide) hvalue) (by decide))
    have htotal := (hcopy.append hreturn).append (.replicate n)
    rw [add_zero, add_neg_cancel] at htotal
    refine ⟨_, ?_, htotal⟩
    unfold debugCopy
    rw [htruncated]
    simp only [bind, Except.bind, hdrop, Balance.close_of_hasBraces hcopy, List.drop_left]
    rfl

/-- The lines of a function are completed, if no comment is open in front of it or behind it. -/
lemma exists_functionLines
    (hblocks : 0 ≤
      Balance.openBlocks (lines.take (function.stopLine lines.length)) function.startLine)
    (hfront : Comment.isOpenAfter false
      ((lines.take (function.stopLine lines.length)).take function.startLine) = false)
    (hbehind : Comment.isOpenAfter false (lines.take (function.stopLine lines.length)) = false) :
    ∃ own, functionLines lines function = .ok own ∧ Comment.HasBraces own 0 := by
  obtain ⟨n, hn⟩ := Int.eq_ofNat_of_zero_le hblocks
  have hown := Balance.hasBraces_drop hfront hbehind
  rw [hn] at hown
  have htotal := hown.append (.replicate n)
  rw [add_neg_cancel] at htotal
  exact ⟨_, Balance.close_of_hasBraces hown, htotal⟩

/-- More lines are kept than those up to the end of the statement. -/
lemma IsCut.lt_keptLines (h : IsCut lines function statementEnd loops) :
    statementEnd < keptLines lines.length statementEnd loops := by
  have hlength := h.lt_length
  rw [List.length_take] at hlength
  omega

end Variant

/-! ### Functions that stand apart -/

/-- The function stands apart from the rest of the source: no block is open in front of its header,
no comment is open in front of its header, behind its last line or behind the lines that are kept in
front of it, and the types of its parameters hold neither braces nor comment marks. -/
structure Outline.StandsApart (lines : List Text) (function : Signature) : Prop where
  depth : Text.bracesOf ((Comment.strip lines).take function.startLine) = 0
  header : Comment.isOpenAfter false (lines.take function.startLine) = false
  behind : Comment.isOpenAfter false (lines.take (function.stopLine lines.length)) = false
  front : Comment.isOpenAfter false (Variant.linesBefore {} lines function) = false
  types : ∀ p ∈ function.parameters, Comment.IsQuiet p.type

namespace Outline

variable {lines : List Text} {function : Signature}

/-- A function ends behind its header line. -/
lemma startLine_lt_stopLine (h : function ∈ functions {} lines) :
    function.startLine < function.stopLine lines.length := by
  unfold Signature.stopLine
  cases hend : function.endLine with
  | none => exact lt_of_mem_functions h
  | some last => exact Nat.lt_succ_of_le (startLine_le_endLine h hend)

/-- The types of the parameters are solid. -/
lemma StandsApart.isSolid (h : StandsApart lines function) (hmem : function ∈ functions {} lines) :
    ∀ p ∈ function.parameters, Comment.isSolid p.type = true := by
  intro p hp
  obtain ⟨item, hitem⟩ := exists_of_mem_parameters hmem hp
  exact Signature.isSolid_of_parameter? hitem (h.types p hp)

end Outline

namespace Variant

variable {settings : Settings} {lines : List Text} {function : Signature} {shown : Variable}
  {loops : List Loop} {statementEnd : Nat}

/-- No comment is open in front of the header among the lines up to the end of the function. -/
lemma isOpenAfter_take_stopLine (happart : Outline.StandsApart lines function)
    (hmem : function ∈ Outline.functions {} lines) :
    Comment.isOpenAfter false
      ((lines.take (function.stopLine lines.length)).take function.startLine) = false := by
  rw [List.take_take, Nat.min_eq_left (Outline.startLine_lt_stopLine hmem).le]
  exact happart.header

/-- **A whole helper is completed.** -/
theorem exists_wholeHelper
    (hstray : ∀ front, front <+: Text.ofLines (Comment.strip lines) → 0 ≤ Text.braceDelta front)
    (hcaps : ∀ entry ∈ settings.caps, 0 ≤ entry.1 ∧ 0 ≤ entry.2)
    (hoverrides : CallArguments.AreQuiet settings.overrides)
    (hmem : function ∈ Outline.functions {} lines) (happart : Outline.StandsApart lines function) :
    ∃ text, wholeHelper {} settings lines function = .ok text := by
  have hfunction := Outline.isPlain_of_mem_functions hmem
  obtain ⟨capped, hcapped⟩ := Cap.exists_apply {} (lines.take (function.stopLine lines.length))
    function.startLine hcaps
  obtain ⟨hblocks, hopen⟩ := Cap.openBlocks_of_apply hcapped
  have hnonneg := Balance.openBlocks_take_nonneg hstray happart.depth
    (Outline.startLine_lt_stopLine hmem).le
  have htake := Cap.take_of_apply hcapped
  have hown := Balance.hasBraces_drop
    (htake ▸ isOpenAfter_take_stopLine happart hmem) (hopen.trans happart.behind)
  obtain ⟨n, hn⟩ := Int.eq_ofNat_of_zero_le
    (show 0 ≤ Balance.openBlocks capped function.startLine by omega)
  rw [hn] at hown
  have hclosed := hown.append (.replicate n)
  rw [add_neg_cancel] at hclosed
  have hentry := hasBraces_callingEntryPoint hoverrides hfunction.parameters
    (happart.isSolid hmem) (Comment.isSolid_of_isIdent hfunction.name)
    (Comment.isSolid_of_isIdent hfunction.returnType)
  have hblank : Comment.HasBraces [[]] 0 := ⟨rfl, rfl⟩
  obtain ⟨result, hresult⟩ := Balance.exists_close happart.front
    ((hclosed.append hblank).append hentry)
  refine ⟨Text.ofLines result, ?_⟩
  unfold wholeHelper
  simp only [bind, Except.bind, hcapped, Balance.close_of_hasBraces hown]
  simp only [List.append_assoc] at hresult ⊢
  rw [hresult]
  rfl

/-- **A helper with its truncated copy is completed.** -/
theorem exists_helper {working kept : List Text} {value : Text} {line : Nat}
    (hstray : ∀ front, front <+: Text.ofLines (Comment.strip lines) → 0 ≤ Text.braceDelta front)
    (hoverrides : CallArguments.AreQuiet settings.overrides)
    (hmem : function ∈ Outline.functions {} lines) (happart : Outline.StandsApart lines function)
    (htype : Comment.isSolid shown.type = true)
    (hworking : captureReturn {} lines line shown = .ok working)
    (htruncated : truncated {} settings working function statementEnd shown loops =
      .ok (kept, value))
    (hlength : function.startLine < kept.length)
    (hfront : Comment.isOpenAfter false (kept.take function.startLine) = false)
    (hvalue : Comment.isSolid value = true)
    (hblocks : 0 ≤ Balance.openBlocks kept function.startLine)
    (hopen : Comment.isOpenAfter false kept = false) :
    ∃ text, helper {} settings lines function line shown loops (some statementEnd) = .ok text := by
  have hfunction := Outline.isPlain_of_mem_functions hmem
  have hname : Comment.isSolid (({} : Config).copyStem ++ function.name) = true :=
    Comment.isSolid_append (by decide) (Comment.isSolid_of_isIdent hfunction.name)
  obtain ⟨copy, hcopy, hcopied⟩ := exists_debugCopy htruncated hlength hvalue htype hname hblocks
    hfront hopen
  obtain ⟨own, hown, hclosed⟩ := exists_functionLines
    (Balance.openBlocks_take_nonneg hstray happart.depth (Outline.startLine_lt_stopLine hmem).le)
    (isOpenAfter_take_stopLine happart hmem) happart.behind
  have hentry := hasBraces_callingEntryPoint hoverrides hfunction.parameters
    (happart.isSolid hmem) hname htype
  have hblank : Comment.HasBraces [[]] 0 := ⟨rfl, rfl⟩
  obtain ⟨result, hresult⟩ := Balance.exists_close happart.front
    ((((hclosed.append hblank).append hcopied).append hblank).append hentry)
  refine ⟨Text.ofLines result, ?_⟩
  unfold helper
  simp only [statementEndAt, bind, Except.bind, hworking, hcopy, hown]
  simp only [List.append_assoc] at hresult ⊢
  rw [hresult]
  rfl

end Variant

/-- A loop of the source starts in front of a line of another text that begins with the same lines.
-/
lemma Loop.startsBefore_of_mem_find {lines lines' : List Text} {start first target : Nat} {loop : Loop}
    (h : loop ∈ find lines start) (hlt : loop.headerLine < first) (hle : first ≤ target)
    (htake : lines'.take first = lines.take first) : loop.StartsBefore lines' start target := by
  obtain ⟨⟨line, k⟩, hkeyword, hline, hcode⟩ := (isMarked_of_mem_find h).keyword
  obtain rfl : line = loop.headerLine := hline
  refine ⟨hlt.trans_le hle, k, hkeyword, hcode.of_take ?_⟩
  have := congrArg (List.take (loop.headerLine + 1)) htake
  rwa [List.take_take, List.take_take, Nat.min_eq_left hlt] at this

namespace Probe

variable {settings : Variant.Settings} {lines : List Text} {function : Signature} {line : Nat}
  {shown : Variable} {s : Statement}

/-- The statement at a line can be cut off behind its last line: the loops around it start on lines
in front of it, and no comment is open behind the lines that are kept. -/
structure IsCuttable (lines : List Text) (function : Signature) (line last : Nat) : Prop where
  loops : ∀ s loops,
    Statement.find ({} : Config).maxStatementLines (Comment.strip lines) line = .ok (some s) →
      loopsAround {} lines function line = .ok loops → ∀ loop ∈ loops, loop.headerLine < s.startLine
  closed : ∀ loops, loopsAround {} lines function line = .ok loops →
    Comment.isOpenAfter false (lines.take (Variant.keptLines lines.length last loops)) = false

/-- **What is left open when a function that stands apart is truncated**, with a returned value
captured or not. -/
theorem exists_truncated_of_standsApart {working : List Text} {loops : List Loop}
    (hstray : ∀ front, front <+: Text.ofLines (Comment.strip lines) → 0 ≤ Text.braceDelta front)
    (hcaps : ∀ entry ∈ settings.caps, 0 ≤ entry.1 ∧ 0 ≤ entry.2)
    (hfunction : Outline.enclosing? {} lines line = some function)
    (hfind : Statement.find ({} : Config).maxStatementLines (Comment.strip lines) line =
      .ok (some s))
    (hshown : shown.IsPlain) (htype : Comment.isSolid shown.type = true)
    (happart : Outline.StandsApart lines function)
    (hcuttable : IsCuttable lines function line s.endLine)
    (hloops : loopsAround {} lines function line = .ok loops)
    (hcounts : List.Forall₂ Comment.CountsAs lines working)
    (htake : working.take s.startLine = lines.take s.startLine) :
    ∃ kept value,
      Variant.truncated {} settings working function s.endLine shown loops = .ok (kept, value) ∧
      function.startLine < kept.length ∧
      Comment.isOpenAfter false (kept.take function.startLine) = false ∧
      Comment.isSolid value = true ∧ 0 ≤ Balance.openBlocks kept function.startLine ∧
      Comment.isOpenAfter false kept = false := by
  have hlength : working.length = lines.length := hcounts.length_eq.symm
  have hcut := isCut_of_find hfunction hfind hloops
  have hcut' : Variant.IsCut working function s.endLine loops :=
    ⟨hcut.start, hlength ▸ hcut.bound, hlength ▸ hcut.liesIn, hcut.headerLine⟩
  obtain ⟨-, -, -, hfirst, hline, -, -⟩ := Statement.bounds_of_find hfind
  have hkept := hcut'.lt_keptLines
  have hstarts : ∀ loop ∈ loops, loop.StartsBefore
      (working.take (Variant.keptLines working.length s.endLine loops)) function.startLine
        s.endLine := by
    intro loop hloop
    refine Loop.startsBefore_of_mem_find (mem_find_of_loopsAround hloops loop hloop)
      (hcuttable.loops s loops hfind hloops loop hloop) (hfirst.trans hline) ?_
    rw [List.take_take, Nat.min_eq_left (by omega), htake]
  obtain ⟨kept, value, htruncated, hheader, hfront⟩ :=
    Variant.exists_truncated hcut' hcaps shown
  obtain ⟨hblocks, hopen, hvalue⟩ := Variant.openBlocks_of_truncated hcut' hstarts hshown.name htype
    htruncated
  rw [hlength] at hblocks hopen hkept
  -- the kept lines count as those of the source do
  have hkeptCounts := List.forall₂_take (Variant.keptLines lines.length s.endLine loops) hcounts
  have hfrontCounts := List.forall₂_take function.startLine hkeptCounts
  have hbackCounts := List.forall₂_drop function.startLine hkeptCounts
  have hsame : Balance.openBlocks (working.take (Variant.keptLines lines.length s.endLine loops))
      function.startLine =
      Balance.openBlocks (lines.take (Variant.keptLines lines.length s.endLine loops))
        function.startLine := by
    rw [Balance.openBlocks_eq_drop, Balance.openBlocks_eq_drop,
      (Comment.braces_of_forall₂ hfrontCounts false).2, (Comment.braces_of_forall₂ hbackCounts _).1]
  have hnonneg := Balance.openBlocks_take_nonneg hstray happart.depth
    (hcut.start.trans hkept.le)
  have hclosed : Comment.isOpenAfter false (kept.take function.startLine) = false := by
    have hsource := (Comment.braces_of_forall₂
      (List.forall₂_take function.startLine hcounts) false).2
    rw [hfront, hsource]
    exact happart.header
  refine ⟨kept, value, htruncated, hheader, hclosed, hvalue, by omega, ?_⟩
  rw [hopen, (Comment.braces_of_forall₂ hkeptCounts false).2]
  exact hcuttable.closed loops hloops

/-- **The variable of an entry point is shown**, unless the lines behind the entry point close
blocks that they do not open. -/
theorem showVariable_of_isEntryPoint
    (hstray : ∀ front, front <+: Text.ofLines (Comment.strip lines) → 0 ≤ Text.braceDelta front)
    (hcaps : ∀ entry ∈ settings.caps, 0 ≤ entry.1 ∧ 0 ≤ entry.2)
    (hfunction : Outline.enclosing? {} lines line = some function)
    (hfind : Statement.find ({} : Config).maxStatementLines (Comment.strip lines) line =
      .ok (some s))
    (hshown : shown.IsPlain) (hknown : function.KnowsType shown.type)
    (happart : Outline.StandsApart lines function)
    (hcuttable : IsCuttable lines function line s.endLine)
    (hentry : function.isEntryPoint {} = true) :
    (Balance.openBlocks lines (function.stopLine lines.length) < 0 →
        showVariable {} settings lines function line shown s.endLine = .error (.unbalancedBraces
          (Balance.openBlocks lines (function.stopLine lines.length)).natAbs function.startLine)) ∧
      (0 ≤ Balance.openBlocks lines (function.stopLine lines.length) →
        ∃ text, showVariable {} settings lines function line shown s.endLine = .ok text) := by
  have hmem := Outline.mem_of_enclosingIn? hfunction
  have hplain := Outline.isPlain_of_mem_functions hmem
  have htype := hknown.isSolid hplain (happart.isSolid hmem)
  obtain ⟨loops, hloops⟩ := exists_loopsAround {} lines function line
  obtain ⟨kept, value, htruncated, hlength, -, hvalue, hblocks, hopen⟩ :=
    exists_truncated_of_standsApart hstray hcaps hfunction hfind hshown htype happart hcuttable
      hloops (List.forall₂_same.mpr fun l _ => .refl l) rfl
  have hrun : showVariable {} settings lines function line shown s.endLine =
      Variant.entryPoint {} settings lines function s.endLine shown loops := by
    unfold showVariable
    rw [hloops, hentry]
    rfl
  rw [hrun]
  exact Variant.entryPoint_eq hplain htruncated hlength.le hvalue hblocks hopen happart.behind

/-- **The variable of a helper is shown.** -/
theorem exists_showVariable_of_helper
    (hstray : ∀ front, front <+: Text.ofLines (Comment.strip lines) → 0 ≤ Text.braceDelta front)
    (hcaps : ∀ entry ∈ settings.caps, 0 ≤ entry.1 ∧ 0 ≤ entry.2)
    (hoverrides : CallArguments.AreQuiet settings.overrides)
    (hfunction : Outline.enclosing? {} lines line = some function)
    (hfind : Statement.find ({} : Config).maxStatementLines (Comment.strip lines) line =
      .ok (some s))
    (hshown : shown.IsPlain) (hknown : function.KnowsType shown.type)
    (hcapture : Variant.IsCapturable lines line shown)
    (happart : Outline.StandsApart lines function)
    (hcuttable : IsCuttable lines function line s.endLine)
    (hhelper : function.isEntryPoint {} = false) :
    ∃ text, showVariable {} settings lines function line shown s.endLine = .ok text := by
  have hmem := Outline.mem_of_enclosingIn? hfunction
  have hplain := Outline.isPlain_of_mem_functions hmem
  have htype := hknown.isSolid hplain (happart.isSolid hmem)
  obtain ⟨loops, hloops⟩ := exists_loopsAround {} lines function line
  obtain ⟨working, hworking, -⟩ := Variant.exists_captureReturn hcapture
  obtain ⟨hcounts, htake⟩ :=
    Variant.forall₂_of_captureReturn hshown htype hcapture hfind hworking
  obtain ⟨kept, value, htruncated, hlength, hfront, hvalue, hblocks, hopen⟩ :=
    exists_truncated_of_standsApart hstray hcaps hfunction hfind hshown htype happart hcuttable
      hloops hcounts htake
  have hrun : showVariable {} settings lines function line shown s.endLine =
      Variant.helper {} settings lines function line shown loops (some s.endLine) := by
    unfold showVariable
    rw [hloops, hhelper]
    rfl
  rw [hrun]
  exact Variant.exists_helper hstray hoverrides hmem happart htype hworking htruncated hlength
    hfront hvalue hblocks hopen

/-- The function that a plan is about stands apart, and the statement that is shown can be cut off
behind its last line. -/
def Plan.IsRegular (lines : List Text) : Plan → Prop
  | .nothing => True
  | .value function line _ last =>
    Outline.StandsApart lines function ∧ IsCuttable lines function line last
  | .result function => Outline.StandsApart lines function

/-- **When a request fails on a source without stray braces.**  The function stands apart and the
statement can be cut off.  Then the request fails exactly if it is about an entry point and the
lines behind the last line of the entry point close more blocks than they open; helpers never fail.
-/
theorem instrument_eq_error_iff {settings : Variant.Settings} {source : Text} {line : Int}
    {shown : Option Text} {p : Plan}
    (hstray : ∀ front, front <+: Text.ofLines (Comment.strip (Text.lines source)) →
      0 ≤ Text.braceDelta front)
    (hcaps : ∀ entry ∈ settings.caps, 0 ≤ entry.1 ∧ 0 ≤ entry.2)
    (hoverrides : CallArguments.AreQuiet settings.overrides)
    (hplan : plan {} (Text.lines source) line shown = .ok p)
    (hregular : p.IsRegular (Text.lines source)) (e : Error) :
    instrument {} settings source line shown = .error e ↔
      ∃ function target v last, p = .value function target v last ∧
        function.isEntryPoint {} = true ∧
          Balance.openBlocks (Text.lines source)
            (function.stopLine (Text.lines source).length) < 0 ∧
            e = .unbalancedBraces (Balance.openBlocks (Text.lines source)
              (function.stopLine (Text.lines source).length)).natAbs function.startLine := by
  have hrun : instrument {} settings source line shown =
      p.run {} settings (Text.lines source) := by
    rw [instrument_eq_run, hplan]
    rfl
  rw [hrun]
  have hok : ∀ {x : Except Error (Option Text)} {q : Prop}, (∃ answer, x = .ok answer) → ¬q →
      (x = .error e ↔ q) := by
    rintro x q ⟨answer, rfl⟩ hq
    simp [hq]
  rcases exists_plan (Text.lines source) line shown with
    hnothing | ⟨target, function, p', -, hfunction, -, hplan', hfor⟩
  · obtain rfl := Except.ok.inj (hplan.symm.trans hnothing)
    exact hok ⟨none, rfl⟩ (by simp)
  · obtain rfl := Except.ok.inj (hplan.symm.trans hplan')
    have hmem := Outline.mem_of_enclosingIn? hfunction
    cases hfor with
    | nothing => exact hok ⟨none, rfl⟩ (by simp)
    | result hhelper =>
      obtain ⟨text, htext⟩ := Variant.exists_wholeHelper hstray hcaps hoverrides hmem hregular
      exact hok ⟨some text, by rw [Plan.run, htext]; rfl⟩ (by simp)
    | value hfind hshown hknown hcapture =>
      obtain ⟨happart, hcuttable⟩ := hregular
      cases hentry : function.isEntryPoint {} with
      | false =>
        obtain ⟨text, htext⟩ :=
          exists_showVariable_of_helper hstray hcaps hoverrides hfunction hfind
          hshown hknown hcapture happart hcuttable hentry
        refine hok ⟨some text, by rw [Plan.run, htext]; rfl⟩ ?_
        rintro ⟨f, target', v, last, heq, hf, -⟩
        injection heq with heq
        rw [← heq, hentry] at hf
        exact absurd hf (by simp)
      | true =>
        obtain ⟨hneg, hnonneg⟩ := showVariable_of_isEntryPoint hstray hcaps hfunction hfind hshown
          hknown happart hcuttable hentry
        by_cases hrest : Balance.openBlocks (Text.lines source)
            (function.stopLine (Text.lines source).length) < 0
        · rw [Plan.run, hneg hrest]
          constructor
          · intro he
            obtain rfl : _ = e := Except.error.inj he
            exact ⟨function, _, _, _, rfl, hentry, hrest, rfl⟩
          · rintro ⟨f, target', v, last, heq, -, -, rfl⟩
            injection heq with heq
            rw [← heq]
            rfl
        · obtain ⟨text, htext⟩ := hnonneg (by omega)
          refine hok ⟨some text, by rw [Plan.run, htext]; rfl⟩ ?_
          rintro ⟨f, target', v, last, heq, -, hlt, -⟩
          injection heq with heq
          rw [← heq] at hlt
          exact hrest hlt

/-- An entry point with a loop behind a comment of two lines, and a struct that is opened on the
last line of the entry point. -/
def loopedEntry : Text :=
  Text.ofLines
    ["/* noise \x7b", "  \x7d field */", "void mainImage(out vec4 O, in vec2 U) \x7b",
      "  float a = 0.0;", "  for (int i = 0; i < 4; i++)", "    a += 1.0;", "\x7d struct S \x7b",
      "  float x;", "\x7d;"]

/-- The entry point, as it is read from its header. -/
def loopedEntryPoint : Signature :=
  { name := "mainImage"
    returnType := "void"
    parameters := [.ofType {} "O" "vec4" .output, .ofType {} "U" "vec2" .input]
    startLine := 2
    endLine := some 6 }

/-- The variable in the loop is not shown, since the end of the struct follows. -/
theorem instrument_eq_error_of_struct :
    instrument {} { caps := [(0, 2)] } loopedEntry 5 none = .error (.unbalancedBraces 1 2) := by
  have hplan : plan {} (Text.lines loopedEntry) 5 none =
      .ok (.value loopedEntryPoint 5 ⟨"a", "float"⟩ 5) := rfl
  have hstray : ∀ front ∈ (Text.ofLines (Comment.strip (Text.lines loopedEntry))).inits,
      0 ≤ Text.braceDelta front := by decide +kernel
  have htypes : ∀ p ∈ loopedEntryPoint.parameters, Comment.isSolid p.type = true := by decide
  have happart : Outline.StandsApart (Text.lines loopedEntry) loopedEntryPoint :=
    ⟨by decide +kernel, by decide +kernel, by decide +kernel, by decide +kernel,
      fun p hp => Comment.isQuiet_of_isSolid (htypes p hp)⟩
  have hfind : Statement.find ({} : Config).maxStatementLines
      (Comment.strip (Text.lines loopedEntry)) 5 = .ok (some ⟨"a += 1.0;", 5, 5, 12⟩) := rfl
  have hloops : (loopsAround {} (Text.lines loopedEntry) loopedEntryPoint (5 : Nat)).toOption.all
      (fun loops => loops.all (fun loop => loop.headerLine < 5) && !Comment.isOpenAfter false
        ((Text.lines loopedEntry).take (Variant.keptLines 9 5 loops))) = true := by decide +kernel
  have hcuttable : IsCuttable (Text.lines loopedEntry) loopedEntryPoint 5 5 := by
    constructor
    · intro s loops hs h loop hloop
      obtain rfl := Option.some.inj (Except.ok.inj (hs.symm.trans hfind))
      rw [h] at hloops
      simp only [Except.toOption, Option.all_some, Bool.and_eq_true, List.all_eq_true,
        decide_eq_true_eq] at hloops
      exact hloops.1 loop hloop
    · intro loops h
      rw [h] at hloops
      simp only [Except.toOption, Option.all_some, Bool.and_eq_true, Bool.not_eq_true'] at hloops
      exact hloops.2
  exact (instrument_eq_error_iff
    (fun front hfront => hstray front ((List.mem_inits _ _).mpr hfront))
    (by decide) (fun e he => absurd he List.not_mem_nil) hplan ⟨happart, hcuttable⟩ _).mpr
      ⟨loopedEntryPoint, 5, _, 5, rfl, rfl, by decide +kernel, rfl⟩

/-- An entry point on whose last line a struct is opened. -/
def sharedLastLine : Text :=
  Text.ofLines
    ["void mainImage(out vec4 O, in vec2 U) \x7b", "  float a = 1.0;", "\x7d struct S \x7b",
      "  float x;", "\x7d;"]

/-- The braces of the source are balanced, and nothing is shown all the same. -/
theorem unbalancedBraces_shared_last_line :
    (∀ front ∈ (Text.ofLines (Comment.strip (Text.lines sharedLastLine))).inits,
        0 ≤ Text.braceDelta front) ∧
      Text.braceDelta (Text.ofLines (Comment.strip (Text.lines sharedLastLine))) = 0 ∧
      instrument {} {} sharedLastLine 1 none = .error (.unbalancedBraces 1 0) :=
  ⟨by decide +kernel, by decide +kernel, rfl⟩

end Probe

end ShaderProbe
