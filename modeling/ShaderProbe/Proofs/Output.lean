import Mathlib
import ShaderProbe.Proofs.OneLine

/-!
# Instrumented text is balanced

Every variant of a shader is completed with closing braces, one to a line, from the instrumented
function on.  `Balance.isClosed_of_tame` counts the braces of completed lines; this file
shows that the lines of every variant are of the kind that it asks for, and puts the count together
for every request (`Probe.openBlocks_of_instrument`).

The added braces count only if they lie in code.  A text that is cut inside a block comment keeps
the comment open, the added braces lie in the comment, and the blocks stay open
(`Probe.openBlocks_cut_in_comment`).
-/

namespace ShaderProbe

/-- A line that is found is one of the lines. -/
lemma mem_of_lineAt {lines : List Text} {line : Nat} {text : Text}
    (h : lineAt lines line = .ok text) : text ∈ lines :=
  List.mem_of_getElem? (lineAt_eq_ok_iff.mp h)

/-- The indent of a line without line feeds has none. -/
lemma Text.not_mem_indent {t : Text} (h : '\n' ∉ t) : '\n' ∉ indent t :=
  fun hmem => h ((List.takeWhile_prefix _).subset hmem)

/-- A configuration whose names stay on one line. -/
structure Config.IsPlain (config : Config) : Prop where
  entryPoint : '\n' ∉ config.entryPoint
  output : '\n' ∉ config.output
  coord : '\n' ∉ config.coord
  resolution : '\n' ∉ config.resolution
  shadow : '\n' ∉ config.shadow
  counterStem : '\n' ∉ config.counterStem
  captured : '\n' ∉ config.captured
  copyStem : '\n' ∉ config.copyStem
  storageStem : '\n' ∉ config.storageStem
  result : '\n' ∉ config.result
  indent : '\n' ∉ config.indent

/-- The default names stay on one line. -/
lemma Config.isPlain_default : ({} : Config).IsPlain := by
  constructor <;> decide

variable {config : Config}

/-! ### Edits -/

namespace Edit

/-- The text that an edit puts into the lines. -/
def text : Edit → Text
  | lineBefore _ text => text
  | lineAfter _ text => text
  | inline _ _ text => text

/-- A woven line holds what the line and the inserted texts hold. -/
lemma mem_weave {inserts : List (Nat × Text)} {column : Nat} {t : Text} {d : Char}
    (h : d ∈ weave inserts column t) : d ∈ t ∨ ∃ insert ∈ inserts, d ∈ insert.2 := by
  have hflat : ∀ {p : Nat × Text → Bool}, d ∈ ((inserts.filter p).map Prod.snd).flatten →
      ∃ insert ∈ inserts, d ∈ insert.2 := by
    intro p hmem
    obtain ⟨text, htext, hd⟩ := List.mem_flatten.mp hmem
    obtain ⟨insert, hinsert, rfl⟩ := List.mem_map.mp htext
    exact ⟨insert, List.mem_of_mem_filter hinsert, hd⟩
  induction t generalizing column with
  | nil => exact .inr (hflat h)
  | cons c t ih =>
    rw [weave, List.mem_append, List.mem_cons] at h
    rcases h with h | rfl | h
    · exact .inr (hflat h)
    · exact .inl List.mem_cons_self
    · exact (ih h).imp_left (List.mem_cons_of_mem c)

/-- The line that an edit puts in front of a line is its text. -/
lemma text_of_before? {line : Nat} {edit : Edit} {t : Text} (h : edit.before? line = some t) :
    edit.text = t := by
  cases edit with
  | lineBefore place text =>
    rw [before?] at h
    split at h
    · exact Option.some.inj h
    · exact absurd h (by simp)
  | lineAfter place text => exact absurd h (by simp [before?])
  | inline place column text => exact absurd h (by simp [before?])

/-- The line that an edit puts after a line is its text. -/
lemma text_of_after? {line : Nat} {edit : Edit} {t : Text} (h : edit.after? line = some t) :
    edit.text = t := by
  cases edit with
  | lineBefore place text => exact absurd h (by simp [after?])
  | lineAfter place text =>
    rw [after?] at h
    split at h
    · exact Option.some.inj h
    · exact absurd h (by simp)
  | inline place column text => exact absurd h (by simp [after?])

/-- What an edit puts inside a line is its text. -/
lemma text_of_inside? {line : Nat} {edit : Edit} {insert : Nat × Text}
    (h : edit.inside? line = some insert) : edit.text = insert.2 := by
  cases edit with
  | lineBefore place text => exact absurd h (by simp [inside?])
  | lineAfter place text => exact absurd h (by simp [inside?])
  | inline place column text =>
    rw [inside?] at h
    split at h
    · exact congrArg Prod.snd (Option.some.inj h)
    · exact absurd h (by simp)

/-- Edited lines hold what the lines and the edits hold. -/
lemma mem_apply {edits : List Edit} {lines : List Text} {l : Text} (hl : l ∈ apply edits lines)
    {d : Char} (h : d ∈ l) : (∃ l ∈ lines, d ∈ l) ∨ ∃ edit ∈ edits, d ∈ edit.text := by
  obtain ⟨made, hmade, hl⟩ := List.mem_flatten.mp hl
  obtain ⟨i, hi, rfl⟩ := List.mem_mapIdx.mp hmade
  rw [applyLine, List.mem_append, List.mem_cons] at hl
  rcases hl with hl | rfl | hl
  · obtain ⟨edit, hedit, htext⟩ := List.mem_filterMap.mp hl
    exact .inr ⟨edit, hedit, by rwa [text_of_before? htext]⟩
  · rcases mem_weave h with h | ⟨insert, hinsert, h⟩
    · exact .inl ⟨_, List.getElem_mem hi, h⟩
    · obtain ⟨edit, hedit, htext⟩ := List.mem_filterMap.mp hinsert
      exact .inr ⟨edit, hedit, by rwa [text_of_inside? htext]⟩
  · obtain ⟨edit, hedit, htext⟩ := List.mem_filterMap.mp hl
    exact .inr ⟨edit, hedit, by rwa [text_of_after? htext]⟩

/-- Edits of one line each keep lines of one line each. -/
lemma not_mem_apply {edits : List Edit} {lines : List Text} (hedits : ∀ e ∈ edits, '\n' ∉ e.text)
    (hlines : ∀ l ∈ lines, '\n' ∉ l) : ∀ l ∈ apply edits lines, '\n' ∉ l := by
  intro l hl hmem
  rcases mem_apply hl hmem with ⟨l, hl, h⟩ | ⟨e, he, h⟩
  · exact hlines l hl h
  · exact hedits e he h

end Edit

namespace Cap

/-- The closing brace of a body stays on one line. -/
lemma not_mem_closeBody (loop : Loop) : ∀ e ∈ closeBody loop, '\n' ∉ e.text := by
  intro e he
  cases hend : loop.bodyEnd with
  | none => exact absurd he (by simp [closeBody, hend])
  | some last =>
    obtain rfl : e = .inline last.line (last.column + 1) " \x7d" := by
      simpa [closeBody, hend] using he
    simp [Edit.text]

/-- A counter is declared on one line. -/
lemma not_mem_declaration (hconfig : config.IsPlain) (loop : Loop) :
    '\n' ∉ declaration config loop := by
  simp [declaration, counter, hconfig.counterStem]

/-- A guard stays on one line. -/
lemma not_mem_guard (hconfig : config.IsPlain) (loop : Loop) (cap : Int) :
    '\n' ∉ Cap.guard config loop cap := by
  unfold Cap.guard
  simp [counter, hconfig.counterStem]

/-- The edits that declare a counter stay on one line. -/
lemma not_mem_counterEdits {lines code : List Text} {loop : Loop} {edits : List Edit}
    (hconfig : config.IsPlain) (hlines : ∀ l ∈ lines, '\n' ∉ l)
    (h : counterEdits config lines code loop = .ok edits) :
    ∀ e ∈ edits, '\n' ∉ e.text := by
  have hdeclaration := not_mem_declaration hconfig loop
  obtain ⟨header, hheader, h⟩ := bind_eq_ok_iff.mp h
  have hindent := Text.not_mem_indent (hlines _ (mem_of_lineAt hheader))
  dsimp only at h
  split at h
  · obtain rfl := Except.ok.inj h
    intro e he
    rcases List.mem_cons.mp he with rfl | he
    · simp [Edit.text, hdeclaration]
    · exact not_mem_closeBody loop e he
  · obtain ⟨line, -, h⟩ := bind_eq_ok_iff.mp h
    split at h
    all_goals
      obtain rfl := Except.ok.inj h
      intro e he
      obtain rfl := List.mem_singleton.mp he
      simp [Edit.text, hdeclaration, hindent]

/-- The edits that guard a body stay on one line. -/
lemma not_mem_guardEdits {lines code : List Text} {loop : Loop} {cap : Int} {edits : List Edit}
    (hconfig : config.IsPlain) (hlines : ∀ l ∈ lines, '\n' ∉ l)
    (h : guardEdits config lines code loop cap = .ok edits) :
    ∀ e ∈ edits, '\n' ∉ e.text := by
  have hguard := not_mem_guard hconfig loop cap
  rw [guardEdits] at h
  dsimp only at h
  split at h
  · obtain ⟨line, -, h⟩ := bind_eq_ok_iff.mp h
    split at h
    · obtain rfl := Except.ok.inj h
      intro e he
      obtain rfl := List.mem_singleton.mp he
      simp [Edit.text, hguard]
    · obtain ⟨header, hheader, h⟩ := bind_eq_ok_iff.mp h
      have hindent := Text.not_mem_indent (hlines _ (mem_of_lineAt hheader))
      obtain rfl := Except.ok.inj h
      intro e he
      obtain rfl := List.mem_singleton.mp he
      simp [Edit.text, hguard, hindent, hconfig.indent]
  · obtain rfl := Except.ok.inj h
    intro e he
    rcases List.mem_cons.mp he with rfl | he
    · simp [Edit.text, hguard]
    · exact not_mem_closeBody loop e he
  · obtain rfl := Except.ok.inj h
    exact fun e he => absurd he List.not_mem_nil

/-- The edits that cap loops stay on one line. -/
lemma not_mem_editsFor {lines code : List Text} {caps : Caps} {loops : List Loop}
    {edits : List Edit} (hconfig : config.IsPlain) (hlines : ∀ l ∈ lines, '\n' ∉ l)
    (h : editsFor config lines code caps loops = .ok edits) : ∀ e ∈ edits, '\n' ∉ e.text := by
  induction loops generalizing edits with
  | nil =>
    obtain rfl := Except.ok.inj h
    exact fun e he => absurd he List.not_mem_nil
  | cons loop loops ih =>
    rw [editsFor] at h
    split at h
    · exact ih h
    · obtain ⟨counter, hcounter, h⟩ := bind_eq_ok_iff.mp h
      obtain ⟨guard, hguard, h⟩ := bind_eq_ok_iff.mp h
      obtain ⟨rest, hrest, h⟩ := bind_eq_ok_iff.mp h
      obtain rfl := Except.ok.inj h
      intro e he
      rw [List.mem_append, List.mem_append] at he
      rcases he with (he | he) | he
      · exact not_mem_counterEdits hconfig hlines hcounter e he
      · exact not_mem_guardEdits hconfig hlines hguard e he
      · exact ih hrest e he

/-- Capping keeps lines of one line each. -/
lemma not_mem_of_apply {lines result : List Text} {start : Nat} {caps : Caps}
    (hconfig : config.IsPlain) (hlines : ∀ l ∈ lines, '\n' ∉ l)
    (h : apply config lines start caps = .ok result) :
    ∀ l ∈ result, '\n' ∉ l := by
  rw [apply] at h
  split at h
  · exact absurd h (by simp)
  · obtain ⟨edits, hedits, h⟩ := bind_eq_ok_iff.mp h
    obtain rfl := Except.ok.inj h
    exact Edit.not_mem_apply (not_mem_editsFor hconfig hlines hedits) hlines

end Cap

namespace Shadow

/-- A text put into a line keeps it on one line. -/
lemma not_mem_insertAt {line text : Text} (hline : '\n' ∉ line) (htext : '\n' ∉ text)
    (column : Nat) : '\n' ∉ insertAt line column text := by
  simp only [insertAt, List.mem_append, not_or]
  exact ⟨⟨fun h => hline (List.mem_of_mem_take h), htext⟩, fun h => hline (List.mem_of_mem_drop h)⟩

/-- Changing one line keeps lines of one line each. -/
lemma not_mem_set {lines : List Text} (hlines : ∀ l ∈ lines, '\n' ∉ l) {text : Text}
    (htext : '\n' ∉ text) (line : Nat) : ∀ l ∈ lines.set line text, '\n' ∉ l := by
  intro l hl
  rcases List.mem_or_eq_of_mem_set hl with hl | rfl
  · exact hlines l hl
  · exact htext

/-- Adding one line keeps lines of one line each. -/
lemma not_mem_insertIdx {lines : List Text} (hlines : ∀ l ∈ lines, '\n' ∉ l) {text : Text}
    (htext : '\n' ∉ text) (line : Nat) : ∀ l ∈ lines.insertIdx line text, '\n' ∉ l := by
  intro l hl
  rcases List.eq_or_mem_of_mem_insertIdx hl with rfl | hl
  · exact htext
  · exact hlines l hl

/-- The assignment keeps lines of one line each. -/
lemma not_mem_of_assign {lines result : List Text} {target : Nat} {assignment : Text}
    (hlines : ∀ l ∈ lines, '\n' ∉ l) (hassignment : '\n' ∉ assignment)
    (h : assign config lines target assignment = .ok result) : ∀ l ∈ result, '\n' ∉ l := by
  obtain ⟨line, hline, h⟩ := bind_eq_ok_iff.mp h
  have hline := hlines _ (mem_of_lineAt hline)
  have hown : '\n' ∉ Text.indent line ++ assignment := by
    simp [Text.not_mem_indent hline, hassignment]
  obtain ⟨last, -, h⟩ := bind_eq_ok_iff.mp h
  cases last with
  | none =>
    obtain rfl := Except.ok.inj h
    exact not_mem_insertIdx hlines hown _
  | some last =>
    dsimp only at h
    split at h
    · obtain rfl := Except.ok.inj h
      exact not_mem_set hlines (not_mem_insertAt hline (by simp [hassignment]) _) _
    · obtain rfl := Except.ok.inj h
      exact not_mem_insertIdx hlines hown _

/-- The declaration keeps lines of one line each. -/
lemma not_mem_of_declare {lines marked result : List Text} {loop : Loop} {declaration : Text}
    (hlines : ∀ l ∈ lines, '\n' ∉ l) (hmarked : ∀ l ∈ marked, '\n' ∉ l)
    (hdeclaration : '\n' ∉ declaration) (h : declare lines marked loop declaration = .ok result) :
    ∀ l ∈ result, '\n' ∉ l := by
  obtain ⟨header, hheader, h⟩ := bind_eq_ok_iff.mp h
  have hindent := Text.not_mem_indent (hlines _ (mem_of_lineAt hheader))
  obtain ⟨line, hline, h⟩ := bind_eq_ok_iff.mp h
  have hline := hmarked _ (mem_of_lineAt hline)
  split at h
  · obtain rfl := Except.ok.inj h
    exact not_mem_set hmarked (not_mem_insertAt hline (by simp [hdeclaration]) _) _
  · obtain ⟨code, -, h⟩ := bind_eq_ok_iff.mp h
    split at h
    · obtain rfl := Except.ok.inj h
      exact not_mem_set hmarked (not_mem_insertAt hline (by simp [hdeclaration]) _) _
    · obtain rfl := Except.ok.inj h
      exact not_mem_insertIdx hmarked (by simp [hindent, hdeclaration]) _

/-- Carrying a plain variable out of loops keeps lines of one line each. -/
lemma not_mem_of_insert {lines result : List Text} {target : Nat} {shown : Variable}
    {loops : List Loop} {shadow : Option Text} (hconfig : config.IsPlain)
    (hlines : ∀ l ∈ lines, '\n' ∉ l) (hshown : shown.IsPlain)
    (h : insert config lines target shown loops = .ok (result, shadow)) :
    (∀ l ∈ result, '\n' ∉ l) ∧ ∀ name ∈ shadow, '\n' ∉ name := by
  have hname := Text.not_mem_of_isIdent hshown.name
  rw [insert] at h
  split at h
  · obtain ⟨rfl, rfl⟩ := Prod.mk.inj (Except.ok.inj h)
    exact ⟨hlines, fun name h => absurd h (by simp)⟩
  · obtain ⟨assigned, hassigned, h⟩ := bind_eq_ok_iff.mp h
    obtain ⟨declared, hdeclared, h⟩ := bind_eq_ok_iff.mp h
    obtain ⟨rfl, rfl⟩ := Prod.mk.inj (Except.ok.inj h)
    refine ⟨not_mem_of_declare hlines ?_ (by simp [hshown.type, hconfig.shadow]) hdeclared, ?_⟩
    · exact not_mem_of_assign hlines (by simp [hname, hconfig.shadow]) hassigned
    · intro name h
      obtain rfl : config.shadow = name := by simpa using h
      exact hconfig.shadow

end Shadow

/-! ### Statements that show a value -/

namespace Visualization

/-- A template is expanded on one line. -/
lemma not_mem_expand {output value : Text} (houtput : '\n' ∉ output) (hvalue : '\n' ∉ value)
    {t : Text} (ht : '\n' ∉ t) : '\n' ∉ expand output value t := by
  fun_induction expand output value t <;> simp_all

/-- A value is normalized on one line. -/
lemma not_mem_normalization (mode : Normalization) (width : Nat) {value : Text}
    (hvalue : '\n' ∉ value) : '\n' ∉ mode.apply width value := by
  have hone : '\n' ∉ if width = 1 then "1.0".toList else
      "vec".toList ++ Text.ofNat width ++ "(1.0)".toList := by
    split <;> simp
  cases mode with
  | off => exact hvalue
  | soft =>
    unfold Normalization.apply
    simp only [List.mem_append, not_or]
    exact ⟨⟨⟨⟨⟨⟨by decide, hvalue⟩, by decide⟩, hvalue⟩, by decide⟩, hone⟩, by decide⟩
  | magnitude =>
    unfold Normalization.apply
    simp only [List.mem_append, not_or]
    exact ⟨⟨⟨⟨⟨⟨by decide, hvalue⟩, by decide⟩, hvalue⟩, by decide⟩, hone⟩, by decide⟩

/-- The template for a normalized value stays on one line. -/
lemma not_mem_normalizedTemplate? (mode : Normalization) {value : Text} (hvalue : '\n' ∉ value)
    (components : Nat) :
    ∀ template ∈ ColorRule.normalizedTemplate? mode value components, '\n' ∉ template := by
  have hcolor : '\n' ∉ value ++ ".rgb".toList := by simp [hvalue]
  intro template h
  unfold ColorRule.normalizedTemplate? at h
  split at h
  · obtain rfl := Option.some.inj h
    simp [not_mem_normalization mode 1 hvalue]
  · obtain rfl := Option.some.inj h
    simp [not_mem_normalization mode 2 hvalue]
  · obtain rfl := Option.some.inj h
    simp [not_mem_normalization mode 3 hvalue]
  · obtain rfl := Option.some.inj h
    simp only [List.mem_append, not_or]
    exact ⟨⟨by decide, not_mem_normalization mode 3 hcolor⟩, by decide⟩
  · exact absurd h (by simp)

/-- The template for a value and its comment stay on one line. -/
lemma not_mem_templateFor (options : ColorOptions) {type value : Text} (htype : '\n' ∉ type)
    (hvalue : '\n' ∉ value) :
    '\n' ∉ (templateFor options type value).1 ∧ '\n' ∉ (templateFor options type value).2 := by
  have hrule : ∀ kind, '\n' ∉ (ColorRule.ofType kind).template ∧
      '\n' ∉ (ColorRule.ofType kind).comment := by
    intro kind
    cases kind <;> decide
  unfold templateFor
  dsimp only
  split
  · rename_i template htemplate
    refine ⟨?_, ?_⟩
    · split at htemplate
      · exact absurd htemplate (by simp)
      · exact not_mem_normalizedTemplate? _ hvalue _ _ htemplate
    · cases options.normalization <;> simp [Normalization.word, htype]
  · exact hrule _

/-- The statements that show a value stay on one line each. -/
lemma not_mem_statements (options : ColorOptions) {output type value : Text}
    (houtput : '\n' ∉ output) (htype : '\n' ∉ type) (hvalue : '\n' ∉ value) :
    ∀ l ∈ statements options output type value, '\n' ∉ l := by
  obtain ⟨htemplate, hcomment⟩ := not_mem_templateFor options htype hvalue
  intro l hl
  simp only [statements, List.mem_cons] at hl
  rcases hl with rfl | hl
  · simp [not_mem_expand houtput hvalue htemplate, hcomment]
  · cases hedge : options.stepEdge with
    | none => exact absurd hl (by simp [hedge])
    | some edge =>
      simp only [hedge, Option.map_some, Option.toList_some, List.mem_singleton] at hl
      subst hl
      simp [stepStatement, houtput]

/-- The indented statements that show a value stay on one line each. -/
lemma not_mem_indented (options : ColorOptions) {output type value : Text}
    (hconfig : config.IsPlain) (houtput : '\n' ∉ output) (htype : '\n' ∉ type)
    (hvalue : '\n' ∉ value) : ∀ l ∈ indented config options output type value, '\n' ∉ l := by
  intro l hl
  obtain ⟨statement, hstatement, rfl⟩ := List.mem_map.mp hl
  have hown : '\n' ∉ statement := by
    refine not_mem_statements options ?_ htype hvalue statement hstatement
    split
    · exact hconfig.output
    · exact houtput
  simp [hconfig.indent, hown]

end Visualization

/-! ### Words that are exchanged -/

namespace Text

/-- A whole word and the parts around it make up the text. -/
lemma append_of_splitAtWordFrom {w t front rest : Text} {inWord : Bool}
    (h : splitAtWordFrom w inWord t = some (front, rest)) : front ++ (w ++ rest) = t := by
  induction t generalizing inWord front with
  | nil => exact absurd h (by simp [splitAtWordFrom])
  | cons c t ih =>
    rw [splitAtWordFrom] at h
    split at h
    · rename_i read hread
      obtain ⟨rfl, rfl⟩ := Prod.mk.inj (Option.some.inj h)
      split at hread
      · exact absurd hread (by simp)
      · obtain ⟨hliteral, -⟩ := Option.filter_eq_some_iff.mp hread
        exact (readLiteral?_eq_some_iff.mp hliteral).symm
    · obtain ⟨⟨inner, tail⟩, hinner, h⟩ := Option.map_eq_some_iff.mp h
      obtain ⟨rfl, rfl⟩ := Prod.mk.inj h
      rw [List.cons_append, ih hinner]

/-- Exchanging a word keeps a line on one line. -/
lemma not_mem_replaceWord {w new t : Text} (hnew : '\n' ∉ new) (ht : '\n' ∉ t) :
    '\n' ∉ replaceWord w new t := by
  rw [replaceWord]
  split
  · rename_i front rest hsplit
    rw [← append_of_splitAtWordFrom hsplit] at ht
    simp only [List.mem_append, not_or] at ht ⊢
    exact ⟨⟨ht.1, hnew⟩, ht.2.2⟩
  · exact ht

end Text

namespace Variant

/-- The header of a copy stays on one line. -/
lemma not_mem_renameHeader {line type name : Text} (hline : '\n' ∉ line) (htype : '\n' ∉ type)
    (hname : '\n' ∉ name) : '\n' ∉ renameHeader line type name := by
  rw [renameHeader]
  split
  · exact hline
  · rename_i header hheader
    rw [← Header.text_of_read? hheader] at hline
    simp only [Header.text, List.mem_append, not_or] at hline ⊢
    exact ⟨⟨⟨⟨⟨hline.1.1.1.1.1, htype⟩, hline.1.1.1.2⟩, hname⟩, hline.1.2⟩, hline.2⟩

/-- A variable that does not read as a captured return value, or whose type has no escapes. -/
def IsCapturable (lines : List Text) (line : Nat) (shown : Variable) : Prop :=
  '\\' ∉ shown.type ∨ ∃ statement : Statement,
    Statement.find ({} : Config).maxStatementLines (Comment.strip lines) line =
      .ok (some statement) ∧ ∃ rest, Text.trimLeft statement.text = shown.name ++ rest

/-- The type of a returned value that is captured has no escapes. -/
lemma not_mem_type_of_isCapturable {lines : List Text} {line : Nat} {shown : Variable}
    {returned : ReturnStatement} (hname : shown.name = ({} : Config).captured)
    (hcapture : IsCapturable lines line shown)
    (hreturned : ReturnStatement.find ({} : Config).maxStatementLines lines line =
      .ok (some returned)) : '\\' ∉ shown.type := by
  rcases hcapture with htype | ⟨statement, hstatement, rest, hrest⟩
  · exact htype
  · -- the statement starts with the captured name and not with `return`
    have hnone : Statement.returned? statement.text = none := by
      rw [Statement.returned?, hrest, hname]
      rfl
    rw [ReturnStatement.find] at hreturned
    split at hreturned
    · rw [Int.toNat_natCast, hstatement] at hreturned
      have hbind := Except.ok.inj hreturned
      simp [hnone] at hbind
    · exact absurd hreturned (by simp)

/-- Capturing a returned value changes nothing but the word `return` of the statement. -/
lemma cases_of_captureReturn {lines result : List Text} {line : Nat} {shown : Variable}
    (hcapture : IsCapturable lines line shown)
    (h : captureReturn {} lines line shown = .ok result) :
    result = lines ∨ ∃ returned,
      ReturnStatement.find ({} : Config).maxStatementLines lines line = .ok (some returned) ∧
        result = lines.modify returned.startLine
          (Text.replaceWord "return" (shown.type ++ " " ++ shown.name ++ " =")) := by
  unfold captureReturn at h
  split at h
  · rename_i hname
    obtain ⟨returned, hreturned, h⟩ := bind_eq_ok_iff.mp h
    cases returned with
    | none => exact .inl (Except.ok.inj h).symm
    | some returned =>
      obtain ⟨declaration, hdeclaration, h⟩ := bind_eq_ok_iff.mp h
      have hescape : '\\' ∉ shown.name := by
        rw [hname]
        decide
      rw [captureDeclaration_of_plain
        (not_mem_type_of_isCapturable hname hcapture hreturned) hescape] at hdeclaration
      obtain rfl := Except.ok.inj hdeclaration
      exact .inr ⟨returned, hreturned, (Except.ok.inj h).symm⟩
  · exact .inl (Except.ok.inj h).symm

/-- Capturing a returned value keeps lines of one line each. -/
lemma not_mem_of_captureReturn {lines result : List Text} {line : Nat} {shown : Variable}
    (hlines : ∀ l ∈ lines, '\n' ∉ l) (hshown : shown.IsPlain)
    (hcapture : IsCapturable lines line shown)
    (h : captureReturn {} lines line shown = .ok result) : ∀ l ∈ result, '\n' ∉ l := by
  rcases cases_of_captureReturn hcapture h with rfl | ⟨returned, -, rfl⟩
  · exact hlines
  · have hnew : '\n' ∉ shown.type ++ " ".toList ++ shown.name ++ " =".toList := by
      simp [hshown.type, Text.not_mem_of_isIdent hshown.name]
    intro l hl
    obtain ⟨i, hi, rfl⟩ := List.mem_iff_getElem.mp hl
    rw [List.getElem_modify]
    split
    · exact Text.not_mem_replaceWord hnew (hlines _ (List.getElem_mem _))
    · exact hlines _ (List.getElem_mem _)

/-- The lines in front of a function are lines of the source. -/
lemma not_mem_linesBefore {lines : List Text} (hlines : ∀ l ∈ lines, '\n' ∉ l)
    (function : Signature) : ∀ l ∈ linesBefore config lines function, '\n' ∉ l := by
  intro l hl
  rw [linesBefore] at hl
  split at hl
  · exact hlines l (List.mem_of_mem_take hl)
  · rcases List.mem_append.mp hl with hl | hl
    · exact hlines l (List.mem_of_mem_take (List.mem_of_mem_take hl))
    · exact hlines l (List.mem_of_mem_take (List.mem_of_mem_drop hl))

/-- Closing keeps lines of one line each. -/
lemma not_mem_of_close {lines result : List Text} {start : Nat} (hlines : ∀ l ∈ lines, '\n' ∉ l)
    (h : Balance.close lines start = .ok result) : ∀ l ∈ result, '\n' ∉ l := by
  obtain ⟨n, -, rfl⟩ := Balance.close_eq_ok_iff.mp h
  intro l hl
  rcases List.mem_append.mp hl with hl | hl
  · exact hlines l hl
  · rw [List.eq_of_mem_replicate hl]
    decide

/-- The color output of a plain entry point stays on one line. -/
lemma not_mem_outputOf {entry : Signature} (hconfig : config.IsPlain) (hentry : entry.IsPlain) :
    '\n' ∉ outputOf config entry := by
  rw [outputOf]
  split
  · rename_i parameter hparameter
    exact Text.not_mem_of_isIdent (hentry.parameters _ (List.mem_of_find?_eq_some hparameter)).name
  · exact hconfig.output

/-- A truncated function keeps lines of one line each. -/
lemma not_mem_of_truncated {settings : Settings} {lines kept : List Text} {function : Signature}
    {statementEnd : Nat} {shown : Variable} {loops : List Loop} {name : Text}
    (hconfig : config.IsPlain) (hlines : ∀ l ∈ lines, '\n' ∉ l) (hshown : shown.IsPlain)
    (h : truncated config settings lines function statementEnd shown loops = .ok (kept, name)) :
    (∀ l ∈ kept, '\n' ∉ l) ∧ '\n' ∉ name := by
  obtain ⟨⟨marked, shadow⟩, hmarked, h⟩ := bind_eq_ok_iff.mp h
  obtain ⟨capped, hcapped, h⟩ := bind_eq_ok_iff.mp h
  obtain ⟨rfl, rfl⟩ := Prod.mk.inj (Except.ok.inj h)
  obtain ⟨hresult, hshadow⟩ := Shadow.not_mem_of_insert hconfig
    (fun l hl => hlines l (List.mem_of_mem_take hl)) hshown hmarked
  refine ⟨Cap.not_mem_of_apply hconfig hresult hcapped, ?_⟩
  cases hfilter : shadow.filter (!·.isEmpty) with
  | none => exact Text.not_mem_of_isIdent hshown.name
  | some value => exact hshadow value (Option.filter_eq_some_iff.mp hfilter).1

/-- A truncated copy keeps lines of one line each. -/
lemma not_mem_of_debugCopy {settings : Settings} {lines copy : List Text} {function : Signature}
    {statementEnd : Nat} {shown : Variable} {loops : List Loop} {name : Text}
    (hconfig : config.IsPlain) (hlines : ∀ l ∈ lines, '\n' ∉ l) (hshown : shown.IsPlain)
    (hname : '\n' ∉ name)
    (h : debugCopy config settings lines function statementEnd shown loops name = .ok copy) :
    ∀ l ∈ copy, '\n' ∉ l := by
  obtain ⟨⟨kept, value⟩, hkept, h⟩ := bind_eq_ok_iff.mp h
  obtain ⟨hkept, hvalue⟩ := not_mem_of_truncated hconfig hlines hshown hkept
  dsimp only at h
  split at h
  · exact absurd h (by simp)
  · rename_i header body hdrop
    obtain ⟨closed, hclosed, h⟩ := bind_eq_ok_iff.mp h
    obtain rfl := Except.ok.inj h
    have hpart : ∀ l ∈ header :: body, '\n' ∉ l := fun l hl =>
      hkept l (List.mem_of_mem_drop (hdrop ▸ hl))
    have hrenamed : ∀ l ∈ renameHeader header shown.type name :: body, '\n' ∉ l := by
      intro l hl
      rcases List.mem_cons.mp hl with rfl | hl
      · exact not_mem_renameHeader (hpart _ List.mem_cons_self) hshown.type hname
      · exact hpart l (List.mem_cons_of_mem _ hl)
    intro l hl
    rw [List.mem_append, List.mem_append, List.mem_singleton] at hl
    rcases hl with (hl | rfl) | hl
    · exact hrenamed l hl
    · simp [hconfig.indent, hvalue]
    · exact not_mem_of_close hrenamed hclosed l (List.mem_of_mem_drop hl)

end Variant

/-! ### Synthesized calls -/

namespace Comment

/-- A text without slashes and braces is quiet. -/
lemma isQuiet_of_not_mem {t : Text} (hslash : '/' ∉ t) (hopen : '{' ∉ t) (hclose : '}' ∉ t) :
    IsQuiet t := by
  refine ⟨?_, Text.isFreeOf_iff.mpr fun c hc hbrace => ?_⟩
  · induction t with
    | nil => rfl
    | cons c t ih =>
      rw [List.mem_cons, not_or] at hslash hopen hclose
      have hrest := ih hslash.2 hopen.2 hclose.2
      cases t with
      | nil => rfl
      | cons d t =>
        have hd : '/' ≠ d := fun hd => hslash.2 (hd ▸ List.mem_cons_self)
        rw [isMarkFree, hrest, Bool.and_true, isMark, opens, beq_false_of_ne (Ne.symm hslash.1),
          beq_false_of_ne hd.symm]
        simp
  · simp only [List.mem_cons, List.not_mem_nil, or_false] at hbrace
    rcases hbrace with rfl | rfl
    · exact hopen hc
    · exact hclose hc

/-- Blanks are quiet. -/
lemma isQuiet_of_isBlankOnly {g : Text} (h : Text.isBlankOnly g = true) : IsQuiet g := by
  have hblank := Text.isBlankOnly_iff.mp h
  refine isQuiet_of_not_mem ?_ ?_ ?_
  all_goals exact fun hc => absurd (hblank _ hc) (by decide)

/-- A seam at a character that is in no mark. -/
lemma seam_of_head {s t : Text} {d : Char} (hd : t.head? = some d)
    (hslash : d ≠ '/') (hstar : d ≠ '*') : Seam s t := by
  intro c _ e he
  obtain rfl : d = e := by
    rw [hd] at he
    exact Option.some.inj he
  rw [isMark, opens, beq_false_of_ne hslash, beq_false_of_ne hstar]
  simp

/-- A seam behind a character that is in no mark. -/
lemma seam_of_getLast {s t : Text} {c : Char} (hc : s.getLast? = some c)
    (hslash : c ≠ '/') (hstar : c ≠ '*') : Seam s t := by
  intro e he d _
  obtain rfl : c = e := by
    rw [hc] at he
    exact Option.some.inj he
  rw [isMark, opens, beq_false_of_ne hslash, beq_false_of_ne hstar]
  rfl

/-- Quiet texts separated by commas make a quiet text. -/
lemma isQuiet_intercalate {ts : List Text} (h : ∀ t ∈ ts, IsQuiet t) :
    IsQuiet (", ".toList.intercalate ts) := by
  induction ts with
  | nil => exact ⟨rfl, rfl⟩
  | cons t ts ih =>
    have ht := h t List.mem_cons_self
    cases ts with
    | nil => simpa [List.intercalate] using ht
    | cons t' ts =>
      have hcons : ", ".toList.intercalate (t :: t' :: ts) =
          t ++ (", ".toList ++ ", ".toList.intercalate (t' :: ts)) := by
        simp [List.intercalate]
      have hrest := ih fun x hx => h x (List.mem_cons_of_mem t hx)
      rw [hcons]
      refine ht.append (IsQuiet.append ⟨by decide, by decide⟩ hrest ?_) ?_
      · exact seam_of_getLast (c := ' ') (by decide) (by decide) (by decide)
      · exact seam_of_head (d := ',') (by simp) (by decide) (by decide)

/-- A text without line feeds in front of a tame line. -/
lemma IsTame.append_left {s l : Text} (hs : '\n' ∉ s) (hl : IsTame l) : IsTame (s ++ l) := by
  intro p r h hp
  rcases List.append_eq_append_iff.mp h with ⟨a, rfl, ha⟩ | ⟨a, rfl, ha⟩
  · exact hl a r ha fun hmem => hp (List.mem_append_right s hmem)
  · cases a with
    | nil => exact hl [] r ha.symm List.not_mem_nil
    | cons c a =>
      obtain ⟨rfl, -⟩ := List.cons_eq_cons.mp ha
      exact absurd (List.mem_append_right p List.mem_cons_self) hs

end Comment

namespace CallArguments

/-- The expressions that a request gives for parameters are quiet. -/
def AreQuiet (overrides : Overrides) : Prop :=
  ∀ entry ∈ overrides, ∀ value ∈ entry.2, Comment.IsQuiet value

/-- The value for a plain parameter is quiet. -/
lemma isQuiet_of_valueOf {overrides : Overrides} (hoverrides : AreQuiet overrides)
    {parameter : Parameter} (hparameter : parameter.IsPlain) (visible : Nat) :
    ∀ value ∈ valueOf overrides visible parameter, Comment.IsQuiet value := by
  intro value hvalue
  rw [valueOf] at hvalue
  split at hvalue
  · exact absurd hvalue (by simp)
  · split at hvalue
    · rename_i index given hfound
      exact hoverrides _ (List.mem_of_find?_eq_some hfound) value hvalue
    · exact hparameter.value value hvalue

/-- The name of a local is quiet and stays on one line. -/
lemma isQuiet_storage (position : Nat) :
    Comment.IsQuiet (({} : Config).storageStem ++ Text.ofNat position) ∧
      '\n' ∉ ({} : Config).storageStem ++ Text.ofNat position := by
  have hdigits : ∀ c ∈ Text.ofNat position, c.isDigit = true := fun c hc =>
    Nat.isDigit_of_mem_toDigits (by decide) (by decide) hc
  have hnot : ∀ c : Char, c ∉ ({} : Config).storageStem → c.isDigit = false →
      c ∉ ({} : Config).storageStem ++ Text.ofNat position := by
    intro c hstem hdigit hc
    rcases List.mem_append.mp hc with hc | hc
    · exact hstem hc
    · exact absurd (hdigits c hc) (by simp [hdigit])
  refine ⟨Comment.isQuiet_of_not_mem ?_ ?_ ?_, ?_⟩
  all_goals exact hnot _ (by decide) (by decide)

/-- An argument is quiet, and its local is declared on a tame line. -/
lemma isTame_argument {parameter : Parameter} (hparameter : parameter.IsPlain)
    {value : Option Text} (hvalue : ∀ v ∈ value, Comment.IsQuiet v) (position : Nat) :
    Comment.IsQuiet (argument {} position parameter value).text ∧
      ∀ storage ∈ (argument {} position parameter value).storage, Comment.IsTame storage := by
  obtain ⟨hquiet, hstorage⟩ := isQuiet_storage position
  unfold argument
  dsimp only
  split
  · refine ⟨hquiet, fun storage h => ?_⟩
    obtain rfl := Option.some.inj h
    exact Comment.isTame_of_not_mem (by simp_all [hparameter.type])
  · rename_i value
    have hown := hvalue value rfl
    split
    · refine ⟨hquiet, fun storage h => ?_⟩
      obtain rfl := Option.some.inj h
      rw [List.append_assoc]
      refine Comment.isTame_append (by simp_all [hparameter.type]) ?_
      exact hown.append ⟨rfl, rfl⟩ (Comment.seam_of_head (d := ';') rfl (by decide) (by decide))
    · exact ⟨hown, fun storage h => absurd h (by simp)⟩

/-- The arguments of a call are quiet, and their locals are declared on tame lines. -/
lemma isTame_argumentsFrom {overrides : Overrides} (hoverrides : AreQuiet overrides)
    {parameters : List Parameter} (hparameters : ∀ p ∈ parameters, p.IsPlain)
    (position visible : Nat) :
    ∀ a ∈ argumentsFrom {} overrides position visible parameters, Comment.IsQuiet a.text ∧
      ∀ storage ∈ a.storage, Comment.IsTame storage := by
  induction parameters generalizing position visible with
  | nil => exact fun a ha => absurd ha List.not_mem_nil
  | cons parameter parameters ih =>
    have hparameter := hparameters parameter List.mem_cons_self
    intro a ha
    rcases List.mem_cons.mp ha with rfl | ha
    · exact isTame_argument hparameter (isQuiet_of_valueOf hoverrides hparameter visible) position
    · exact ih (fun p hp => hparameters p (List.mem_cons_of_mem _ hp)) _ _ a ha

end CallArguments

namespace Variant

/-- The header of a synthesized entry point stays on one line. -/
lemma not_mem_entryHeader (hconfig : config.IsPlain) : '\n' ∉ config.entryHeader := by
  unfold Config.entryHeader
  simp [hconfig.entryPoint, hconfig.output, hconfig.coord]

/-- The statements that set up coordinates stay on one line. -/
lemma not_mem_coordinates (hconfig : config.IsPlain) :
    '\n' ∉ config.uvSetup ∧ '\n' ∉ config.centeredUvSetup := by
  unfold Config.uvSetup Config.centeredUvSetup
  simp [hconfig.coord, hconfig.resolution]

/-- A synthesized entry point is made of tame lines, if the given expressions are quiet. -/
lemma isTame_callingEntryPoint {settings : Settings} {callee type : Text}
    {parameters : List Parameter} (hoverrides : CallArguments.AreQuiet settings.overrides)
    (hparameters : ∀ p ∈ parameters, p.IsPlain) (hcallee : '\n' ∉ callee) (htype : '\n' ∉ type) :
    ∀ l ∈ callingEntryPoint {} settings callee parameters type, Comment.IsTame l := by
  have hconfig := Config.isPlain_default
  have harguments := CallArguments.isTame_argumentsFrom hoverrides hparameters 0 0
  have hsetup : ∀ l ∈ (CallArguments.of {} parameters settings.overrides).setup,
      Comment.IsTame l := by
    intro l hl
    simp only [CallArguments.of, CallArguments.coordinates, List.mem_append] at hl
    rcases hl with (hl | hl) | hl
    · split at hl
      · rw [List.mem_singleton.mp hl]
        exact Comment.isTame_of_not_mem (not_mem_coordinates hconfig).1
      · exact absurd hl List.not_mem_nil
    · split at hl
      · rw [List.mem_singleton.mp hl]
        exact Comment.isTame_of_not_mem (not_mem_coordinates hconfig).2
      · exact absurd hl List.not_mem_nil
    · obtain ⟨a, ha, hstorage⟩ := List.mem_filterMap.mp hl
      exact (harguments a ha).2 l hstorage
  have hargs : Comment.IsQuiet (CallArguments.of {} parameters settings.overrides).text := by
    refine Comment.isQuiet_intercalate fun t ht => ?_
    obtain ⟨a, ha, rfl⟩ := List.mem_map.mp ht
    exact (harguments a ha).1
  intro l hl
  simp only [callingEntryPoint, List.mem_append, List.mem_cons, List.mem_map,
    List.not_mem_nil, or_false] at hl
  rcases hl with ((rfl | ⟨statement, hstatement | rfl, rfl⟩) | hl) | rfl
  · exact Comment.isTame_of_not_mem (not_mem_entryHeader hconfig)
  · exact (hsetup statement hstatement).append_left hconfig.indent
  · refine Comment.IsTame.append_left hconfig.indent ?_
    rw [List.append_assoc]
    refine Comment.isTame_append (by simp [htype, hcallee]) ?_
    refine hargs.append ⟨by decide, by decide⟩ ?_
    exact Comment.seam_of_head (d := ')') (by decide) (by decide) (by decide)
  · exact Comment.isTame_of_not_mem
      (Visualization.not_mem_indented _ hconfig List.not_mem_nil htype hconfig.result l hl)
  · exact Comment.isTame_of_not_mem (by decide)

end Variant

/-! ### The balance of a request's answer -/

namespace Variant

variable {settings : Settings} {lines : List Text} {function : Signature} {shown : Variable}
  {loops : List Loop} {text : Text}

/-- The entry point in place is closed from its header on. -/
lemma isClosed_of_entryPoint {statementEnd : Nat} (hlines : ∀ l ∈ lines, '\n' ∉ l)
    (hfunction : function.IsPlain) (hshown : shown.IsPlain)
    (h : entryPoint {} settings lines function statementEnd shown loops = .ok text) :
    Balance.IsClosed text function.startLine := by
  have hconfig := Config.isPlain_default
  obtain ⟨⟨kept, name⟩, hkept, h⟩ := bind_eq_ok_iff.mp h
  obtain ⟨hplain, hname⟩ := not_mem_of_truncated hconfig hlines hshown hkept
  obtain ⟨closed, hclosed, h⟩ := bind_eq_ok_iff.mp h
  obtain ⟨result, hresult, h⟩ := bind_eq_ok_iff.mp h
  obtain rfl := Except.ok.inj h
  refine Balance.isClosed_of_plain (fun l hl => ?_) hresult
  rw [List.mem_append, List.mem_append, List.mem_append] at hl
  rcases hl with ((hl | hl) | hl) | hl
  · exact hplain l hl
  · exact Visualization.not_mem_indented _ hconfig (not_mem_outputOf hconfig hfunction)
      hshown.type hname l hl
  · exact not_mem_of_close hplain hclosed l (List.mem_of_mem_drop hl)
  · split at hl
    · exact hlines l (List.mem_of_mem_drop hl)
    · exact absurd hl List.not_mem_nil

/-- A helper with its truncated copy is closed from the helper on. -/
lemma isClosed_of_helper {line statementEnd : Nat} (hlines : ∀ l ∈ lines, '\n' ∉ l)
    (hfunction : function.IsPlain) (hshown : shown.IsPlain)
    (hcapture : IsCapturable lines line shown)
    (hoverrides : CallArguments.AreQuiet settings.overrides)
    (h : helper {} settings lines function line shown loops (some statementEnd) = .ok text) :
    Balance.IsClosed text (linesBefore {} lines function).length := by
  have hconfig := Config.isPlain_default
  obtain ⟨last, hlast, h⟩ := bind_eq_ok_iff.mp h
  obtain ⟨working, hworking, h⟩ := bind_eq_ok_iff.mp h
  obtain ⟨copy, hcopy, h⟩ := bind_eq_ok_iff.mp h
  obtain ⟨own, hown, h⟩ := bind_eq_ok_iff.mp h
  obtain ⟨result, hresult, h⟩ := bind_eq_ok_iff.mp h
  obtain rfl := Except.ok.inj h
  have hname : '\n' ∉ ({} : Config).copyStem ++ function.name := by
    simp [Text.not_mem_of_isIdent hfunction.name]
  have hcopied := not_mem_of_debugCopy hconfig
    (not_mem_of_captureReturn hlines hshown hcapture hworking) hshown hname hcopy
  have hkept := not_mem_of_close
    (fun l hl => hlines l (List.mem_of_mem_take (List.mem_of_mem_drop hl))) hown
  have hentry := isTame_callingEntryPoint hoverrides hfunction.parameters hname hshown.type
  rw [List.append_assoc, List.append_assoc, List.append_assoc, List.append_assoc] at hresult
  refine Balance.isClosed_of_tame (not_mem_linesBefore hlines function)
    (fun l hl => ?_) hresult
  rw [List.mem_append, List.mem_append, List.mem_append, List.mem_append, List.mem_singleton] at hl
  rcases hl with hl | rfl | hl | rfl | hl
  · exact Comment.isTame_of_not_mem (hkept l hl)
  · exact Comment.isTame_of_not_mem List.not_mem_nil
  · exact Comment.isTame_of_not_mem (hcopied l hl)
  · exact Comment.isTame_of_not_mem List.not_mem_nil
  · exact hentry l hl

/-- A whole helper is closed from the helper on. -/
lemma isClosed_of_wholeHelper (hlines : ∀ l ∈ lines, '\n' ∉ l) (hfunction : function.IsPlain)
    (hoverrides : CallArguments.AreQuiet settings.overrides)
    (h : wholeHelper {} settings lines function = .ok text) :
    Balance.IsClosed text (linesBefore {} lines function).length := by
  obtain ⟨capped, hcapped, h⟩ := bind_eq_ok_iff.mp h
  obtain ⟨own, hown, h⟩ := bind_eq_ok_iff.mp h
  obtain ⟨result, hresult, h⟩ := bind_eq_ok_iff.mp h
  obtain rfl := Except.ok.inj h
  have hplain := Cap.not_mem_of_apply Config.isPlain_default
    (fun l hl => hlines l (List.mem_of_mem_take hl)) hcapped
  have hkept := not_mem_of_close (fun l hl => hplain l (List.mem_of_mem_drop hl)) hown
  have hentry := isTame_callingEntryPoint hoverrides hfunction.parameters
    (Text.not_mem_of_isIdent hfunction.name) (Text.not_mem_of_isIdent hfunction.returnType)
  rw [List.append_assoc, List.append_assoc] at hresult
  refine Balance.isClosed_of_tame (not_mem_linesBefore hlines function)
    (fun l hl => ?_) hresult
  rw [List.mem_append, List.mem_append, List.mem_singleton] at hl
  rcases hl with hl | rfl | hl
  · exact Comment.isTame_of_not_mem (hkept l hl)
  · exact Comment.isTame_of_not_mem List.not_mem_nil
  · exact hentry l hl

end Variant

namespace Probe

variable {settings : Variant.Settings} {lines : List Text} {function : Signature} {text : Text}

/-- The line at which the instrumented function starts in an instrumented text.  An entry point
stays where it is; the lines in front of a helper are kept but for an entry point among them. -/
def functionStart (lines : List Text) (function : Signature) : Nat :=
  if function.isEntryPoint {} then function.startLine
  else (Variant.linesBefore {} lines function).length

/-- The variant that shows a variable is closed. -/
lemma isClosed_of_showVariable {line statementEnd : Nat} {shown : Variable}
    (hlines : ∀ l ∈ lines, '\n' ∉ l) (hfunction : function.IsPlain) (hshown : shown.IsPlain)
    (hcapture : Variant.IsCapturable lines line shown)
    (hoverrides : CallArguments.AreQuiet settings.overrides)
    (h : showVariable {} settings lines function line shown statementEnd = .ok text) :
    Balance.IsClosed text (functionStart lines function) := by
  obtain ⟨loops, -, h⟩ := bind_eq_ok_iff.mp h
  rw [functionStart]
  split at h
  · rename_i hentry
    rw [if_pos hentry]
    exact Variant.isClosed_of_entryPoint hlines hfunction hshown h
  · rename_i hentry
    rw [if_neg hentry]
    exact Variant.isClosed_of_helper hlines hfunction hshown hcapture hoverrides h

/-- The variant of a helper for a line that neither declares nor assigns is closed. -/
lemma isClosed_of_showReturn {line : Nat} (hlines : ∀ l ∈ lines, '\n' ∉ l)
    (hfunction : function.IsPlain) (hhelper : ¬function.isEntryPoint {} = true)
    (hoverrides : CallArguments.AreQuiet settings.overrides)
    (h : showReturn {} settings lines function line = .ok (some text)) :
    Balance.IsClosed text (functionStart lines function) := by
  obtain ⟨returned, -, h⟩ := bind_eq_ok_iff.mp h
  split at h
  · have hshown := map_some_eq_ok_iff.mp h
    have hword := Text.isWordChar_of_isIdent hfunction.returnType
    have hplain : Variable.IsPlain ⟨({} : Config).captured, function.returnType⟩ :=
      ⟨(by decide : Text.isIdent ({} : Config).captured = true),
        Text.not_mem_of_isIdent hfunction.returnType⟩
    exact isClosed_of_showVariable hlines hfunction hplain
      (.inl (Text.not_mem_of_isWordChar hword (by decide))) hoverrides hshown
  · split at h
    · have hwhole := map_some_eq_ok_iff.mp h
      rw [functionStart, if_neg hhelper]
      exact Variant.isClosed_of_wholeHelper hlines hfunction hoverrides hwhole
    · exact absurd (Except.ok.inj h) (by simp)

/-- The variant for a line of a function is closed. -/
lemma isClosed_of_instrumentLine {line : Nat} (hlines : ∀ l ∈ lines, '\n' ∉ l)
    (hfunction : function.IsPlain) (hoverrides : CallArguments.AreQuiet settings.overrides)
    (h : instrumentLine {} settings lines function line = .ok (some text)) :
    Balance.IsClosed text (functionStart lines function) := by
  obtain ⟨found, hfound, h⟩ := bind_eq_ok_iff.mp h
  have hshow : ∀ {shown : Variable} {last : Nat}, found.variable? = some shown →
      some <$> showVariable {} settings lines function line shown last = .ok (some text) →
      Balance.IsClosed text (functionStart lines function) := by
    intro shown last hshown h
    have hresult := map_some_eq_ok_iff.mp h
    obtain ⟨hplain, -, hcases⟩ := Target.cases_of_classify hfunction hshown hfound
    refine isClosed_of_showVariable hlines hfunction hplain (hcases.imp_left fun htype => ?_)
      hoverrides hresult
    exact Text.not_mem_of_isWordChar (GlslType.isWordChar_of_mem htype) (by decide)
  split at h
  · exact hshow rfl h
  · exact hshow rfl h
  · split at h
    · exact absurd (Except.ok.inj h) (by simp)
    · rename_i hentry
      exact isClosed_of_showReturn hlines hfunction hentry hoverrides h

/-- **Instrumented text is balanced, up to an open comment.**  If an answer is given, no block is
left open from the instrumented function on, unless a block comment is open at the end of the
answer; the blocks left open are then as many as the closing braces that the answer ends with. -/
theorem openBlocks_of_instrument (settings : Variant.Settings)
    (hoverrides : CallArguments.AreQuiet settings.overrides) (source : Text) (line : Int)
    (shown : Option Text) (answer : Text)
    (h : instrument {} settings source line shown = .ok (some answer)) :
    ∃ (target : Nat) (function : Signature),
      Target.resolve (Text.lines source) line shown = some target ∧
        Outline.enclosing? {} (Text.lines source) target = some function ∧
          Balance.IsClosed answer (functionStart (Text.lines source) function) := by
  rw [instrument] at h
  split at h
  · exact absurd (Except.ok.inj h) (by simp)
  · rename_i target htarget
    split at h
    · exact absurd (Except.ok.inj h) (by simp)
    · rename_i function hfunction
      refine ⟨target, function, htarget, hfunction, ?_⟩
      exact isClosed_of_instrumentLine (fun l hl => Text.not_mem_lines hl)
        (Outline.isPlain_of_enclosing? hfunction) hoverrides h

/-- A helper that computes a value from its parameter. -/
def plainHelper : Text :=
  Text.ofLines ["float f(float x) \x7b", "  float y = x;", "  return y;", "\x7d"]

/-- A request on the helper that gives an expression of two lines for its parameter. -/
def twoLineSettings : Variant.Settings :=
  { overrides := [(0, some "0.5 *\n 0.25")] }

/-- The answer for the helper, which calls a copy with an expression of two lines. -/
theorem openBlocks_of_instrument_two_lines :
    CallArguments.AreQuiet twoLineSettings.overrides ∧
      ∃ answer, instrument {} twoLineSettings plainHelper 1 none = .ok (some answer) ∧
        ∃ (target : Nat) (function : Signature),
          Target.resolve (Text.lines plainHelper) 1 none = some target ∧
            Outline.enclosing? {} (Text.lines plainHelper) target = some function ∧
              Balance.IsClosed answer (functionStart (Text.lines plainHelper) function) := by
  have hquiet : CallArguments.AreQuiet twoLineSettings.overrides := by
    intro entry hentry value hvalue
    obtain rfl := List.mem_singleton.mp hentry
    obtain rfl := Option.some.inj hvalue
    exact ⟨by decide, by decide⟩
  have hsome : (instrument {} twoLineSettings plainHelper 1 none).toOption.join.isSome = true := by
    decide +kernel
  obtain ⟨answer, hanswer⟩ := Option.isSome_iff_exists.mp hsome
  have hok := eq_ok_of_toOption (Option.join_eq_some_iff.mp hanswer)
  exact ⟨hquiet, answer, hok, openBlocks_of_instrument twoLineSettings hquiet _ _ _ answer hok⟩

/-- An entry point with a block comment that starts behind a statement and ends on the next line. -/
def commentedEntry : Text :=
  Text.ofLines
    ["void mainImage(out vec4 O, in vec2 U) \x7b", "  float a = 1.0; /* first", "  second */",
      "  O = vec4(a);", "\x7d"]

/-- The entry point cut behind the statement, as it is answered: the comment stays open, and the two
braces lie in it. -/
def commentedAnswer : Text :=
  Text.ofLines
    ["void mainImage(out vec4 O, in vec2 U) \x7b", "  float a = 1.0; /* first",
      "  O = vec4(vec3(a), 1.0); // Debug: visualize float as grayscale", "\x7d", "\x7d"]

/-- A text that is cut inside a block comment is not balanced: the block of the entry point, which
starts on the first line, stays open. -/
theorem openBlocks_cut_in_comment :
    instrument {} {} commentedEntry 1 none = .ok (some commentedAnswer) ∧
      (Outline.enclosing? {} (Text.lines commentedEntry) 1).map
          (functionStart (Text.lines commentedEntry)) = some 0 ∧
        Balance.openBlocks (Text.lines commentedAnswer) 0 = 1 := by
  refine ⟨eq_ok_of_toOption ?_, ?_, ?_⟩ <;> decide +kernel

end Probe

end ShaderProbe
