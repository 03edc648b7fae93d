import Mathlib
import ShaderProbe.Proofs.CapturedReturn
import ShaderProbe.Proofs.OutlineOrder
import ShaderProbe.Proofs.StrayBraces

/-!
# Post-processing the color at the end of the entry point

Lines that post-process the color are put into a finished shader in front of the last `}` of the
line on which the entry point ends.  Nothing else changes: the source is cut at one place, and the
lines are put there on lines of their own (`Text.putLines`).

The last `}` of that line is the one that closes the entry point exactly if no `}` stands behind the
latter on its line, be it in code or in a comment.  Then the code in front of the new lines is
inside the body of the entry point at depth one, the brace that closes it follows, and no brace is
gained or lost.
-/

namespace ShaderProbe

namespace Text

/-! ### Lines put into a text -/

/-- The text of some lines, each with its line feed. -/
def ended (ls : List Text) : Text := ls.flatMap (· ++ ['\n'])

@[simp] lemma ended_nil : ended [] = [] := rfl

@[simp] lemma ended_append (ls ls' : List Text) : ended (ls ++ ls') = ended ls ++ ended ls' :=
  List.flatMap_append

@[simp] lemma ended_singleton (l : Text) : ended [l] = l ++ ['\n'] :=
  List.flatMap_singleton _ l

/-- Lines put between two parts of a text, on lines of their own. -/
def putLines (inserted : List Text) (front back : Text) : Text :=
  front ++ ((if front.getLast?.all (· == '\n') then [] else ['\n']) ++ (ended inserted ++ back))

/-- The lines in front of a line are ended. -/
lemma ofLines_append_cons (ls : List Text) (l : Text) (more : List Text) :
    ofLines (ls ++ l :: more) = ended ls ++ ofLines (l :: more) := by
  have hmore := ofLines_around [] l more
  rw [List.nil_append] at hmore
  rw [ofLines_around, hmore, ended, List.flatMap_def]
  rfl

/-- The front of a line stands in front of the text. -/
lemma ofLines_append_line (s t : Text) (more : List Text) :
    ofLines ((s ++ t) :: more) = s ++ ofLines (t :: more) := by
  cases more with
  | nil => rw [ofLines_singleton, ofLines_singleton]
  | cons l more => rw [ofLines_cons_cons, ofLines_cons_cons, List.append_assoc]

/-- Ended lines are ended by a line feed. -/
lemma getLast?_ended (ls : List Text) : (ended ls).getLast?.all (· == '\n') = true := by
  rcases List.eq_nil_or_concat ls with rfl | ⟨ls, l, rfl⟩
  · rfl
  · rw [List.concat_eq_append, ended_append, ended_singleton, ← List.append_assoc,
      List.getLast?_concat]
    rfl

/-- Behind ended lines no line feed is needed. -/
lemma putLines_ended (inserted ls : List Text) (back : Text) :
    putLines inserted (ended ls) back = ended ls ++ (ended inserted ++ back) := by
  rw [putLines, if_pos (getLast?_ended ls), List.nil_append]

/-- A line that is cut is ended. -/
lemma putLines_cut {l : Text} (hne : l ≠ []) (hl : '\n' ∉ l) (inserted ls : List Text)
    (back : Text) :
    putLines inserted (ended ls ++ l) back = ended (ls ++ [l]) ++ (ended inserted ++ back) := by
  have hlast : ¬(ended ls ++ l).getLast?.all (· == '\n') = true := by
    obtain ⟨t, c, rfl⟩ := (List.eq_nil_or_concat l).resolve_left hne
    rw [List.concat_eq_append] at hl ⊢
    have hc : c ≠ '\n' := fun h => hl (by simp [h])
    rw [← List.append_assoc, List.getLast?_concat]
    simpa using hc
  rw [putLines, if_neg hlast]
  simp

/-- Blanks keep all blocks open. -/
lemma keepsOpen_of_isBlankOnly {g : Text} (hg : isBlankOnly g = true) : KeepsOpen g := by
  rintro front ⟨rest, rfl⟩
  rw [isBlankOnly_append, Bool.and_eq_true] at hg
  rw [LoopScan.braceDelta_of_isBlankOnly hg.1]

end Text

/-! ### Places -/

/-- The place behind the front of a line cuts the lines there. -/
lemma Position.cuts_append {ls : List Text} {start : Nat} (hstart : start ≤ ls.length) (s t : Text)
    (more : List Text) :
    (⟨ls.length, s.length⟩ : Position).Cuts (ls ++ (s ++ t) :: more) start
      (Text.ofLines (ls.drop start ++ [s])) (Text.ofLines (t :: more)) := by
  refine ⟨hstart, s ++ t, by simp, by simp, ?_, ?_⟩
  · simp
  · simp

namespace Header

/-- At the place, the body of the function is open at depth one: the code from the first line of the
function up to the place is its header and a part of its body that closes all the blocks it opens
and no more.  The code from the place on is `back`. -/
def IsInBody (header : Header) (code : List Text) (start : Nat) (place : Position) (back : Text) :
    Prop :=
  ∃ front body, place.Cuts code start front back ∧ header.OpensBody body front ∧
    Text.KeepsOpen body ∧ Text.braceDelta body = 0

/-- Blanks at the end of an open body can be exchanged. -/
lemma OpensBody.exchange {header : Header} {front g g' body : Text}
    (h : header.OpensBody body (front ++ g)) (hg : Text.isBlankOnly g = true)
    (hg' : Text.isBlankOnly g' = true) (hopen : Text.KeepsOpen body)
    (hbraces : Text.braceDelta body = 0) :
    ∃ body', header.OpensBody body' (front ++ g') ∧ Text.KeepsOpen body' ∧
      Text.braceDelta body' = 0 := by
  obtain ⟨group, gap, hgroup, hgap, hfront⟩ := h
  have hfree : '{' ∉ g := fun hmem => absurd (Text.isBlankOnly_iff.mp hg _ hmem) (by decide)
  have hsplit : front ++ g = (header.front ++ '(' :: (group ++ ')' :: gap)) ++ '{' :: body := by
    rw [hfront]
    simp
  rcases List.append_eq_append_iff.mp hsplit with ⟨u, hu, hbody⟩ | ⟨u, hu, hbody⟩
  · exact absurd (by rw [hbody]; simp) hfree
  · cases u with
    | nil => exact absurd (by rw [← List.nil_append g, ← hbody]; simp) hfree
    | cons c u =>
      obtain ⟨rfl, hu'⟩ := List.cons.inj hbody
      rw [show body = u ++ g from hu'] at hopen hbraces
      refine ⟨u ++ g', ⟨group, gap, hgroup, hgap, ?_⟩, ?_, ?_⟩
      · rw [hu]
        simp
      · have := ((Text.keepsOpen_of_isBlankOnly hg).append_iff u).mp hopen
        exact ((Text.keepsOpen_of_isBlankOnly hg').append_iff u).mpr this
      · rw [Text.braceDelta_append, LoopScan.braceDelta_of_isBlankOnly hg] at hbraces
        rw [Text.braceDelta_append, LoopScan.braceDelta_of_isBlankOnly hg']
        exact hbraces

end Header

namespace Comment

/-! ### A line with a brace -/

variable {inBlock : Bool} {p gap : Text}

/-- A brace of the code is read on its own. -/
lemma blankLine_brace (hp : blankLine inBlock p = (gap, false))
    (hline : hasLineComment inBlock p = false) (v : Text) :
    blankLine inBlock (p ++ '}' :: v) =
      (gap ++ '}' :: (blankLine false v).1, (blankLine false v).2) := by
  have hseam : Seam p ('}' :: v) := by
    rintro c - d ⟨⟩
    simp [isMark, opens]
  have hbrace : ∀ d ∈ v.head?, opens '}' d = false := fun d _ => rfl
  rw [blankLine_append inBlock p _ hseam, hline, hp, if_neg (by simp), blankLine_cons hbrace]

/-- The code of a line with a brace and of the lines behind it. -/
lemma stripFrom_brace (hp : blankLine inBlock p = (gap, false))
    (hline : hasLineComment inBlock p = false) (v : Text) (more : List Text) :
    stripFrom inBlock ((p ++ '}' :: v) :: more) =
      (gap ++ '}' :: Text.trimRight (blankLine false v).1) :: stripFrom (blankLine false v).2 more := by
  have htrim := Text.trimRight_append_of_getLast? (s := gap ++ ['}']) List.getLast?_concat
    (by decide) (blankLine false v).1
  simp only [List.append_assoc, List.singleton_append] at htrim
  rw [stripFrom, blankLine_brace hp hline]
  dsimp only
  rw [htrim]

/-- Blanks hold no comments, and do not end one. -/
lemma blankLine_of_isBlankOnly (h : Text.isBlankOnly p = true) (inBlock : Bool) :
    blankLine inBlock p = (p.map fun c => if inBlock then ' ' else c, inBlock) ∧
      hasLineComment inBlock p = false := by
  have hfree : isMarkFree p = true := isMarkFree_of_forall_ne fun c hc hslash =>
    absurd (Text.isBlankOnly_iff.mp h c hc) (by rw [hslash]; decide)
  exact ⟨blankLine_of_isMarkFree hfree inBlock, hasLineComment_of_isMarkFree hfree inBlock⟩

/-- A part of one line that is all code. -/
def IsInline (t : Text) : Prop := isSolid t = true ∧ '\n' ∉ t

instance (t : Text) : Decidable (IsInline t) := inferInstanceAs (Decidable (_ ∧ _))

/-- Parts of a line make a part of a line. -/
lemma IsInline.append {s t : Text} (hs : IsInline s) (ht : IsInline t) : IsInline (s ++ t) :=
  ⟨isSolid_append hs.1 ht.1, by rw [List.mem_append, not_or]; exact ⟨hs.2, ht.2⟩⟩

/-- A line that is all code and ends a statement. -/
structure IsCode (l : Text) : Prop where
  isInline : IsInline l
  isEnded : l.getLast? = some ';'

/-- A statement goes on to its end. -/
lemma IsCode.append {s t : Text} (hs : IsInline s) (ht : IsCode t) : IsCode (s ++ t) :=
  ⟨hs.append ht.isInline, by rw [List.getLast?_append, ht.isEnded]; rfl⟩

/-- Lines that are all code are their own code. -/
lemma stripFrom_of_isCode {ls : List Text} (h : ∀ l ∈ ls, IsCode l) (more : List Text) :
    stripFrom false (ls ++ more) = ls ++ stripFrom false more := by
  induction ls with
  | nil => rfl
  | cons l ls ih =>
    rw [List.forall_mem_cons] at h
    obtain ⟨⟨⟨hsolid, -⟩, hlast⟩, hrest⟩ := h
    have htrim : Text.trimRight l = l := Text.trimRight_of_getLast? fun c hc => by
      rw [hlast, Option.mem_some_iff] at hc
      rw [← hc]
      decide
    have hblank : blankLine false l = (l, false) := by
      rw [blankLine_of_isMarkFree (isQuiet_of_isSolid hsolid).isMarkFree]
      simp
    rw [List.cons_append, stripFrom, hblank]
    dsimp only
    rw [htrim, ih hrest, List.cons_append]

end Comment

namespace Visualization

/-- **The statements that post-process a color are code.** -/
lemma isCode_of_mem_postStatements {options : ColorOptions} {output l : Text}
    (houtput : Comment.IsInline output) (h : l ∈ postStatements options output) :
    Comment.IsCode l := by
  have hcolor : Comment.IsInline (output ++ ".rgb".toList) := houtput.append (by decide)
  unfold postStatements at h
  rcases List.mem_append.mp h with h | h
  · split at h
    · exact absurd h (by simp)
    · rw [List.mem_singleton.mp h]
      exact .append ((((hcolor.append (by decide)).append hcolor).append (by decide)).append hcolor)
        ⟨by decide, by decide⟩
    · rw [List.mem_singleton.mp h]
      exact .append ((((hcolor.append (by decide)).append hcolor).append (by decide)).append hcolor)
        ⟨by decide, by decide⟩
  · cases hedge : options.stepEdge with
    | none =>
      rw [hedge] at h
      exact absurd h (by simp)
    | some edge =>
      rw [hedge, Option.map_some, Option.toList_some, List.mem_singleton] at h
      have hnumber : Comment.IsInline (Decimal.fixed 4 edge) :=
        ⟨isSolid_fixed edge, Decimal.not_mem_fixed 4 edge⟩
      rw [h, stepStatement]
      exact .append (((houtput.append (by decide)).append hnumber).append
        (by decide) |>.append houtput) ⟨by decide, by decide⟩

/-- Options that change colors give statements. -/
lemma postStatements_ne_nil {options : ColorOptions} (h : options.isIdentity = false)
    (output : Text) :
    postStatements options output ≠ [] := by
  intro hnil
  unfold postStatements at hnil
  obtain ⟨hnormalized, hstep⟩ := List.append_eq_nil_iff.mp hnil
  have hoff : options.normalization = .off := by
    split at hnormalized
    · assumption
    · exact absurd hnormalized (by simp)
    · exact absurd hnormalized (by simp)
  have hnone : options.stepEdge = none := by
    cases hedge : options.stepEdge with
    | none => rfl
    | some edge =>
      rw [hedge] at hstep
      exact absurd hstep (by simp)
  rw [ColorOptions.isIdentity, hoff, hnone] at h
  exact absurd h (by decide)

end Visualization

namespace Outline

/-! ### The closing line -/

/-- The line on which a function is closed, with the lines above and below it, and the brace on it
that closes the function. -/
structure Closing (lines : List Text) (f : Signature) where
  header : Header
  isLaidOut : IsLaidOut (Comment.strip lines) f header
  above : List Text
  /-- The line in front of the brace. -/
  before : Text
  /-- The line behind the brace. -/
  behind : Text
  below : List Text
  lines_eq : lines = above ++ (before ++ '}' :: behind) :: below
  line : f.endLine = some above.length
  start : f.startLine ≤ above.length
  /-- The code of the line in front of the brace. -/
  gap : Text
  length_gap : gap.length = before.length
  /-- The brace is in no comment. -/
  isCode : Comment.blankLine (Comment.isOpenAfter false above) before = (gap, false) ∧
    Comment.hasLineComment (Comment.isOpenAfter false above) before = false
  /-- The code between the brace that opens the body and the one that closes it. -/
  body : Text
  opensBody : header.OpensBody body
    (Text.ofLines ((Comment.strip above).drop f.startLine ++ [gap]))
  keepsOpen : Text.KeepsOpen body
  braces : Text.braceDelta body = 0

/-- A text that starts with a character other than a line feed starts with it on its first line. -/
lemma exists_of_ofLines_cons {c : Char} (hc : c ≠ '\n') {t l : Text} {more : List Text}
    (h : c :: t = Text.ofLines (l :: more)) : ∃ r, l = c :: r := by
  cases l with
  | nil =>
    cases more with
    | nil => exact absurd h (by simp)
    | cons l' more =>
      rw [Text.ofLines_cons_cons, List.nil_append] at h
      exact absurd (List.cons.inj h).1 hc
  | cons d r =>
    have h' : c :: t = d :: Text.ofLines (r :: more) :=
      h.trans (Text.ofLines_append_line [d] r more)
    exact ⟨r, by rw [(List.cons.inj h').1]⟩

/-- **A function that ends has a closing line.** -/
lemma exists_closing {lines : List Text} {f : Signature} (hf : f ∈ functions {} lines) {last : Nat}
    (hlast : f.endLine = some last) : Nonempty (Closing lines f) := by
  obtain ⟨header, hlaid⟩ := isLaidOut_of_mem_functions hf
  obtain ⟨hstart, hlt⟩ := endLine_bounds hf last hlast
  obtain ⟨column, front, body, tail, ⟨-, l, hl, hcolumn, hfront, hback⟩, hopens, hkeeps, hbraces⟩ :=
    hlaid.isClosed last hlast
  have hsplit : lines = lines.take last ++ lines[last] :: lines.drop (last + 1) := by
    rw [← List.drop_eq_getElem_cons hlt, List.take_append_drop]
  have hlength : (lines.take last).length = last := List.length_take_of_le hlt.le
  generalize lines.take last = above at hsplit hlength
  generalize lines[last] = closing at hsplit
  generalize lines.drop (last + 1) = below at hsplit
  subst hsplit hlength
  have hcode : Comment.strip (above ++ closing :: below) = Comment.strip above ++
      Comment.stripFrom (Comment.isOpenAfter false above) (closing :: below) :=
    Comment.stripFrom_append false above _
  -- the line of the code is the trimmed line without its comments
  have hline : l = Text.trimRight
      (Comment.blankLine (Comment.isOpenAfter false above) closing).1 := by
    rw [hcode, List.getElem?_append_right (by simp), Comment.length_strip, Nat.sub_self,
      Comment.stripFrom] at hl
    exact (Option.some.inj hl).symm
  obtain ⟨r, hr⟩ := exists_of_ofLines_cons (by decide) hback
  obtain ⟨g, -, hg⟩ := Text.exists_trimRight_append
    (Comment.blankLine (Comment.isOpenAfter false above) closing).1
  have hblank : (Comment.blankLine (Comment.isOpenAfter false above) closing).1 =
      l.take column ++ '}' :: (r ++ g) := by
    rw [← hg, ← hline, ← List.cons_append, ← hr, ← List.append_assoc, List.take_append_drop]
  obtain ⟨p, v, rfl, hp, hcode', hcomment, -, -⟩ := Comment.exists_of_blankLine hblank (by decide)
  refine ⟨⟨header, hlaid, above, p, v, below, rfl, hlast, hstart, l.take column, hp.symm,
    ⟨hcode', hcomment⟩, body, ?_, hkeeps, hbraces⟩⟩
  rw [hfront, hcode, List.take_left' (Comment.length_strip above)] at hopens
  exact hopens

namespace Closing

variable {lines : List Text} {f : Signature} (c : Closing lines f)

/-- The place of the brace. -/
def place : Position := ⟨c.above.length, c.before.length⟩

/-- The source in front of the brace. -/
def front : Text := Text.ended c.above ++ c.before

/-- The source behind the brace. -/
def back : Text := Text.ofLines (c.behind :: c.below)

/-- The code behind the brace. -/
def tail : Text :=
  Text.ofLines (Text.trimRight (Comment.blankLine false c.behind).1 ::
    Comment.stripFrom (Comment.blankLine false c.behind).2 c.below)

/-- The lines above the line with the brace. -/
lemma take_lines : lines.take c.above.length = c.above :=
  (congrArg (List.take c.above.length) c.lines_eq).trans List.take_left

/-- The line with the brace. -/
lemma getElem?_lines : lines[c.above.length]? = some (c.before ++ '}' :: c.behind) :=
  (congrArg (·[c.above.length]?) c.lines_eq).trans (by simp)

/-- The lines below the line with the brace. -/
lemma drop_lines : lines.drop (c.above.length + 1) = c.below :=
  (congrArg (List.drop (c.above.length + 1)) c.lines_eq).trans (by simp)

/-- The source is cut at the brace. -/
lemma source_eq {source : Text} (c : Closing (Text.lines source) f) :
    source = c.front ++ '}' :: c.back := by
  conv_lhs => rw [← Text.ofLines_lines source, c.lines_eq]
  rw [Text.ofLines_append_cons, Text.ofLines_append_line, front, List.append_assoc]
  exact congrArg _ (congrArg _ (Text.ofLines_append_line ['}'] c.behind c.below))

/-- The code of the lines is the code above, the line with the brace, and the code below. -/
lemma strip_lines : Comment.strip lines = Comment.strip c.above ++
    (c.gap ++ '}' :: Text.trimRight (Comment.blankLine false c.behind).1) ::
      Comment.stripFrom (Comment.blankLine false c.behind).2 c.below := by
  conv_lhs => rw [c.lines_eq]
  rw [Comment.strip, Comment.stripFrom_append, Comment.stripFrom_brace c.isCode.1 c.isCode.2]
  rfl

/-- The tail starts on the line of the brace. -/
lemma ofLines_brace :
    Text.ofLines (('}' :: Text.trimRight (Comment.blankLine false c.behind).1) ::
      Comment.stripFrom (Comment.blankLine false c.behind).2 c.below) = '}' :: c.tail :=
  Text.ofLines_append_line ['}'] _ _

/-- The brace closes the body of the function. -/
lemma isInBody : c.header.IsInBody (Comment.strip lines) f.startLine c.place ('}' :: c.tail) := by
  refine ⟨_, c.body, ?_, c.opensBody, c.keepsOpen, c.braces⟩
  have hstart : f.startLine ≤ (Comment.strip c.above).length := by
    rw [Comment.length_strip]
    exact c.start
  have hcuts := Position.cuts_append hstart c.gap
    ('}' :: Text.trimRight (Comment.blankLine false c.behind).1)
    (Comment.stripFrom (Comment.blankLine false c.behind).2 c.below)
  rw [Comment.length_strip, c.length_gap, ← c.strip_lines, c.ofLines_brace] at hcuts
  exact hcuts

end Closing

end Outline

namespace Variant

/-! ### Lines in front of the brace -/

/-- What stands in front of a brace keeps a line of its own, unless it is blank. -/
def ownLine (head : Text) : List Text := if Text.isBlankOnly head then [] else [head]

/-- Blanks in front of a brace stay in front of it. -/
def ownIndent (head : Text) : Text := if Text.isBlankOnly head then head else []

/-- The indent is blank. -/
lemma isBlankOnly_ownIndent (head : Text) : Text.isBlankOnly (ownIndent head) = true := by
  unfold ownIndent
  split
  · assumption
  · rfl

/-- A text with a brace is no indent. -/
lemma ownIndent_of_mem {head : Text} (h : '}' ∈ head) : ownIndent head = [] :=
  if_neg fun hblank => absurd (Text.isBlankOnly_iff.mp hblank _ h) (by decide)

/-- The lines in front of the last brace of a line. -/
lemma beforeLastBrace_eq (head : Text) {rest : Text} (h : '}' ∉ rest) (statements : List Text) :
    beforeLastBrace (head ++ '}' :: rest) statements =
      ownLine head ++ (statements ++ [ownIndent head ++ '}' :: rest]) := by
  have hsplit : Text.splitTail (· != '}') (head ++ '}' :: rest) = (head ++ ['}'], rest) := by
    rw [Text.splitTail_eq_iff]
    refine ⟨by simp, fun c hc => bne_iff_ne.mpr fun hbrace => h (hbrace ▸ hc), fun c hc => ?_⟩
    rw [List.getLast?_concat, Option.mem_some_iff] at hc
    simp [← hc]
  unfold beforeLastBrace ownLine ownIndent
  rw [hsplit]
  dsimp only
  rw [List.dropLast_concat, List.drop_left]
  split <;> simp

/-- The lines of the result. -/
lemma lines_beforeLastBrace {above below : List Text} {head rest : Text} (h : '}' ∉ rest)
    (statements : List Text) :
    above ++ beforeLastBrace (head ++ '}' :: rest) statements ++ below =
      (above ++ ownLine head) ++ (statements ++ (ownIndent head ++ '}' :: rest) :: below) := by
  rw [beforeLastBrace_eq head h]
  simp

/-- **The lines are put into the text of the source** at the last brace of a line. -/
lemma ofLines_beforeLastBrace (above below : List Text) {head rest : Text} (h : '}' ∉ rest)
    (hfeed : '\n' ∉ head) (statements : List Text) :
    ∃ front back : Text, Text.ofLines (above ++ (head ++ '}' :: rest) :: below) = front ++ back ∧
      Text.ofLines (above ++ beforeLastBrace (head ++ '}' :: rest) statements ++ below) =
        Text.putLines statements front back ∧
      front ++ ownIndent head = Text.ended above ++ head := by
  have hsource : Text.ofLines (above ++ (head ++ '}' :: rest) :: below) =
      Text.ended above ++ (head ++ Text.ofLines (('}' :: rest) :: below)) := by
    rw [Text.ofLines_append_cons, Text.ofLines_append_line]
  have hresult : Text.ofLines (above ++ beforeLastBrace (head ++ '}' :: rest) statements ++ below) =
      Text.ended (above ++ ownLine head) ++ (Text.ended statements ++
        (ownIndent head ++ Text.ofLines (('}' :: rest) :: below))) := by
    rw [lines_beforeLastBrace h, ← List.append_assoc, Text.ofLines_append_cons,
      Text.ofLines_append_line, Text.ended_append, List.append_assoc]
  rw [hsource, hresult]
  by_cases hblank : Text.isBlankOnly head = true
  · refine ⟨Text.ended above, ownIndent head ++ Text.ofLines (('}' :: rest) :: below), ?_, ?_, ?_⟩
    all_goals simp only [ownLine, ownIndent, if_pos hblank, List.append_nil]
    rw [Text.putLines_ended]
  · have hne : head ≠ [] := fun hnil => hblank (hnil ▸ rfl)
    refine ⟨Text.ended above ++ head, Text.ofLines (('}' :: rest) :: below), ?_, ?_, ?_⟩
    · rw [List.append_assoc]
    · simp only [ownLine, ownIndent, if_neg hblank, List.nil_append]
      rw [Text.putLines_cut hne hfeed]
    · rw [ownIndent, if_neg hblank, List.append_nil]

section Closing

variable {lines : List Text} {f : Signature} (c : Outline.Closing lines f)

/-- Blanks in front of the brace are code: they do not end a comment, so that none is open in front
of them. -/
lemma gap_of_isBlankOnly (h : Text.isBlankOnly c.before = true) :
    Comment.isOpenAfter false c.above = false ∧ c.gap = c.before := by
  obtain ⟨hblank, -⟩ := Comment.blankLine_of_isBlankOnly h (Comment.isOpenAfter false c.above)
  obtain ⟨hgap, hopen⟩ := Prod.mk.inj (c.isCode.1.symm.trans hblank)
  refine ⟨hopen.symm, ?_⟩
  rw [hgap, ← hopen]
  simp

/-- No comment is open where the lines are put. -/
lemma isOpenAfter_ownLine : Comment.isOpenAfter false (c.above ++ ownLine c.before) = false := by
  rw [Comment.isOpenAfter_append]
  unfold ownLine
  split
  · rename_i hblank
    exact (gap_of_isBlankOnly c hblank).1
  · rw [Comment.isOpenAfter, c.isCode.1]
    rfl

/-- The code in front of the lines that are put in. -/
lemma strip_ownLine :
    Comment.strip (c.above ++ ownLine c.before) =
      Comment.strip c.above ++
        if Text.isBlankOnly c.before then [] else [Text.trimRight c.gap] := by
  rw [Comment.strip, Comment.stripFrom_append]
  unfold ownLine
  split
  · rfl
  · rw [Comment.stripFrom, c.isCode.1]
    rfl

/-- The body is open at depth one where the lines are put. -/
lemma opensBody_ownLine :
    ∃ body, c.header.OpensBody body (Text.ofLines
        ((Comment.strip (c.above ++ ownLine c.before)).drop f.startLine ++ [[]])) ∧
      Text.KeepsOpen body ∧ Text.braceDelta body = 0 := by
  have hstart : f.startLine ≤ (Comment.strip c.above).length := by
    rw [Comment.length_strip]
    exact c.start
  have hopens := c.opensBody
  rw [strip_ownLine, List.drop_append_of_le_length hstart]
  rw [Text.ofLines_append_cons, Text.ofLines_singleton] at hopens
  split
  · rename_i hblank
    have hgap : Text.isBlankOnly c.gap = true := by rwa [(gap_of_isBlankOnly c hblank).2]
    obtain ⟨body, hbody⟩ := hopens.exchange hgap (rfl : Text.isBlankOnly [] = true) c.keepsOpen
      c.braces
    refine ⟨body, ?_⟩
    rw [List.append_nil, Text.ofLines_append_cons, Text.ofLines_singleton]
    exact hbody
  · obtain ⟨g, hg, hgap⟩ := Text.exists_trimRight_append c.gap
    rw [← hgap, ← List.append_assoc] at hopens
    obtain ⟨body, hbody⟩ := hopens.exchange hg (by decide : Text.isBlankOnly ['\n'] = true)
      c.keepsOpen c.braces
    refine ⟨body, ?_⟩
    rw [Text.ofLines_append_cons, Text.ofLines_singleton, Text.ended_append, Text.ended_singleton,
      List.append_nil, ← List.append_assoc]
    exact hbody

/-- The code of the result. -/
lemma strip_beforeLastBrace {inserted : List Text} (hinserted : ∀ l ∈ inserted, Comment.IsCode l) :
    Comment.strip ((c.above ++ ownLine c.before) ++
        (inserted ++ (ownIndent c.before ++ '}' :: c.behind) :: c.below)) =
      Comment.strip (c.above ++ ownLine c.before) ++ (inserted ++
        (ownIndent c.before ++ '}' :: Text.trimRight (Comment.blankLine false c.behind).1) ::
          Comment.stripFrom (Comment.blankLine false c.behind).2 c.below) := by
  obtain ⟨hblank, hline⟩ :=
    Comment.blankLine_of_isBlankOnly (isBlankOnly_ownIndent c.before) false
  have hindent : Comment.blankLine false (ownIndent c.before) = (ownIndent c.before, false) := by
    rw [hblank]
    simp
  rw [Comment.strip, Comment.stripFrom_append, isOpenAfter_ownLine,
    Comment.stripFrom_of_isCode hinserted, Comment.stripFrom_brace hindent hline]
  rfl

/-- The lines are put into the body, in front of the brace that closes it. -/
lemma isInBody_beforeLastBrace {inserted : List Text}
    (hinserted : ∀ l ∈ inserted, Comment.IsCode l) :
    c.header.IsInBody (Comment.strip ((c.above ++ ownLine c.before) ++
        (inserted ++ (ownIndent c.before ++ '}' :: c.behind) :: c.below))) f.startLine
      ⟨(c.above ++ ownLine c.before).length, 0⟩
      (Text.ended inserted ++ (ownIndent c.before ++ '}' :: c.tail)) := by
  obtain ⟨body, hopens, hkeeps, hbraces⟩ := opensBody_ownLine c
  refine ⟨_, body, ?_, hopens, hkeeps, hbraces⟩
  have hstart : f.startLine ≤ (Comment.strip (c.above ++ ownLine c.before)).length := by
    rw [Comment.length_strip, List.length_append]
    exact c.start.trans (Nat.le_add_right _ _)
  rw [strip_beforeLastBrace c hinserted, ← Comment.length_strip (c.above ++ ownLine c.before),
    ← c.ofLines_brace, ← Text.ofLines_append_line, ← Text.ofLines_append_cons]
  obtain ⟨l, more, hmore⟩ := List.exists_cons_of_ne_nil (l := inserted ++
    (ownIndent c.before ++ '}' :: Text.trimRight (Comment.blankLine false c.behind).1) ::
      Comment.stripFrom (Comment.blankLine false c.behind).2 c.below) (by simp)
  rw [hmore]
  exact Position.cuts_append hstart [] l more

/-- No brace is gained or lost. -/
lemma bracesOf_beforeLastBrace {inserted : List Text}
    (hinserted : ∀ l ∈ inserted, Comment.IsCode l) :
    Text.bracesOf (Comment.strip ((c.above ++ ownLine c.before) ++
        (inserted ++ (ownIndent c.before ++ '}' :: c.behind) :: c.below))) =
      Text.bracesOf (Comment.strip lines) := by
  have hzero : Text.bracesOf inserted = 0 := by
    have hquiet := (Comment.HasBraces.of_isQuiet fun l hl =>
      Comment.isQuiet_of_isSolid (hinserted l hl).isInline.1).braces
    have hstrip := Comment.stripFrom_of_isCode hinserted []
    rw [List.append_nil, Comment.stripFrom_eq] at hstrip
    rw [← Text.bracesOf_map_trimRight, hstrip] at hquiet
    simpa [Comment.stripFrom] using hquiet
  rw [strip_beforeLastBrace c hinserted, c.strip_lines, strip_ownLine]
  unfold ownIndent
  split
  · rename_i hblank
    rw [(gap_of_isBlankOnly c hblank).2]
    simp [hzero]
  · simp only [Text.bracesOf_append, Text.bracesOf_cons, Text.bracesOf_nil, Text.braceDelta_append,
      Text.braceDelta_trimRight, Text.braceDelta_nil, hzero]
    ring

end Closing

/-! ### The result -/

/-- The lines that post-process the color of an entry point. -/
def postLines (options : ColorOptions) (entry : Signature) : List Text :=
  (Visualization.postStatements options (outputOf {} entry)).map (({} : Config).indent ++ ·)

/-- The lines that post-process the color are code. -/
lemma isCode_of_mem_postLines (options : ColorOptions) {entry : Signature}
    (hentry : entry.IsPlain) :
    ∀ l ∈ postLines options entry, Comment.IsCode l := by
  intro l hl
  obtain ⟨statement, hstatement, rfl⟩ := List.mem_map.mp hl
  exact .append (by decide) (Visualization.isCode_of_mem_postStatements
    ⟨isSolid_outputOf hentry, not_mem_outputOf Config.isPlain_default hentry⟩ hstatement)

/-- The lines of a result are those of the source and those that are put in. -/
lemma lines_ofLines_beforeLastBrace {source : Text} {f : Signature}
    (c : Outline.Closing (Text.lines source) f) (hbehind : '}' ∉ c.behind) {inserted : List Text}
    (hinserted : ∀ l ∈ inserted, Comment.IsCode l) :
    Text.lines (Text.ofLines (c.above ++ beforeLastBrace (c.before ++ '}' :: c.behind) inserted ++
        c.below)) =
      (c.above ++ ownLine c.before) ++
        (inserted ++ (ownIndent c.before ++ '}' :: c.behind) :: c.below) := by
  have hsource : ∀ l ∈ c.above ++ (c.before ++ '}' :: c.behind) :: c.below, '\n' ∉ l := fun l hl =>
    Text.not_mem_lines ((congrArg (l ∈ ·) c.lines_eq).mpr hl)
  rw [List.forall_mem_append, List.forall_mem_cons, List.mem_append, not_or] at hsource
  obtain ⟨habove, ⟨hbefore, hrest⟩, hbelow⟩ := hsource
  rw [lines_beforeLastBrace hbehind, Text.lines_ofLines (by simp), Text.flatMap_lines]
  rw [List.forall_mem_append, List.forall_mem_append, List.forall_mem_append, List.forall_mem_cons,
    List.mem_append, not_or]
  refine ⟨⟨habove, fun l hl => ?_⟩, fun l hl => (hinserted l hl).isInline.2, ⟨?_, hrest⟩, hbelow⟩
  · unfold ownLine at hl
    split at hl
    · exact absurd hl (by simp)
    · rwa [List.mem_singleton.mp hl]
  · unfold ownIndent
    split
    · exact hbefore
    · simp

/-- A result comes from an entry point with a closing line. -/
lemma exists_of_postProcessed {options : ColorOptions} {source result : Text}
    (h : postProcessed {} options source = some result) :
    ∃ (entry : Signature) (c : Outline.Closing (Text.lines source) entry),
      (Outline.functions {} (Text.lines source)).find? (Signature.isEntryPoint {}) = some entry ∧
      options.isIdentity = false ∧ result = Text.ofLines (c.above ++
        beforeLastBrace (c.before ++ '}' :: c.behind) (postLines options entry) ++ c.below) := by
  unfold postProcessed at h
  split at h
  · exact absurd h (by simp)
  · rename_i hidentity
    simp only [Option.bind_eq_bind, Option.bind_eq_some_iff] at h
    obtain ⟨entry, hentry, last, hlast, closing, hclosing, hresult⟩ := h
    obtain ⟨c⟩ := Outline.exists_closing (List.mem_of_find?_eq_some hentry) hlast
    refine ⟨entry, c, hentry, Bool.eq_false_iff.mpr hidentity, ?_⟩
    obtain rfl : c.above.length = last := Option.some.inj (c.line.symm.trans hlast)
    obtain rfl := Option.some.inj (c.getElem?_lines.symm.trans hclosing)
    rw [← Option.some.inj hresult, c.take_lines, c.drop_lines]
    rfl

/-- The last of some braces. -/
lemma exists_last_brace {t : Text} (h : '}' ∈ t) : ∃ s rest, t = s ++ '}' :: rest ∧ '}' ∉ rest := by
  induction t with
  | nil => exact absurd h (by simp)
  | cons c t ih =>
    by_cases ht : '}' ∈ t
    · obtain ⟨s, rest, rfl, hrest⟩ := ih ht
      exact ⟨c :: s, rest, rfl, hrest⟩
    · obtain rfl := (List.mem_cons.mp h).resolve_right ht
      exact ⟨[], t, rfl, ht⟩

/-- **Post-processing goes inside the entry point.**  The lines are put between two parts of the
source. They stand right in front of the brace that closes the first entry point exactly if no other
`}` stands behind it on its line, and behind it otherwise.  In the first case no brace is gained or
lost, and in the code of the result the lines stand inside the body at depth one, with the brace
that closes it right behind them. -/
theorem postProcessed_eq_putLines (options : ColorOptions) (source result : Text)
    (h : postProcessed {} options source = some result) :
    ∃ (entry : Signature) (c : Outline.Closing (Text.lines source) entry) (front back : Text),
      (Outline.functions {} (Text.lines source)).find? (Signature.isEntryPoint {}) = some entry ∧
      c.header.IsInBody (Comment.strip (Text.lines source)) entry.startLine c.place
        ('}' :: c.tail) ∧
      source = c.front ++ '}' :: c.back ∧
      postLines options entry ≠ [] ∧
      source = front ++ back ∧ result = Text.putLines (postLines options entry) front back ∧
      ((∃ gap, Text.isBlankOnly gap = true ∧ c.front = front ++ gap) ↔ '}' ∉ c.behind) ∧
      ('}' ∈ c.behind → ∃ s, front = c.front ++ '}' :: s) ∧
      ('}' ∉ c.behind →
        Text.bracesOf (Comment.strip (Text.lines result)) =
          Text.bracesOf (Comment.strip (Text.lines source)) ∧
        ∃ n gap, Text.isBlankOnly gap = true ∧
          c.header.IsInBody (Comment.strip (Text.lines result)) entry.startLine ⟨n, 0⟩
            (Text.ended (postLines options entry) ++ (gap ++ '}' :: c.tail))) := by
  obtain ⟨entry, c, hentry, hidentity, rfl⟩ := exists_of_postProcessed h
  have hplain := Outline.isPlain_of_mem_functions (List.mem_of_find?_eq_some hentry)
  have hcode := isCode_of_mem_postLines options hplain
  have hne : postLines options entry ≠ [] := by
    rw [postLines, ne_eq, List.map_eq_nil_iff]
    exact Visualization.postStatements_ne_nil hidentity _
  have hfeed : '\n' ∉ c.before ++ '}' :: c.behind :=
    Text.not_mem_lines (List.mem_of_getElem? c.getElem?_lines)
  by_cases hbehind : '}' ∈ c.behind
  · -- the lines are put in front of another brace, behind the one that closes the entry point
    obtain ⟨s, rest, hsplit, hrest⟩ := exists_last_brace hbehind
    have hcut : c.before ++ '}' :: c.behind = (c.before ++ '}' :: s) ++ '}' :: rest := by
      rw [hsplit]
      simp
    rw [hcut] at hfeed ⊢
    obtain ⟨front, back, hsource, hresult, hfront⟩ := ofLines_beforeLastBrace c.above c.below hrest
      (fun hmem => hfeed (List.mem_append_left _ hmem)) (postLines options entry)
    have hlater : front = c.front ++ '}' :: s := by
      rw [ownIndent_of_mem (by simp), List.append_nil] at hfront
      rw [hfront, Outline.Closing.front, List.append_assoc]
    refine ⟨entry, c, front, back, hentry, c.isInBody, c.source_eq, hne, ?_, hresult, ?_,
      fun _ => ⟨s, hlater⟩, fun hnot => absurd hbehind hnot⟩
    · rw [← hsource, ← hcut, ← c.lines_eq, Text.ofLines_lines]
    · refine iff_of_false ?_ (not_not.mpr hbehind)
      rintro ⟨gap, -, hgap⟩
      have hlength := congrArg List.length hgap
      rw [hlater] at hlength
      simp only [List.length_append, List.length_cons] at hlength
      omega
  · obtain ⟨front, back, hsource, hresult, hfront⟩ :=
      ofLines_beforeLastBrace c.above c.below hbehind
      (fun hmem => hfeed (List.mem_append_left _ hmem)) (postLines options entry)
    have hlines := lines_ofLines_beforeLastBrace c hbehind hcode
    refine ⟨entry, c, front, back, hentry, c.isInBody, c.source_eq, hne, ?_, hresult, ?_,
      fun hmem => absurd hmem hbehind, fun _ => ?_⟩
    · rw [← hsource, ← c.lines_eq, Text.ofLines_lines]
    · exact iff_of_true ⟨ownIndent c.before, isBlankOnly_ownIndent c.before, hfront.symm⟩ hbehind
    · rw [hlines]
      exact ⟨bracesOf_beforeLastBrace c hcode, _, _, isBlankOnly_ownIndent c.before,
        isInBody_beforeLastBrace c hcode⟩

/-- An entry point whose last line holds a statement, the closing brace and a comment. -/
def commentedEnd : Text :=
  "void mainImage(out vec4 O, in vec2 U) \x7b\n  O = vec4(1.0); \x7d // end"

/-- The same with the line that is put in. -/
def commentedEndResult : Text :=
  "void mainImage(out vec4 O, in vec2 U) \x7b\n  O = vec4(1.0); \n" ++
    "  O.rgb = O.rgb / (abs(O.rgb) + vec3(1.0)) * 0.5 + 0.5;\n\x7d // end"

/-- The closing line is cut, and the closing brace follows the line that is put in. -/
theorem postProcessed_eq_putLines_commentedEnd :
    postProcessed {} ⟨.soft, none⟩ commentedEnd = some commentedEndResult ∧
    ∃ (entry : Signature) (c : Outline.Closing (Text.lines commentedEnd) entry), '}' ∉ c.behind ∧
      Text.bracesOf (Comment.strip (Text.lines commentedEndResult)) =
        Text.bracesOf (Comment.strip (Text.lines commentedEnd)) ∧
      ∃ n gap, Text.isBlankOnly gap = true ∧
        c.header.IsInBody (Comment.strip (Text.lines commentedEndResult)) entry.startLine ⟨n, 0⟩
          (Text.ended (postLines ⟨.soft, none⟩ entry) ++ (gap ++ '}' :: c.tail)) := by
  have hresult : postProcessed {} ⟨.soft, none⟩ commentedEnd = some commentedEndResult := by
    decide +kernel
  obtain ⟨entry, c, front, back, hentry, -, -, -, -, -, -, -, hinside⟩ :=
    postProcessed_eq_putLines _ _ _ hresult
  have hend : ((Outline.functions {} (Text.lines commentedEnd)).find?
      (Signature.isEntryPoint {})).map Signature.endLine = some (some 1) := by decide +kernel
  rw [hentry, Option.map_some, c.line] at hend
  -- the line has one brace, and it is the closing one
  have hone : (Text.lines commentedEnd)[1]?.map (List.count '}') = some 1 := by decide +kernel
  have hline := c.getElem?_lines
  rw [Option.some.inj (Option.some.inj hend)] at hline
  rw [hline, Option.map_some, Option.some.injEq, List.count_append, List.count_cons_self] at hone
  have hbehind : '}' ∉ c.behind := List.count_eq_zero.mp (by omega)
  exact ⟨hresult, entry, c, hbehind, hinside hbehind⟩

/-- An entry point with another brace in a comment behind its closing brace. -/
def commentedBrace : Text :=
  "void mainImage(out vec4 O, in vec2 U) \x7b\n  O = vec4(1.0);\n\x7d // \x7d"

/-- The same with the line that is put in. -/
def commentedBraceResult : Text :=
  "void mainImage(out vec4 O, in vec2 U) \x7b\n  O = vec4(1.0);\n\x7d // \n" ++
    "  O.rgb = O.rgb / (abs(O.rgb) + vec3(1.0)) * 0.5 + 0.5;\n\x7d"

/-- The line is put behind the closing brace, and a brace of the comment becomes code. -/
theorem postProcessed_commentedBrace :
    postProcessed {} ⟨.soft, none⟩ commentedBrace = some commentedBraceResult ∧
      Text.bracesOf (Comment.strip (Text.lines commentedBrace)) = 0 ∧
      Text.bracesOf (Comment.strip (Text.lines commentedBraceResult)) = -1 := by
  refine ⟨?_, ?_, ?_⟩
  all_goals decide +kernel

end Variant

end ShaderProbe
