import Mathlib
import ShaderProbe.Proofs.CodeWords
import ShaderProbe.Proofs.CopiedHeader

/-!
# The returns of a copy

A truncated copy of a helper returns the shown value at its end.  What it returns earlier is what
the helper returns on the lines that are kept: nothing of it is taken away and nothing is added
(`Probe.countWord_return_of_copy`).  So a copy whose value has another type than the result of the
helper has returns of two types if the helper returns early.
-/

namespace ShaderProbe

/-! ### Statements that return a value -/

namespace Text

/-- A text that starts with characters that are not blank starts with a word that does. -/
lemma exists_words_append {s : Text} (hne : s ≠ []) (h : ∀ c ∈ s, isBlank c = false) (t : Text) :
    ∃ rest ws, words (s ++ t) = (s ++ rest) :: ws := by
  induction s with
  | nil => exact absurd rfl hne
  | cons c s ih =>
    have hc := h c List.mem_cons_self
    rw [List.cons_append, words, if_neg (by simp [hc])]
    cases s with
    | nil =>
      split
      · exact ⟨[], _, rfl⟩
      · split
        · exact ⟨_, _, rfl⟩
        · exact ⟨[], [], rfl⟩
    | cons d s =>
      obtain ⟨rest, ws, hwords⟩ := ih (by simp) fun x hx => h x (List.mem_cons_of_mem c hx)
      have hd := h d (by simp)
      rw [if_neg (by simp [startsBlank, hd]), hwords]
      exact ⟨rest, ws, rfl⟩

/-- Blanks in front of a text hold no words. -/
lemma words_append_of_isBlankOnly {g : Text} (hg : isBlankOnly g = true) (t : Text) :
    words (g ++ t) = words t := by
  induction g with
  | nil => rfl
  | cons c g ih =>
    have hblank := isBlankOnly_iff.mp hg
    rw [List.cons_append, words, if_pos (hblank c List.mem_cons_self)]
    exact ih (isBlankOnly_iff.mpr fun x hx => hblank x (List.mem_cons_of_mem c hx))

end Text

namespace Statement

/-- A text that returns a value starts with the word `return`. -/
lemma exists_of_returned? {t expression : Text} (h : returned? t = some expression) :
    ∃ gap rest, t = gap ++ ("return".toList ++ rest) ∧ Text.isBlankOnly gap = true ∧
      Text.startsWord rest = false := by
  obtain ⟨rest, hrest, -⟩ := Option.bind_eq_some_iff.mp h
  obtain ⟨hread, hstart⟩ := Option.filter_eq_some_iff.mp hrest
  refine ⟨Text.indent t, rest, ?_, Text.isBlankOnly_indent t, by simpa using hstart⟩
  rw [← Text.readLiteral?_eq_some_iff.mp hread, Text.indent_append_trimLeft]

/-- **A statement that returns a value declares nothing.** -/
lemma declared?_of_returned? {t expression : Text} (h : returned? t = some expression) :
    declared? t = none := by
  obtain ⟨gap, rest, rfl, hgap, -⟩ := exists_of_returned? h
  have hequals : ∀ c ∈ gap ++ "return".toList, (c != '=') = true := by
    intro c hc
    rcases List.mem_append.mp hc with hc | hc
    · have := Text.isBlankOnly_iff.mp hgap c hc
      exact bne_iff_ne.mpr (by rintro rfl; exact absurd this (by decide))
    · exact (by simp : ∀ c ∈ "return".toList, (c != '=') = true) c hc
  have htake : (gap ++ ("return".toList ++ rest)).takeWhile (· != '=') =
      gap ++ ("return".toList ++ rest.takeWhile (· != '=')) := by
    rw [← List.append_assoc, List.takeWhile_append_of_pos hequals, List.append_assoc]
  -- the first word is neither a type nor a qualifier
  have hword := Text.isWordChar_of_isIdent (by decide : Text.isIdent "return" = true)
  obtain ⟨tail, ws, hwords⟩ := Text.exists_words_append (by decide : "return".toList ≠ [])
    (fun c hc => isBlank_eq_false_of_isWordChar (hword c hc)) (rest.takeWhile (· != '='))
  have hfirst : ∀ w ∈ qualifiers ++ GlslType.variableKeywords, w ≠ "return".toList ++ tail := by
    have hhead : ∀ w ∈ qualifiers ++ GlslType.variableKeywords, w.head? ≠ some 'r' := by
      decide +kernel
    rintro w hw rfl
    exact hhead _ hw rfl
  rw [declared?, htake, Text.words_append_of_isBlankOnly hgap, hwords]
  split
  · rename_i name type front _ value hreverse hvalue
    rw [if_neg]
    simp only [Bool.and_eq_true, List.all_eq_true, List.contains_iff_mem]
    rintro ⟨⟨⟨⟨hfront, htype⟩, -⟩, -⟩, -⟩
    have hmem : "return".toList ++ tail ∈ type :: front := by
      have hlast := congrArg List.getLast? hreverse
      rw [List.getLast?_reverse, List.head?_cons, List.getLast?_cons_cons] at hlast
      exact List.mem_of_getLast? hlast.symm
    rcases List.mem_cons.mp hmem with heq | hmem
    · exact hfirst type (List.mem_append_right _ htype) heq.symm
    · exact hfirst _ (List.mem_append_left _ (hfront _ hmem)) rfl
  · rfl

/-- **A statement that returns a value assigns nothing.** -/
lemma assigned?_of_returned? {t expression : Text} (h : returned? t = some expression) :
    assigned? t = none := by
  obtain ⟨gap, rest, rfl, hgap, hstart⟩ := exists_of_returned? h
  have hread : Text.readIdent? (Text.trimLeft (gap ++ ("return".toList ++ rest))) =
      some ("return".toList, rest) := by
    have htail : ∀ c ∈ "eturn".toList, isWordChar c = true := fun c hc =>
      Text.isWordChar_of_isIdent (by decide : Text.isIdent "return" = true) c
        (List.mem_cons_of_mem 'r' hc)
    have hnone : rest.takeWhile isWordChar = [] ∧ rest.dropWhile isWordChar = rest := by
      cases rest with
      | nil => exact ⟨rfl, rfl⟩
      | cons c rest =>
        have hc : isWordChar c = false := hstart
        simp [hc]
    have hcons : "return".toList ++ rest = 'r' :: ("eturn".toList ++ rest) := rfl
    rw [Text.trimLeft_append hgap, hcons, Text.trimLeft_cons (by decide), Text.readIdent?,
      if_pos (by decide), List.takeWhile_append_of_pos htail, List.dropWhile_append_of_pos htail,
      hnone.1, hnone.2]
    rfl
  have hkeyword : Header.controlKeywords.contains "return".toList = true := by decide
  refine Option.bind_eq_none_iff.mpr fun found hname => ?_
  obtain rfl := Option.some.inj (hread.symm.trans hname)
  refine Option.bind_eq_none_iff.mpr fun accessed _ =>
    Option.bind_eq_none_iff.mpr fun assignment _ => if_neg ?_
  rw [hkeyword]
  simp

/-- A statement that returns a value is not shown as one of any kind. -/
lemma classify_of_returned? {code : List Text} {function : Option Signature} {s : Statement}
    {expression : Text} (h : returned? s.text = some expression) (kinds : List Kind) :
    s.classify code function kinds = .ok (.noMatch .otherStatement) := by
  induction kinds with
  | nil => rfl
  | cons kind kinds ih =>
    have hkind : classifyAs code function s kind = .ok none := by
      cases kind with
      | declaration => rw [classifyAs, declared?_of_returned? h, Option.map_none]
      | assignment => rw [classifyAs, assigned?_of_returned? h]
    rw [classify, hkind]
    exact ih

end Statement

namespace Probe

/-- A line at which no value is returned is left as it is. -/
lemma captureReturn_of_find {lines : List Text} {line : Nat} {v : Variable} {s : Statement}
    (hfind : Statement.find ({} : Config).maxStatementLines (Comment.strip lines) line =
      .ok (some s)) (h : Statement.returned? s.text = none) :
    Variant.captureReturn {} lines line v = .ok lines := by
  rw [Variant.captureReturn, ReturnStatement.find_of_find hfind, h]
  split <;> rfl

/-- **A value of another type than the result of the helper is not captured.** -/
lemma captureReturn_of_planLine {lines : List Text} {function : Signature} {line last : Nat}
    {v : Variable} (h : planLine {} lines function line = .ok (.value function line v last))
    (htype : v.type ≠ function.returnType) :
    Variant.captureReturn {} lines line v = .ok lines := by
  obtain ⟨found, hfound, h⟩ := bind_eq_ok_iff.mp h
  have hshown : ∀ span, found.span? = some span →
      Variant.captureReturn {} lines line v = .ok lines := by
    intro span hspan
    obtain ⟨s, hfind, -, hclassify⟩ := Target.find_of_classify hfound hspan
    refine captureReturn_of_find hfind ?_
    by_contra hreturned
    obtain ⟨expression, hexpression⟩ := Option.ne_none_iff_exists'.mp hreturned
    rw [Statement.classify_of_returned? hexpression] at hclassify
    obtain rfl := Except.ok.inj hclassify
    exact absurd hspan (by simp [Classification.span?])
  cases found with
  | declaration shown first last => exact hshown _ rfl
  | assignment shown operator first last => exact hshown _ rfl
  | noMatch cause =>
    dsimp only at h
    split at h
    · exact absurd (Except.ok.inj h) (by simp)
    · obtain ⟨returned, -, h⟩ := bind_eq_ok_iff.mp h
      split at h
      · obtain ⟨-, -, rfl, -⟩ := Plan.value.inj (Except.ok.inj h)
        exact absurd rfl htype
      · split at h <;> exact absurd (Except.ok.inj h) (by simp)

end Probe

/-! ### Headers -/

namespace Header

variable {header : Header}

/-- The words in front of the parenthesis. -/
lemma countWord_front {lead type gap name tail : Text}
    (hlead : Text.startsWord lead.reverse = false) (hgap : gap ≠ [] ∧ ∀ c ∈ gap, isBlank c = true)
    (htail : ∀ c ∈ tail, isBlank c = true) :
    Text.countWord "return" (lead ++ (type ++ (gap ++ (name ++ tail)))) =
      Text.countWord "return" lead +
        (Text.countWord "return" type + Text.countWord "return" name) := by
  have hne : "return".toList ≠ [] := by decide
  have hu : 'u' ∈ "return".toList := by decide
  obtain ⟨c, g, rfl⟩ := List.exists_cons_of_ne_nil hgap.1
  have hword : ∀ {s : Text}, (∀ c ∈ s, isBlank c = true) → ∀ x ∈ s, isWordChar x = false :=
    fun hs => Text.isWordChar_of_isBlankOnly (Text.isBlankOnly_iff.mpr hs)
  rw [Text.countWord_append_left hne hlead, Text.countWord_append_right hne type
      (by exact hword hgap.2 c List.mem_cons_self),
    Text.countWord_around hu (by decide) (hword hgap.2) (hword htail)]

/-- The type and the name can be read off the line in front of the parenthesis. -/
lemma IsWellFormed.eq_of_front {header' : Header} (h : header.IsWellFormed)
    (h' : header'.IsWellFormed) (hfront : header.front = header'.front) :
    header.returnType = header'.returnType ∧ header.name = header'.name := by
  have hread : read? (header.front ++ ['(']) = some { header with rest := ['('] } :=
    read?_eq_some_iff.mpr ⟨text_eq _, { h with rest := rfl }⟩
  have hread' : read? (header'.front ++ ['(']) = some { header' with rest := ['('] } :=
    read?_eq_some_iff.mpr ⟨text_eq _, { h' with rest := rfl }⟩
  rw [← hfront] at hread'
  have heq := Option.some.inj (hread.symm.trans hread')
  obtain ⟨-, hreturnType, -, hname, -, -⟩ := Header.mk.inj heq
  exact ⟨hreturnType, hname⟩

/-- The text in front of the parenthesis can be put next to code. -/
lemma IsWellFormed.isInset (h : header.IsWellFormed) {part : Text} (hpart : part ⊆ header.front) :
    Comment.IsInset part := by
  refine .of_plain fun c hc => ?_
  have hcases := h.cases_of_mem_front (hpart hc)
  constructor <;> rintro rfl <;> exact absurd hcases (by decide)

/-- So can the text with another type and another name. -/
lemma IsWellFormed.isInset_exchange (h : header.IsWellFormed) {type name : Text}
    (htype : Comment.isSolid type = true) (hname : Comment.isSolid name = true) :
    Comment.IsInset (header.lead ++ (type ++ (header.gap ++ (name ++ header.tail)))) := by
  refine (h.isInset ?_).append ((Comment.isInset_of_isSolid htype).append
    ((h.isInset ?_).append ((Comment.isInset_of_isSolid hname).append (h.isInset ?_))))
  all_goals
    intro c hc
    simp [Header.front, hc]

/-- The code of a line that starts with plain text and a parenthesis. -/
lemma countWord_blankLine {front rest : Text} (hfront : Comment.IsInset front)
    (hrest : rest.head? = some '(') :
    Text.countWord "return" (Comment.blankLine false (front ++ rest)).1 =
      Text.countWord "return" front + Text.countWord "return" (Comment.blankLine false rest).1 := by
  rw [hfront.blankLine_append]
  cases rest with
  | nil => exact absurd hrest (by simp)
  | cons c rest =>
    obtain rfl : c = '(' := Option.some.inj hrest
    refine Text.countWord_append_right (by decide) front ?_
    rw [← List.singleton_append, Comment.blankLine_append_of_plain (by simp)]
    rfl

end Header

namespace Variant

/-- **A header line that is renamed keeps its returns.** -/
lemma countWord_renameHeader {line type name : Text} (hsolid : Comment.isSolid type = true)
    (htype : Text.countWord "return" type = 0) (hname : Text.isIdent name = true)
    (hcopy : Text.countWord "return" name = 0)
    (hline : ∀ header, Header.read? line = some header →
      Text.countWord "return" header.returnType = 0 ∧ Text.countWord "return" header.name = 0) :
    Text.countWord "return" (Comment.blankLine false (renameHeader line type name)).1 =
      Text.countWord "return" (Comment.blankLine false line).1 := by
  rw [renameHeader]
  cases hread : Header.read? line with
  | none => rfl
  | some header =>
    dsimp only
    obtain ⟨hreturnType, hheaderName⟩ := hline header hread
    obtain ⟨rfl, hheader⟩ := Header.read?_eq_some_iff.mp hread
    have hlead : Text.startsWord header.lead.reverse = false := by
      cases hrev : header.lead.reverse with
      | nil => rfl
      | cons c r =>
        refine hheader.leadEnd c ?_
        rw [← List.head?_reverse, hrev]
        rfl
    have hfront := hheader.isInset_exchange hsolid (Comment.isSolid_of_isIdent hname)
    have hrenamed : ({ header with returnType := type, name } : Header).text =
        (header.lead ++ (type ++ (header.gap ++ (name ++ header.tail)))) ++ header.rest :=
      Header.text_eq _
    rw [hrenamed, Header.text_eq, Header.countWord_blankLine hfront hheader.rest,
      Header.countWord_blankLine (hheader.isInset (List.Subset.refl _)) hheader.rest, Header.front,
      Header.countWord_front hlead hheader.gap hheader.tail,
      Header.countWord_front hlead hheader.gap hheader.tail, htype, hcopy, hreturnType, hheaderName]

variable {settings : Settings} {lines : List Text} {function : Signature} {statementEnd : Nat}
  {shown : Variable} {loops : List Loop}

/-- The value is read from the variable, or from its shadow behind loops. -/
lemma value_of_truncated {kept : List Text} {value : Text}
    (h : truncated {} settings lines function statementEnd shown loops = .ok (kept, value)) :
    value = if loops = [] then shown.name else ({} : Config).shadow := by
  obtain ⟨⟨marked, shadow⟩, hinsert, h⟩ := bind_eq_ok_iff.mp h
  obtain ⟨capped, -, h⟩ := bind_eq_ok_iff.mp h
  obtain ⟨-, rfl⟩ := Prod.mk.inj (Except.ok.inj h)
  unfold Shadow.insert at hinsert
  cases hmost : Loop.outermost? loops with
  | none =>
    rw [hmost] at hinsert
    obtain ⟨-, rfl⟩ := Prod.mk.inj (Except.ok.inj hinsert)
    rw [Loop.eq_nil_of_outermost? hmost]
    rfl
  | some outermost =>
    have hne : loops ≠ [] := List.ne_nil_of_mem (Loop.mem_of_outermost? hmost)
    rw [hmost] at hinsert
    obtain ⟨assigned, -, hinsert⟩ := bind_eq_ok_iff.mp hinsert
    obtain ⟨declared, -, hinsert⟩ := bind_eq_ok_iff.mp hinsert
    obtain ⟨-, rfl⟩ := Prod.mk.inj (Except.ok.inj hinsert)
    rw [if_neg hne]
    rfl

/-- **Truncation adds no return** to the lines that are kept. -/
theorem wordCount_of_truncated {kept : List Text} {value : Text}
    (hcut : IsCut lines function statementEnd loops)
    (hfront : ∀ loop ∈ loops, Shadow.StartsInFront
      (lines.take (keptLines lines.length statementEnd loops)) function.startLine statementEnd loop)
    (hident : Text.isIdent shown.name = true) (hsolid : Comment.isSolid shown.type = true)
    (htype : Text.countWord "return" shown.type = 0)
    (hname : Text.countWord "return" shown.name = 0)
    (h : truncated {} settings lines function statementEnd shown loops = .ok (kept, value)) :
    Comment.wordCount "return" false kept = Comment.wordCount "return" false
        (lines.take (keptLines lines.length statementEnd loops)) := by
  obtain ⟨⟨marked, shadow⟩, hinsert, h⟩ := bind_eq_ok_iff.mp h
  obtain ⟨capped, hcapped, h⟩ := bind_eq_ok_iff.mp h
  obtain ⟨rfl, -⟩ := Prod.mk.inj (Except.ok.inj h)
  exact (Cap.wordCount_of_apply hcapped).trans (Shadow.wordCount_of_insert hcut.lt_length
    hcut.start hcut.liesIn hfront hident hsolid htype hname hinsert)

end Variant

namespace Probe

/-- The loops around a statement start in front of its end, also in the lines that are kept. -/
lemma startsInFront_of_loopsAround {lines : List Text} {function : Signature} {line n : Nat}
    {s : Statement} {loops : List Loop}
    (hfind : Statement.find ({} : Config).maxStatementLines (Comment.strip lines) line =
      .ok (some s))
    (hend : Statement.endAt ({} : Config).maxStatementLines lines s.endLine =
      .ok (some ⟨s.endLine, s.endColumn⟩))
    (hstart : function.startLine ≤ s.endLine) (hn : s.endLine < n)
    (hloops : loopsAround {} lines function line = .ok loops) :
    ∀ loop ∈ loops, Shadow.StartsInFront (lines.take n) function.startLine s.endLine loop := by
  intro loop hloop
  have hfound := mem_find_of_loopsAround hloops loop hloop
  rw [loopsAround, Statement.endAt_of_find hfind] at hloops
  obtain rfl := Except.ok.inj hloops
  obtain ⟨⟨header, k⟩, hkeyword, hline, hcode⟩ := (Loop.isMarked_of_mem_find hfound).keyword
  obtain rfl : header = loop.headerLine := hline
  -- the keyword is in front of the `;`
  obtain ⟨m, code, -, -, -, -, hlast⟩ :=
    Shadow.exists_offset_of_endAt (Statement.endAt_of_find hfind) hstart
  obtain ⟨span, -, hspan, htrue, hencloses⟩ := Shadow.exists_span_of_mem_enclosing hlast hloop
  have hbefore := htrue.keyword_lt.trans (LoopSpan.lt_of_encloses htrue hencloses).1
  have hlocate : loop.keyword = some (FlatText.locate
      ⟨Loop.codeFrom lines function.startLine, function.startLine⟩ span.keyword) := by
    rw [hspan]
    rfl
  have hplace := Position.isBefore_iff.mp ((FlatText.isBefore_locate
    ⟨Loop.codeFrom lines function.startLine, function.startLine⟩ span.keyword _).trans
      (decide_eq_true hbefore))
  rw [← Option.some.inj (hkeyword.symm.trans hlocate), hlast] at hplace
  have hkept := (Loop.headerLine_le_of_mem_enclosing hloop).trans_lt hn
  refine ⟨k, hkeyword, hcode.of_take ?_, fun code' hcode' => ?_, ?_⟩
  · rw [List.take_take, Nat.min_eq_left hkept]
  · refine (Loop.hasEdges_of_mem_find hfound).keyword _ hkeyword code' ?_
    rw [← List.take_append_drop n lines, Comment.blankFrom_append, List.getElem?_append_left]
    · exact hcode'
    · exact (List.getElem?_eq_some_iff.mp hcode').1
  · refine hplace.imp_right fun h => ⟨h.1, fun column hcolumn => ?_⟩
    rw [Statement.endAt_take hend hn] at hcolumn
    obtain rfl : s.endColumn = column := by simpa using hcolumn
    exact h.2.le

/-- An identifier is another word than `return`. -/
lemma countWord_of_isIdent {t : Text} (ht : Text.isIdent t = true) (hne : t ≠ "return") :
    Text.countWord "return" t = 0 := by
  rw [Text.countWord_of_word (Text.isWordChar_of_isIdent ht), if_neg hne]

/-- The header line of a copy is read as the header of the function, if it is read at all. -/
lemma eq_of_read? {lines kept body : List Text} {start : Nat} {header found : Header}
    {group line : Text} {place : Position} (hheader : header.IsWellFormed)
    (hends : Signature.EndsAt lines start header.front group place)
    (hagree : place.Agrees lines kept)
    (hopen : Comment.isOpenAfter false (lines.take start) = false)
    (hdrop : kept.drop start = line :: body) (hread : Header.read? line = some found) :
    found.returnType = header.returnType ∧ found.name = header.name := by
  obtain ⟨rfl, hfound⟩ := Header.read?_eq_some_iff.mp hread
  obtain ⟨l, rest, tail, more, hlines, hcode, -⟩ := hends.exists_header hopen
  have hfirst : ∀ {ls : List Text} {l : Text} {ls'}, ls.drop start = l :: ls' →
      ls[start]? = some l := by
    intro ls l ls' h
    rw [← List.head?_drop, h, List.head?_cons]
  have hfront := hends.takeWhile_eq hagree hopen (hfirst hlines) (hfirst hdrop)
  rw [hfound.takeWhile_text.1] at hfront
  refine hfound.eq_of_front hheader ?_
  have hline : Text.trimRight (Comment.blankLine false l).1 = header.front ++ '(' :: tail := by
    rw [Comment.stripFrom] at hcode
    exact (List.cons.inj hcode).1
  rcases hheader.eq_front_or_mem hline with heq | hslash
  · exact hfront.trans heq
  · rw [← hfront] at hslash
    exact absurd (hfound.cases_of_mem_front hslash) (by decide)

/-- **A copy of another type returns early where the helper does.**  The value that is shown is not
of the type that the helper returns.  Then the copy is made of lines of code in which `return`
stands as often as in the code of the helper that is kept, a line that returns the value, and
closing braces. -/
theorem countWord_return_of_copy {settings : Variant.Settings} {source answer : Text} {line : Int}
    {shown : Option Text} {function : Signature} {target last : Nat} {v : Variable} {s : Statement}
    (hplan : plan {} (Text.lines source) line shown = .ok (.value function target v last))
    (hhelper : function.isEntryPoint {} = false)
    (hanswer : instrument {} settings source line shown = .ok (some answer))
    (htype : v.type ≠ function.returnType)
    (hfind : Statement.find ({} : Config).maxStatementLines (Comment.strip (Text.lines source))
      target = .ok (some s))
    (hend : Statement.endAt ({} : Config).maxStatementLines (Text.lines source) s.endLine =
      .ok (some ⟨s.endLine, s.endColumn⟩))
    (hcomplete : (Signature.parse? {} ((Text.lines source).take s.startLine) function.startLine
      none).isSome = true)
    (hopen : Comment.isOpenAfter false ((Text.lines source).take function.startLine) = false)
    (hsolid : Comment.isSolid v.type = true) (hword : Text.countWord "return" v.type = 0)
    (hname : v.name ≠ "return") :
    ∃ (loops : List Loop) (own body : List Text) (closers closers' : Nat),
      loopsAround {} (Text.lines source) function target = .ok loops ∧
      Variant.functionLines (Text.lines source) function = .ok own ∧
      Text.lines answer = Variant.linesBefore {} (Text.lines source) function ++ (own ++ ([] ::
        ((body ++ (({} : Config).indent ++ "return " ++
            (if loops = [] then v.name else ({} : Config).shadow) ++ ";") ::
              List.replicate closers ['}']) ++ ([] :: ((Variant.callingEntryPoint {} settings
          (({} : Config).copyStem ++ function.name) function.parameters v.type).flatMap
            Text.lines ++ List.replicate closers' ['}']))))) ∧
      Text.countWord "return" (Text.ofLines (Comment.strip body)) =
        Text.countWord "return" (Text.ofLines (((Comment.strip (Text.lines source)).take
          (Variant.keptLines (Text.lines source).length s.endLine loops)).drop
            function.startLine)) := by
  have hrun := hanswer
  rw [instrument_eq_run, hplan] at hrun
  rcases exists_plan (Text.lines source) line shown with
    hnothing | ⟨target', function', p, -, hfunction, hplanLine, hplan', hfor⟩
  · exact absurd (hplan.symm.trans hnothing) (by simp)
  obtain rfl := Except.ok.inj (hplan.symm.trans hplan')
  cases hfor with
  | @value _ s' hfind' hshown hknown hcapture =>
  obtain rfl := Option.some.inj (Except.ok.inj (hfind.symm.trans hfind'))
  have hmem := Outline.mem_of_enclosingIn? hfunction
  have hlines : ∀ l ∈ Text.lines source, '\n' ∉ l := fun l hl => Text.not_mem_lines hl
  have hident := (Outline.isPlain_of_mem_functions hmem).name
  obtain ⟨loops, hloops, hshow⟩ := bind_eq_ok_iff.mp (map_some_eq_ok_iff.mp hrun)
  rw [if_neg (Bool.eq_false_iff.mp hhelper)] at hshow
  obtain ⟨working, own, copy, closers', hworking, hcopy, hown, hanswerLines⟩ :=
    Variant.exists_lines_of_helper hlines hident hshown hcapture hshow
  obtain rfl := Except.ok.inj (hworking.symm.trans (captureReturn_of_planLine hplanLine htype))
  obtain ⟨kept, value, header, body, closers, hkept, hdrop, -, rfl⟩ :=
    Variant.exists_of_debugCopy hcopy
  obtain rfl := Variant.value_of_truncated hkept
  refine ⟨loops, own, _, closers, closers', hloops, hown, hanswerLines, ?_⟩
  have hcut := isCut_of_find hfunction hfind hloops
  have hcount := Variant.wordCount_of_truncated hcut
    (startsInFront_of_loopsAround hfind hend hcut.start hcut.lt_keptLines hloops) hshown.name hsolid
    hword (countWord_of_isIdent hshown.name hname) hkept
  have htake := Variant.take_of_truncated hcut.liesIn hcut.start hkept
  -- the header line is renamed
  obtain ⟨header', group, place, hheader, hisFunction, hends, hline, -, -, -⟩ :=
    Signature.exists_endsAt_of_take hmem hcomplete
  have hagree := agrees_of_copy hfunction hfind hcapture hloops hends hline hworking hkept
  have hcopyName := Variant.isIdent_copyName hident
  have hkeyword : "return".toList ∈ Header.controlKeywords := by decide
  have hrenamed := Variant.countWord_renameHeader hsolid hword hcopyName.1
    (countWord_of_isIdent hcopyName.1 (ne_of_mem_of_not_mem hkeyword hcopyName.2).symm)
    fun found hread => by
      obtain ⟨htype', hname'⟩ := eq_of_read? hheader hends hagree hopen hdrop hread
      obtain ⟨htypeWord, hnameWord⟩ := Header.isFunction_iff.mp hisFunction
      rw [htype', hname']
      exact ⟨countWord_of_isIdent hheader.returnType (ne_of_mem_of_not_mem hkeyword htypeWord).symm,
        countWord_of_isIdent hheader.name (ne_of_mem_of_not_mem hkeyword hnameWord).symm⟩
  have hcounts := Variant.countsAs_renameHeader header hsolid
    (Comment.isSolid_of_isIdent hcopyName.1) false
  have hu : 'u' ∈ "return".toList := by decide
  set n := Variant.keptLines (Text.lines source).length s.endLine loops
  have hkeptTake : ((Text.lines source).take n).take function.startLine =
      (Text.lines source).take function.startLine := by
    rw [List.take_take, Nat.min_eq_left (hcut.start.trans hcut.lt_keptLines.le)]
  have hfront : Comment.isOpenAfter false (kept.take function.startLine) = false := by
    rw [htake, hopen]
  have hfront' : Comment.isOpenAfter false
      (((Text.lines source).take n).take function.startLine) = false := by
    rw [hkeptTake, hopen]
  rw [Comment.wordCount_split hfront, Comment.wordCount_split hfront', htake, hkeptTake] at hcount
  calc Text.countWord "return" (Text.ofLines (Comment.strip _))
      = Comment.wordCount "return" false (header :: body) := by
        rw [Comment.strip, Comment.countWord_stripFrom hu (by decide), Comment.wordCount_cons,
          Comment.wordCount_cons, hrenamed, hcounts.2]
    _ = Comment.wordCount "return" false
          (((Text.lines source).take n).drop function.startLine) := by
        rw [← hdrop]
        exact Nat.add_left_cancel hcount
    _ = Text.countWord "return" (Text.ofLines (((Comment.strip (Text.lines source)).take n).drop
          function.startLine)) := by
        rw [← Comment.strip_take, Comment.strip_drop hfront',
          Comment.countWord_stripFrom hu (by decide)]

/-- A helper with an early return and a loop over a vector. -/
def earlyExit : Text :=
  Text.ofLines
    ["float f(float x) \x7b", "  if (x < 0.0) return 0.0; // return early", "  vec3 c = vec3(x);",
      "  for (int i = 0; i < 4; i++) \x7b", "    c += x;", "  \x7d", "  return c.x;", "\x7d"]

/-- The helper, as it is read from its header. -/
def earlyExitSignature : Signature :=
  { name := "f"
    returnType := "float"
    parameters := [.ofType {} "x" "float" .input]
    startLine := 0
    endLine := some 7 }

/-- The copy that returns the vector behind the capped loop keeps the early return. -/
theorem countWord_return_of_copy_capped :
    ∃ (answer : Text) (own body rest : List Text),
      instrument {} { caps := [(0, 2)] } earlyExit 4 none = .ok (some answer) ∧
      Variant.functionLines (Text.lines earlyExit) earlyExitSignature = .ok own ∧
      Text.lines answer = own ++ ([] :: (body ++ "  return _dbgShadow;".toList :: rest)) ∧
      Text.countWord "return" (Text.ofLines (Comment.strip body)) = 1 := by
  have hplan : plan {} (Text.lines earlyExit) 4 none =
      .ok (.value earlyExitSignature 4 ⟨"c", "vec3"⟩ 4) := eq_ok_of_toOption (by decide +kernel)
  have hfind : Statement.find ({} : Config).maxStatementLines
      (Comment.strip (Text.lines earlyExit)) 4 = .ok (some ⟨"c += x;", 4, 4, 10⟩) := rfl
  have hsome : (instrument {} { caps := [(0, 2)] } earlyExit 4 none).toOption.join.isSome =
      true := by decide +kernel
  obtain ⟨answer, hanswer⟩ := Option.isSome_iff_exists.mp hsome
  have hok := eq_ok_of_toOption (Option.join_eq_some_iff.mp hanswer)
  obtain ⟨loops, own, body, closers, closers', hloops, hown, hlines, hcount⟩ :=
    countWord_return_of_copy hplan rfl hok (by decide) hfind rfl (by decide +kernel)
      (by decide +kernel) (by decide) (by decide) (by decide)
  have hsource : loopsAround {} (Text.lines earlyExit) earlyExitSignature 4 =
      .ok (Loop.find (Text.lines earlyExit) 0) := eq_ok_of_toOption (by decide +kernel)
  obtain rfl := Except.ok.inj (hsource.symm.trans hloops)
  rw [if_neg (by decide +kernel)] at hlines
  have hbefore : Variant.linesBefore {} (Text.lines earlyExit) earlyExitSignature = [] := by
    decide +kernel
  rw [hbefore, List.nil_append, List.append_assoc] at hlines
  exact ⟨answer, own, body, _, hok, hown, hlines, hcount.trans (by decide +kernel)⟩

/-- A helper with an early return in front of a vector. -/
def earlyReturn : Text :=
  Text.ofLines
    ["float f(float x) \x7b", "  if (x > 0.5) return 0.0;", "  vec3 c = vec3(x);", "  return c.x;",
      "\x7d"]

/-- The copy that returns the vector. -/
def earlyReturnCopy : List Text :=
  ["vec3 _dbg_f(float x) \x7b", "  if (x > 0.5) return 0.0;", "  vec3 c = vec3(x);", "  return c;",
    "\x7d"]

/-- The answer for the vector, in which the copy follows the helper. -/
def earlyReturnAnswer : Text :=
  Text.ofLines
    ["float f(float x) \x7b", "  if (x > 0.5) return 0.0;", "  vec3 c = vec3(x);", "  return c.x;",
      "\x7d", "", "vec3 _dbg_f(float x) \x7b", "  if (x > 0.5) return 0.0;", "  vec3 c = vec3(x);",
      "  return c;", "\x7d", "", "void mainImage(out vec4 fragColor, in vec2 fragCoord) \x7b",
      "  vec3 result = _dbg_f(0.5);",
      "  fragColor = vec4(result, 1.0); // Debug: visualize vec3 as RGB", "\x7d"]

/-- The copy returns a number early and a vector at its end. -/
theorem countWord_return_of_copy_early :
    instrument {} {} earlyReturn 2 none = .ok (some earlyReturnAnswer) ∧
      ((Text.lines earlyReturnAnswer).drop 6).take 5 = earlyReturnCopy ∧
      Text.countWord "return" (Text.ofLines (Comment.strip earlyReturnCopy)) = 2 :=
  ⟨eq_ok_of_toOption (by decide +kernel), by decide +kernel, by decide +kernel⟩

end Probe

end ShaderProbe
