import Mathlib
import ShaderProbe.Proofs.LoopsAround
import ShaderProbe.Proofs.OneLine
import ShaderProbe.Proofs.SharedFront

/-!
# Function headers

A line is read as a header exactly if it is made of well-formed parts (`Header.read?_eq_some_iff`),
so a header whose parts are exchanged for other identifiers is read with the new parts.  Where a
comment stands in front of the parenthesis of a line, or an array size, the line is no header
(`Header.read?_eq_none_of_mem`).

The list of parameters is read up to the parenthesis that closes it.  What is read of a function is
the same in all texts that agree up to this parenthesis (`Signature.EndsAt.ofCode?_eq`), and the
function has its loops behind it (`Signature.EndsAt.isBehind_of_mem_find`).
-/

namespace ShaderProbe

namespace Text

/-- What is not blank in a text stands in one of its words. -/
lemma exists_mem_words {t : Text} {c : Char} (hc : c ∈ t) (hblank : isBlank c = false) :
    ∃ w ∈ words t, c ∈ w := by
  fun_induction words t with
  | case1 => exact absurd hc (by simp)
  | case2 d t hd ih =>
    rcases List.mem_cons.mp hc with rfl | hc
    · exact absurd hd (by simp [hblank])
    · exact ih hc
  | case3 d t hd hstart ih =>
    rcases List.mem_cons.mp hc with rfl | hc
    · exact ⟨[c], List.mem_cons_self, List.mem_cons_self⟩
    · obtain ⟨w, hw, hmem⟩ := ih hc
      exact ⟨w, List.mem_cons_of_mem _ hw, hmem⟩
  | case4 d t hd hstart w ws hwords ih =>
    rw [hwords] at ih
    rcases List.mem_cons.mp hc with rfl | hc
    · exact ⟨c :: w, List.mem_cons_self, List.mem_cons_self⟩
    · obtain ⟨w', hw', hmem⟩ := ih hc
      rcases List.mem_cons.mp hw' with rfl | hw'
      · exact ⟨d :: w', List.mem_cons_self, List.mem_cons_of_mem _ hmem⟩
      · exact ⟨w', List.mem_cons_of_mem _ hw', hmem⟩
  | case5 d t hd hstart hwords ih =>
    rw [hwords] at ih
    rcases List.mem_cons.mp hc with rfl | hc
    · exact ⟨[c], List.mem_cons_self, List.mem_cons_self⟩
    · exact absurd (ih hc) (by simp)

/-- The two pieces of a cut: the tail is of the class, and what stands in front of it does not end
in the class. -/
lemma splitTail_eq_iff {p : Char → Bool} {s t u : Text} :
    splitTail p u = (s, t) ↔
      u = s ++ t ∧ (∀ c ∈ t, p c = true) ∧ ∀ c ∈ s.getLast?, p c = false := by
  constructor
  · intro h
    have happend := splitTail_append p u
    rw [h] at happend
    obtain ⟨rfl, rfl⟩ := Prod.mk.inj h
    refine ⟨happend.symm, fun c hc => List.mem_takeWhile_imp (List.mem_reverse.mp hc),
      fun c hc => ?_⟩
    rw [List.getLast?_reverse, Option.mem_def] at hc
    have hnot := List.head?_dropWhile_not p u.reverse
    rwa [hc] at hnot
  · rintro ⟨rfl, ht, hs⟩
    have hall : ∀ c ∈ t.reverse, p c = true := fun c hc => ht c (List.mem_reverse.mp hc)
    have hnone : s.reverse.takeWhile p = [] ∧ s.reverse.dropWhile p = s.reverse := by
      rw [← List.head?_reverse] at hs
      cases hrev : s.reverse with
      | nil => exact ⟨rfl, rfl⟩
      | cons c r =>
        have hc : p c = false := hs c (by rw [hrev]; rfl)
        exact ⟨List.takeWhile_cons_of_neg (by simp [hc]), List.dropWhile_cons_of_neg (by simp [hc])⟩
    rw [splitTail, List.reverse_append, List.takeWhile_append_of_pos hall,
      List.dropWhile_append_of_pos hall, hnone.1, hnone.2, List.append_nil, List.reverse_reverse,
      List.reverse_reverse]

end Text

namespace Header

variable {line : Text} {header : Header}

/-- The line in front of the opening parenthesis. -/
def front (header : Header) : Text :=
  header.lead ++ (header.returnType ++ (header.gap ++ (header.name ++ header.tail)))

/-- The parts make up a line that is read as a header. -/
structure IsWellFormed (header : Header) : Prop where
  lead : ∀ word ∈ Text.words header.lead, word ∈ qualifiers
  leadEnd : ∀ c ∈ header.lead.getLast?, isWordChar c = false
  returnType : Text.isIdent header.returnType = true
  gap : header.gap ≠ [] ∧ ∀ c ∈ header.gap, isBlank c = true
  name : Text.isIdent header.name = true
  tail : ∀ c ∈ header.tail, isBlank c = true
  rest : header.rest.head? = some '('

/-- The line is what stands in front of the parenthesis and the rest. -/
lemma text_eq (header : Header) : header.text = header.front ++ header.rest := by
  simp only [text, front, List.append_assoc]

/-- The column of the parenthesis is the length of the line in front of it. -/
lemma parenColumn_eq (header : Header) : header.parenColumn = header.front.length := by
  simp only [parenColumn, front, List.append_assoc]

/-- In front of the parenthesis there are words and blanks. -/
lemma IsWellFormed.cases_of_mem_front (h : header.IsWellFormed) {c : Char}
    (hc : c ∈ header.front) : isWordChar c = true ∨ isBlank c = true := by
  simp only [front, List.mem_append] at hc
  rcases hc with hc | hc | hc | hc | hc
  · by_cases hblank : isBlank c = true
    · exact .inr hblank
    · obtain ⟨word, hword, hmem⟩ := Text.exists_mem_words hc (by simpa using hblank)
      have hqualifiers : ∀ word ∈ qualifiers, Text.isIdent word = true := by decide
      exact .inl (Text.isWordChar_of_isIdent (hqualifiers word (h.lead word hword)) c hmem)
  · exact .inl (Text.isWordChar_of_isIdent h.returnType c hc)
  · exact .inr (h.gap.2 c hc)
  · exact .inl (Text.isWordChar_of_isIdent h.name c hc)
  · exact .inr (h.tail c hc)

/-- A line is cut at its first parenthesis. -/
lemma takeWhile_front {front : Text} (h : '(' ∉ front) (tail : Text) :
    (front ++ '(' :: tail).takeWhile (· != '(') = front ∧
      (front ++ '(' :: tail).dropWhile (· != '(') = '(' :: tail := by
  have hfront : ∀ c ∈ front, (c != '(') = true := by
    intro c hc
    simpa using ne_of_mem_of_not_mem hc h
  rw [List.takeWhile_append_of_pos hfront, List.dropWhile_append_of_pos hfront]
  exact ⟨by simp, by simp⟩

/-- No parenthesis stands in front of the parenthesis. -/
lemma IsWellFormed.not_mem_front (h : header.IsWellFormed) : '(' ∉ header.front := fun hmem =>
  absurd (h.cases_of_mem_front hmem) (by decide)

/-- The parenthesis is the first one. -/
lemma IsWellFormed.takeWhile_text (h : header.IsWellFormed) :
    header.text.takeWhile (· != '(') = header.front ∧
      header.text.dropWhile (· != '(') = header.rest := by
  cases hrest : header.rest with
  | nil => exact absurd h.rest (by simp [hrest])
  | cons c t =>
    obtain rfl : c = '(' := by simpa [hrest] using h.rest
    rw [text_eq, hrest]
    exact takeWhile_front h.not_mem_front t

/-- The last character of an identifier is a word character, so it is not blank. -/
lemma getLast?_append_ident {s t : Text} (ht : Text.isIdent t = true) :
    ∀ c ∈ (s ++ t).getLast?, isWordChar c = true := by
  have hne : t ≠ [] := by
    rintro rfl
    exact absurd ht (by decide)
  intro c hc
  rw [List.getLast?_append_of_ne_nil _ hne] at hc
  exact Text.isWordChar_of_isIdent ht c (List.mem_of_getLast? hc)

/-- **A line is read as a header exactly if it is made of well-formed parts.** -/
theorem read?_eq_some_iff :
    read? line = some header ↔ header.text = line ∧ header.IsWellFormed := by
  constructor
  · intro h
    refine ⟨text_of_read? h, ?_⟩
    simp only [read?] at h
    split at h
    · rename_i hparts
      simp only [Bool.and_eq_true, Bool.not_eq_true', List.isEmpty_eq_false_iff, List.all_eq_true,
        List.contains_iff_mem] at hparts
      obtain ⟨⟨⟨⟨hrest, hname⟩, hgap⟩, htype⟩, hlead⟩ := hparts
      obtain rfl := Option.some.inj h
      have htail := fun p u => (Text.splitTail_eq_iff.mp (Eq.refl (Text.splitTail p u))).2
      refine ⟨hlead, (htail _ _).2, htype, ⟨hgap, (htail _ _).1⟩, hname, (htail _ _).1, ?_⟩
      dsimp only
      have hnot := List.head?_dropWhile_not (· != '(') line
      cases hhead : (line.dropWhile (· != '(')).head? with
      | none => exact absurd (List.head?_eq_none_iff.mp hhead) hrest
      | some c =>
        rw [hhead] at hnot
        rw [show c = '(' by simpa using hnot]
    · exact absurd h (by simp)
  · rintro ⟨rfl, h⟩
    have hblank : ∀ {s t : Text}, Text.isIdent t = true → ∀ c ∈ (s ++ t).getLast?,
        isBlank c = false := fun ht c hc =>
      isBlank_eq_false_of_isWordChar (getLast?_append_ident ht c hc)
    have htail : Text.splitTail isBlank header.front =
        (header.lead ++ (header.returnType ++ (header.gap ++ header.name)), header.tail) := by
      refine Text.splitTail_eq_iff.mpr ⟨by simp only [front, List.append_assoc], h.tail, ?_⟩
      rw [← List.append_assoc, ← List.append_assoc]
      exact hblank h.name
    have hname : Text.splitTail isWordChar
        (header.lead ++ (header.returnType ++ (header.gap ++ header.name))) =
        (header.lead ++ (header.returnType ++ header.gap), header.name) := by
      refine Text.splitTail_eq_iff.mpr ⟨by simp only [List.append_assoc],
        Text.isWordChar_of_isIdent h.name, fun c hc => ?_⟩
      rw [← List.append_assoc, List.getLast?_append_of_ne_nil _ h.gap.1] at hc
      exact isWordChar_eq_false_of_isBlank (h.gap.2 c (List.mem_of_getLast? hc))
    have hgap : Text.splitTail isBlank (header.lead ++ (header.returnType ++ header.gap)) =
        (header.lead ++ header.returnType, header.gap) :=
      Text.splitTail_eq_iff.mpr ⟨by simp only [List.append_assoc], h.gap.2, hblank h.returnType⟩
    have htype : Text.splitTail isWordChar (header.lead ++ header.returnType) =
        (header.lead, header.returnType) :=
      Text.splitTail_eq_iff.mpr ⟨rfl, Text.isWordChar_of_isIdent h.returnType, h.leadEnd⟩
    have hrest : header.rest ≠ [] := by
      intro hnil
      exact absurd h.rest (by simp [hnil])
    simp only [read?, h.takeWhile_text.1, h.takeWhile_text.2, htail, hname, hgap, htype]
    rw [if_pos]
    simpa [hrest, h.name, h.gap.1, h.returnType] using h.lead

/-- A line is no header if something else than words and blanks stands in front of its first
parenthesis. -/
lemma read?_eq_none_of_mem {c : Char} (hc : c ∈ line.takeWhile (· != '('))
    (hword : isWordChar c = false) (hblank : isBlank c = false) : read? line = none := by
  cases hread : read? line with
  | none => rfl
  | some header =>
    obtain ⟨rfl, h⟩ := read?_eq_some_iff.mp hread
    rw [h.takeWhile_text.1] at hc
    rcases h.cases_of_mem_front hc with hw | hb
    · exact absurd hw (by simp [hword])
    · exact absurd hb (by simp [hblank])

/-- A header names a function if neither its type nor its name is a control keyword. -/
lemma isFunction_iff : header.isFunction = true ↔
    header.returnType ∉ controlKeywords ∧ header.name ∉ controlKeywords := by
  simp [isFunction]

/-- **Exchanging the type and the name of a header.** -/
lemma IsWellFormed.exchange (h : header.IsWellFormed) {type name rest : Text}
    (htype : Text.isIdent type = true) (hname : Text.isIdent name = true)
    (hrest : rest.head? = some '(') :
    ({ header with returnType := type, name, rest } : Header).IsWellFormed :=
  ⟨h.lead, h.leadEnd, htype, h.gap, hname, h.tail, hrest⟩

end Header

namespace Signature

/-! ### The list of parameters -/

/-- The text between the parenthesis at the start of the lines and the one that closes it. -/
def listText? (ls : List Text) : Option Text :=
  (Text.closingParen? (Text.ofLines (ls.take 64))).map fun close =>
    Text.squeeze (((Text.ofLines (ls.take 64)).take close).drop 1)

/-- Joining lines the first of which is cut in two. -/
lemma ofLines_take_front (front rest : Text) (more : List Text) (n : Nat) :
    Text.ofLines (((front ++ rest) :: more).take (n + 1)) =
      front ++ Text.ofLines ((rest :: more).take (n + 1)) := by
  rw [List.take_succ_cons, List.take_succ_cons]
  cases more.take n with
  | nil => rw [Text.ofLines_singleton, Text.ofLines_singleton]
  | cons l ls => rw [Text.ofLines_cons_cons, Text.ofLines_cons_cons, List.append_assoc]

variable {code more : List Text} {line : Nat} {endLine : Option Nat}

/-- The list of parameters is read from the lines of the header on. -/
lemma parameterText?_eq {front rest : Text} (h : code.drop line = (front ++ rest) :: more) :
    parameterText? {} code line front.length = listText? (rest :: more) := by
  have hwindow : window ({} : Config).maxStatementLines line code =
      ((front ++ rest) :: more).take 64 := by
    have hstop : ((line : Int) + ({} : Config).maxStatementLines) = ((line + 64 : Nat) : Int) := rfl
    rw [window, hstop, if_neg (by omega), Int.toNat_natCast, ← h, List.take_drop, Nat.add_comm]
  unfold parameterText? listText?
  rw [hwindow, ofLines_take_front]
  dsimp only
  rw [List.drop_left]

/-- The signature of a header. -/
lemma ofCode?_eq {header : Header} (h : code.drop line = header.text :: more)
    (hheader : header.IsWellFormed) :
    ofCode? {} code line endLine =
      if header.isFunction then (listText? (header.rest :: more)).map fun list =>
        { name := header.name, returnType := header.returnType,
          parameters := parseParameters {} list, startLine := line, endLine }
      else none := by
  have hline : code[line]? = some header.text := by
    rw [← List.head?_drop, h, List.head?_cons]
  have hread := Header.read?_eq_some_iff.mpr ⟨rfl, hheader⟩
  have hlist : parameterText? {} code line header.parenColumn =
      listText? (header.rest :: more) := by
    rw [Header.parenColumn_eq]
    exact parameterText?_eq (by rw [h, Header.text_eq])
  simp only [ofCode?, hline, hread, hlist, Option.bind_eq_bind, Option.bind_some]
  split
  · cases listText? (header.rest :: more) <;> rfl
  · rfl

/-- A line that is no header has no signature. -/
lemma ofCode?_eq_none {l : Text} (h : code.drop line = l :: more) (hread : Header.read? l = none) :
    ofCode? {} code line endLine = none := by
  have hline : code[line]? = some l := by
    rw [← List.head?_drop, h, List.head?_cons]
  simp only [ofCode?, hline, hread, Option.bind_eq_bind, Option.bind_some, Option.bind_none]

/-- The header of a function that is read. -/
lemma exists_of_ofCode? {f : Signature} (h : ofCode? {} code line endLine = some f) :
    ∃ (header : Header) (more : List Text) (list : Text), code.drop line = header.text :: more ∧
      header.IsWellFormed ∧ header.isFunction = true ∧
      listText? (header.rest :: more) = some list ∧
      f = { name := header.name, returnType := header.returnType,
            parameters := parseParameters {} list, startLine := line, endLine } := by
  have hcode := h
  simp only [ofCode?, Option.bind_eq_bind, Option.bind_eq_some_iff] at hcode
  obtain ⟨l, hl, header, hread, -⟩ := hcode
  obtain ⟨rfl, hheader⟩ := Header.read?_eq_some_iff.mp hread
  obtain ⟨hlt, hget⟩ := List.getElem?_eq_some_iff.mp hl
  have hdrop : code.drop line = header.text :: code.drop (line + 1) := by
    rw [List.drop_eq_getElem_cons hlt, hget]
  rw [ofCode?_eq hdrop hheader] at h
  split at h
  · rename_i hfunction
    obtain ⟨list, hlist, rfl⟩ := Option.map_eq_some_iff.mp h
    exact ⟨header, _, list, hdrop, hheader, hfunction, hlist, rfl⟩
  · exact absurd h (by simp)

/-- A list of parameters that is read is what the parentheses enclose. -/
lemma exists_of_listText? {rest list : Text} (h : listText? (('(' :: rest) :: more) = some list) :
    ∃ group tail : Text, Text.ofLines ((('(' :: rest) :: more).take 64) =
        '(' :: (group ++ ')' :: tail) ∧
      Text.closingFrom '(' ')' 1 (group ++ [')']) = some group.length ∧
        list = Text.squeeze group := by
  obtain ⟨close, hclose, rfl⟩ := Option.map_eq_some_iff.mp h
  obtain ⟨u, hu⟩ : ∃ u, Text.ofLines ((('(' :: rest) :: more).take 64) = '(' :: u :=
    ⟨_, ofLines_take_front ['('] rest more 63⟩
  rw [hu] at hclose ⊢
  rw [Text.closingParen?, Text.closingFrom, if_pos rfl, zero_add] at hclose
  obtain ⟨k, hk, rfl⟩ := Option.map_eq_some_iff.mp hclose
  obtain ⟨group, tail, rfl, rfl, hgroup⟩ := Text.exists_of_closingFrom hk
  exact ⟨group, tail, rfl, hgroup, by simp⟩

/-! ### The parenthesis that closes the list -/

/-- The text starts with words and blanks and a group in parentheses, which closes at an offset. -/
def ClosesAt (text : Text) (n : Nat) : Prop :=
  ∃ front group rest : Text, text = front ++ '(' :: (group ++ ')' :: rest) ∧
    (∀ c ∈ front, isWordChar c = true ∨ isBlank c = true) ∧
    Text.closingFrom '(' ')' 1 (group ++ [')']) = some group.length ∧
    n = (front ++ '(' :: group).length

end Signature

namespace LoopScan

/-- A state without loops stays one when a brace is read. -/
lemma spans_eq_nil_of_cores {scan next : LoopScan} (hspans : scan.spans = [])
    (h : next.cores = scan.cores) : next.spans = [] := by
  rw [cores, cores, hspans] at h
  exact List.map_eq_nil_iff.mp h

/-- A character that does not close a group changes the depth at which the rest of it is read. -/
lemma closingFrom_of_cons {c : Char} {group : Text} {depth : Int} (hdepth : 1 ≤ depth)
    (h : Text.closingFrom '(' ')' depth (c :: group ++ [')']) = some (group.length + 1)) :
    1 ≤ depth + Text.parenDelta [c] ∧
      Text.closingFrom '(' ')' (depth + Text.parenDelta [c]) (group ++ [')']) =
        some group.length := by
  rw [List.cons_append, Text.closingFrom] at h
  split at h
  · rename_i hopen
    subst hopen
    exact ⟨by simp [Text.parenDelta]; omega, by simpa [Text.parenDelta] using h⟩
  · split at h
    · rename_i hclose
      subst hclose
      split at h
      · exact absurd h (by simp)
      · rw [show Text.parenDelta [')'] = -1 from rfl, ← sub_eq_add_neg]
        exact ⟨by omega, by simpa using h⟩
    · rename_i hopen hclose
      have hzero : Text.parenDelta [c] = 0 := by
        simp [Text.parenDelta, hopen, hclose]
      rw [hzero, add_zero]
      exact ⟨hdepth, by simpa using h⟩

/-- **Inside parentheses no loop is found**, so what is recorded stands behind the group. -/
theorem lt_of_mem_marks_group (rest group : Text) : ∀ (scan : LoopScan) (before : Text)
    (offset : Nat), 1 ≤ scan.parens → scan.spans = [] →
      Text.closingFrom '(' ')' scan.parens (group ++ [')']) = some group.length →
      ∀ span ∈ (scan.run before offset 0 (group ++ ')' :: rest)).spans, ∀ m ∈ span.marks,
        offset + group.length < m := by
  induction group with
  | nil =>
    intro scan before offset hparens hspans _ span hspan m hm
    rw [List.nil_append, run_cons_quiet scan (by decide) (by decide) (fun h => by omega)
      (fun _ h => by omega)] at hspan
    rcases (runs_run rest _ _ _).mem_marks span hspan m hm with ⟨old, hold, -⟩ | hle
    · exact absurd hold (by simp [hspans])
    · simpa using hle
  | cons c group ih =>
    intro scan before offset hparens hspans hclose span hspan m hm
    obtain ⟨hdepth, hclose⟩ := closingFrom_of_cons hparens hclose
    have hlength : offset + (c :: group).length = offset + 1 + group.length := by
      rw [List.length_cons]
      omega
    rw [hlength]
    rw [List.cons_append] at hspan
    by_cases hopen : c = '{'
    · subst hopen
      have hfield : (scan.openBrace offset).parens = scan.parens + Text.parenDelta ['{'] := by
        rw [show Text.parenDelta ['{'] = 0 from rfl, add_zero, openBrace]
        split <;> rfl
      rw [run_openBrace] at hspan
      refine ih _ _ _ ?_ (spans_eq_nil_of_cores hspans (cores_openBrace _ _)) ?_ span hspan m hm
      · rwa [hfield]
      · rwa [hfield]
    · by_cases hbrace : c = '}'
      · subst hbrace
        have hfield : (scan.closeBrace offset).parens = scan.parens + Text.parenDelta ['}'] :=
          (closeBrace_fields scan offset).2.2.1.trans (add_zero _).symm
        have hnil := spans_eq_nil_of_cores hspans (cores_closeBrace scan offset)
        rw [run_closeBrace] at hspan
        split at hspan
        · exact absurd hspan (by simp [hnil])
        · refine ih _ _ _ ?_ hnil ?_ span hspan m hm
          · rwa [hfield]
          · rwa [hfield]
      · rw [run_cons_quiet scan hopen hbrace (fun h => by omega) (fun _ h => by omega)] at hspan
        exact ih { scan with parens := scan.parens + Text.parenDelta [c] } _ _ hdepth hspans hclose
          span hspan m hm

end LoopScan

namespace Signature

/-- **A function has its loops behind its header.** -/
theorem ClosesAt.lt_of_mem_marks {text : Text} {n : Nat} (h : ClosesAt text n) :
    ∀ span ∈ Loop.spans text, ∀ m ∈ span.marks, n < m := by
  obtain ⟨front, group, rest, rfl, hfront, hgroup, rfl⟩ := h
  have hplain : ∀ c ∈ front, c ∉ ['{', '}', '(', ')', ';'] := by
    intro c hc hmem
    have hdelimiter : c ∈ ['{', '}', '(', ')', ';', '/', '*', '.'] := by
      simp only [List.mem_cons, List.not_mem_nil, or_false] at hmem ⊢
      tauto
    rcases hfront c hc with hword | hblank
    · exact absurd hword (by simp [isWordChar_delimiter hdelimiter])
    · exact absurd hblank (by simp [isBlank_delimiter hdelimiter])
  have hzero : Text.parenDelta front = 0 := by
    rw [Text.parenDelta, List.count_eq_zero_of_not_mem fun hc => hplain _ hc (by decide),
      List.count_eq_zero_of_not_mem fun hc => hplain _ hc (by decide)]
    rfl
  -- nothing is looked for in front of the first brace
  have hrun : ({} : LoopScan).run [] 0 0 (front ++ '(' :: (group ++ ')' :: rest)) =
      ({ parens := 1 } : LoopScan).run ('(' :: (front.reverse ++ [])) (front.length + 1) 0
        (group ++ ')' :: rest) := by
    rw [LoopScan.run_quiet _ front {} [] 0 fun a c b heq => ?_, hzero,
      LoopScan.run_cons_quiet _ (by decide) (by decide) (fun _ => by decide) fun h => by cases h]
    · simp [Text.parenDelta]
    · have hc := hplain c (by simp [heq])
      simp only [List.mem_cons, not_or] at hc
      exact ⟨hc.1, hc.2.1, fun _ => ⟨hc.2.2.2.2.1, fun h => by cases h⟩⟩
  intro span hspan m hm
  rw [Loop.spans, hrun] at hspan
  have hlt := LoopScan.lt_of_mem_marks_group rest group { parens := 1 } _ _ le_rfl rfl hgroup span
    hspan m hm
  simpa [Nat.add_assoc, Nat.add_comm 1] using hlt

end Signature

/-! ### Texts that agree up to the closing parenthesis -/

/-- The marks of the loop stand behind a place. -/
structure Loop.IsBehind (place : Position) (loop : Loop) : Prop where
  keyword : ∃ column : Nat, loop.keyword = some ⟨loop.headerLine, column⟩ ∧
    place.isBefore loop.headerLine column = true
  parenClose : ∀ p ∈ loop.parenClose, place.isBefore p.line p.column = true
  brace : ∀ p ∈ loop.brace, place.isBefore p.line p.column = true
  bodyEnd : ∀ p ∈ loop.bodyEnd, place.isBefore p.line p.column = true

namespace Signature

/-- The header of the function at a line starts with the words `front`, and its list of parameters
`group` is closed by the parenthesis at a place. -/
structure EndsAt (lines : List Text) (start : Nat) (front group : Text) (place : Position) :
    Prop where
  start_le : start ≤ place.line
  near : place.line < start + 64
  isWords : ∀ c ∈ front, isWordChar c = true ∨ isBlank c = true
  isGroup : Text.closingFrom '(' ')' 1 (group ++ [')']) = some group.length
  char : ∃ l, (Loop.codeFrom lines start)[place.line - start]? = some l ∧
    l[place.column]? = some ')'
  code : ∃ rest more, Loop.codeFrom lines start = (front ++ '(' :: rest) :: more
  flat : ∃ tail, Loop.flatCode lines start = front ++ '(' :: (group ++ ')' :: tail)
  offset : FlatText.lineStart (Loop.codeFrom lines start) (place.line - start) + place.column =
    (front ++ '(' :: group).length

variable {lines lines' : List Text} {start : Nat} {front group : Text} {place : Position}

/-- The code of texts that agree up to the closing parenthesis agrees up to it. -/
lemma EndsAt.agrees (h : EndsAt lines start front group place)
    (hagree : place.Agrees lines lines') :
    Position.Agrees ⟨place.line - start, place.column⟩ (Loop.codeFrom lines start)
      (Loop.codeFrom lines' start) := by
  obtain ⟨l, hl, hchar⟩ := h.char
  rw [Loop.codeFrom, List.getElem?_drop, Nat.add_sub_cancel' h.start_le] at hl
  exact (hagree.strip hl hchar (by decide) (by decide)).drop h.start_le

/-- What starts as the flat code does, up to the closing parenthesis. -/
lemma EndsAt.eq_of_length (h : EndsAt lines start front group place) {shared rest : Text}
    (hflat : Loop.flatCode lines start = shared ++ rest)
    (hlength : shared.length = FlatText.lineStart (Loop.codeFrom lines start)
      (place.line - start) + place.column + 1) : shared = front ++ '(' :: (group ++ [')']) := by
  obtain ⟨tail, htail⟩ := h.flat
  have hsplit : shared ++ rest = (front ++ '(' :: (group ++ [')'])) ++ tail := by
    rw [← hflat, htail]
    simp
  refine (List.append_inj hsplit ?_).1
  rw [hlength, h.offset]
  simp only [List.length_append, List.length_cons, List.length_nil]
  omega

/-- **The header is the same in every text that agrees up to its closing parenthesis.** -/
theorem EndsAt.of_agrees (h : EndsAt lines start front group place)
    (hagree : place.Agrees lines lines') : EndsAt lines' start front group place := by
  have hcode := h.agrees hagree
  obtain ⟨l, hl, hchar⟩ := h.char
  obtain ⟨rest, more, hfirst⟩ := h.code
  obtain ⟨l', hl', hsame, hstart⟩ :=
    hcode.exists_line hl (List.getElem?_eq_some_iff.mp hchar).1 le_rfl
  obtain ⟨shared, x, x', hflat, hflat', hlength⟩ := hcode.exists_ofLines
  refine ⟨h.start_le, h.near, h.isWords, h.isGroup, ⟨l', hl', hsame.trans hchar⟩, ?_, ?_, ?_⟩
  · have hsplit : Loop.codeFrom lines start = (front ++ ['('] ++ rest) :: more := by
      rw [hfirst, List.append_assoc]
      rfl
    rw [hsplit] at hcode
    obtain ⟨rest', more', heq⟩ := hcode.exists_front fun hzero => by
      have hoffset := h.offset
      dsimp only at hzero ⊢
      rw [hzero, FlatText.lineStart, List.take_zero] at hoffset
      simp only [List.map_nil, List.sum_nil, List.length_append, List.length_cons,
        List.length_nil] at hoffset ⊢
      omega
    exact ⟨rest', more', by rw [heq, List.append_assoc]; rfl⟩
  · obtain rfl := h.eq_of_length hflat hlength
    exact ⟨x', by rw [Loop.flatCode, hflat']; simp⟩
  · rw [hstart, h.offset]

/-- The list of parameters is what the parentheses enclose, whatever follows the header. -/
lemma EndsAt.listText? (h : EndsAt lines start front group place) {rest : Text} {more : List Text}
    (hcode : Loop.codeFrom lines start = (front ++ '(' :: rest) :: more) (ext : List Text) :
    listText? (('(' :: rest) :: (more ++ ext)) = some (Text.squeeze group) := by
  obtain ⟨l, hl, hchar⟩ := h.char
  have hcolumn := (List.getElem?_eq_some_iff.mp hchar).1
  have hself : Position.Agrees ⟨place.line - start, place.column⟩ (Loop.codeFrom lines start)
      (Loop.codeFrom lines start) := by
    simpa using @Position.agrees_take ⟨place.line - start, place.column⟩ _ _ _ hl hcolumn
      (List.getElem?_eq_some_iff.mp hl).1
  have hlong : (Loop.codeFrom lines start ++ ext)[place.line - start]? = some l := by
    rw [List.getElem?_append_left (List.getElem?_eq_some_iff.mp hl).1, hl]
  have htake := (hself.append_right ext).trans (@Position.agrees_take
    ⟨place.line - start, place.column⟩ _ _ 64 hlong hcolumn (by have := h.near; dsimp only; omega))
  obtain ⟨shared, x, x', hflat, hflat', hlength⟩ := htake.exists_ofLines
  obtain rfl := h.eq_of_length hflat hlength
  rw [hcode, List.cons_append, ofLines_take_front, List.append_assoc, List.append_cancel_left_eq,
    List.cons_append, List.append_assoc, List.singleton_append] at hflat'
  have hclose : Text.closingParen? ('(' :: (group ++ ')' :: x')) = some (group.length + 1) := by
    have hgroup := Text.closingFrom_append_of_some h.isGroup x'
    rw [List.append_assoc, List.singleton_append] at hgroup
    rw [Text.closingParen?, Text.closingFrom, if_pos rfl, zero_add, hgroup]
    rfl
  rw [Signature.listText?, hflat', hclose]
  simp

/-- **The loops of a function stand behind its header.** -/
theorem EndsAt.isBehind_of_mem_find (h : EndsAt lines start front group place) {loop : Loop}
    (hloop : loop ∈ Loop.find lines start) : loop.IsBehind place := by
  obtain ⟨index, span, hspan, rfl⟩ := Loop.exists_of_mem_find hloop
  obtain ⟨l, hl, hchar⟩ := h.char
  obtain ⟨tail, htail⟩ := h.flat
  have hplace : FlatText.locate ⟨Loop.codeFrom lines start, start⟩
      (front ++ '(' :: group).length = place := by
    rw [← h.offset]
    have hlocate := FlatText.locate_lineStart hl (List.getElem?_eq_some_iff.mp hchar).1.le start
    rw [Nat.add_sub_cancel' h.start_le] at hlocate
    exact hlocate
  have hcloses : ClosesAt (Loop.flatCode lines start) (front ++ '(' :: group).length :=
    ⟨front, group, tail, htail, h.isWords, h.isGroup, rfl⟩
  have hbehind : ∀ m ∈ span.marks, place.isBefore
      (FlatText.locate ⟨Loop.codeFrom lines start, start⟩ m).line
      (FlatText.locate ⟨Loop.codeFrom lines start, start⟩ m).column = true := by
    intro m hm
    rw [← hplace, FlatText.isBefore_locate, decide_eq_true_eq]
    exact hcloses.lt_of_mem_marks span (List.mem_of_getElem? hspan) m hm
  refine ⟨⟨_, rfl, hbehind _ ?_⟩, ?_, ?_, ?_⟩
  · exact LoopSpan.mem_marks_iff.mpr (.inl rfl)
  · intro p hp
    obtain rfl := Option.some.inj hp
    exact hbehind _ (LoopSpan.mem_marks_iff.mpr (.inr (.inl rfl)))
  · intro p hp
    obtain ⟨m, hm, rfl⟩ := Option.map_eq_some_iff.mp hp
    exact hbehind _ (LoopSpan.mem_marks_iff.mpr (.inr (.inr (.inl hm))))
  · intro p hp
    obtain ⟨m, hm, rfl⟩ := Option.map_eq_some_iff.mp hp
    exact hbehind _ (LoopSpan.mem_marks_iff.mpr (.inr (.inr (.inr hm))))

/-- **The header of a function that is read**, and where it ends. -/
theorem exists_endsAt {endLine : Option Nat} {f : Signature}
    (h : ofCode? {} (Comment.strip lines) start endLine = some f) :
    ∃ (header : Header) (group : Text) (place : Position), header.IsWellFormed ∧
      header.isFunction = true ∧ EndsAt lines start header.front group place ∧
      place.line < lines.length ∧
      f = { name := header.name, returnType := header.returnType,
            parameters := parseParameters {} (Text.squeeze group),
            startLine := start, endLine } := by
  obtain ⟨header, more, list, hdrop, hheader, hfunction, hlist, rfl⟩ := exists_of_ofCode? h
  have hcode : Loop.codeFrom lines start = header.text :: more := hdrop
  cases hrest : header.rest with
  | nil => exact absurd hheader.rest (by simp [hrest])
  | cons c rest =>
    obtain rfl : c = '(' := by simpa [hrest] using hheader.rest
    rw [Header.text_eq, hrest] at hcode
    rw [hrest] at hlist
    -- the list is closed on one of the first lines
    obtain ⟨group, tail, hu, hgroup, rfl⟩ := exists_of_listText? hlist
    have htake : Text.ofLines ((Loop.codeFrom lines start).take 64) =
        header.front ++ '(' :: (group ++ ')' :: tail) := by
      rw [hcode, ofLines_take_front, hu]
    have hchar : (Text.ofLines ((Loop.codeFrom lines start).take 64))[
        (header.front ++ '(' :: group).length]? = some ')' := by
      rw [htake, ← List.cons_append, ← List.append_assoc, List.getElem?_append_right le_rfl,
        Nat.sub_self]
      rfl
    obtain ⟨n, l, column, hl, hcolumn, hoffset, -⟩ :=
      FlatText.exists_locate_of_ink hchar (by decide) 0
    have hnear : n < 64 := (List.getElem?_eq_some_iff.mp hl).1.trans_le (List.length_take_le _ _)
    rw [List.getElem?_take_of_lt hnear] at hl
    have hlt := (List.getElem?_eq_some_iff.mp hcolumn).1
    have hagree : Position.Agrees ⟨n, column⟩ ((Loop.codeFrom lines start).take 64)
        (Loop.codeFrom lines start) := (Position.agrees_take hl hlt hnear).symm
    have hstart : FlatText.lineStart ((Loop.codeFrom lines start).take 64) n =
        FlatText.lineStart (Loop.codeFrom lines start) n := by
      rw [FlatText.lineStart, List.take_take, Nat.min_eq_left hnear.le, FlatText.lineStart]
    obtain ⟨shared, x, x', hflat, hflat', hlength⟩ := hagree.exists_ofLines
    have hshared : shared = header.front ++ '(' :: (group ++ [')']) := by
      have hsplit : shared ++ x = (header.front ++ '(' :: (group ++ [')'])) ++ tail := by
        rw [← hflat, htake]
        simp
      refine (List.append_inj hsplit ?_).1
      rw [hlength, ← hoffset]
      simp only [List.length_append, List.length_cons, List.length_nil]
      omega
    have hline : start + n < lines.length := by
      have hbound := (List.getElem?_eq_some_iff.mp hl).1
      rw [Loop.codeFrom, List.length_drop, Comment.length_strip] at hbound
      omega
    refine ⟨header, group, ⟨start + n, column⟩, hheader, hfunction, ?_, hline, rfl⟩
    refine ⟨Nat.le_add_right _ _, Nat.add_lt_add_left hnear _, fun c hc =>
      hheader.cases_of_mem_front hc, hgroup, ⟨l, by simpa using hl, hcolumn⟩, ⟨rest, more, hcode⟩,
      ⟨x', ?_⟩, ?_⟩
    · rw [Loop.flatCode, hflat', hshared]
      simp
    · rw [hoffset, hstart]
      simp

end Signature

end ShaderProbe
