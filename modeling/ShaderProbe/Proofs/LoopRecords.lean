import Mathlib
import ShaderProbe.Proofs.LoopBlocks

/-!
# The records of loops

Whatever the text is, the loops that are found in it are described as the text has them: the keyword
at the start of a word, the parenthesis that closes the header, the brace right behind it, and the
end of the body.  The text is cut at the header (`HeaderCut`), and the places of the loop are the
places of the cuts in the code (`Loop.IsLaidOut`).
-/

namespace ShaderProbe

/-- A place lies in front of another one, on an earlier line or further left on the same line. -/
def Position.Precedes (p q : Position) : Prop :=
  p.line < q.line ∨ p.line = q.line ∧ p.column < q.column

/-- Places of a flat text are ordered as offsets are. -/
lemma FlatText.precedes_locate (flat : FlatText) {o o' : Nat} (h : o < o') :
    (flat.locate o).Precedes (flat.locate o') := by
  refine Position.isBefore_iff.mp ?_
  rw [flat.isBefore_locate, decide_eq_true h]

/-- A text that is cut at a loop header: what stands in front of it, its keyword, blanks, what
stands in its parentheses, and what stands behind it. -/
structure HeaderCut where
  front : Text
  word : Text
  gap : Text
  group : Text
  back : Text
  isWordStart : Text.startsWord front.reverse = false
  isKeyword : word ∈ LoopSpan.keywords
  isBlankOnly : Text.isBlankOnly gap = true
  isBalanced : Text.isBalanced group = true

namespace HeaderCut

/-- The header up to the parenthesis that closes it. -/
def header (cut : HeaderCut) : Text := cut.word ++ (cut.gap ++ '(' :: cut.group)

/-- The text that is cut. -/
def text (cut : HeaderCut) : Text := cut.front ++ (cut.header ++ ')' :: cut.back)

/-- The offset of the parenthesis that closes the header. -/
def close (cut : HeaderCut) : Nat := (cut.front ++ cut.header).length

/-- The offset of the first character behind the header that is not blank. -/
def next (cut : HeaderCut) : Nat := cut.close + 1 + (Text.indent cut.back).length

/-- The text is cut at its parenthesis. -/
lemma take_drop_close (cut : HeaderCut) :
    cut.text.take cut.close = cut.front ++ cut.header ∧
      cut.text.drop cut.close = ')' :: cut.back := by
  have hsplit : cut.text = (cut.front ++ cut.header) ++ ')' :: cut.back := by
    rw [text, List.append_assoc]
  rw [hsplit]
  exact ⟨List.take_left' rfl, List.drop_left' rfl⟩

/-- The text behind the header. -/
lemma drop_close_succ (cut : HeaderCut) : cut.text.drop (cut.close + 1) = cut.back := by
  rw [← List.drop_drop, cut.take_drop_close.2]
  rfl

/-- The text behind the blanks that follow the header. -/
lemma drop_next (cut : HeaderCut) : cut.text.drop cut.next = Text.trimLeft cut.back := by
  have hdrop : (Text.indent cut.back ++ Text.trimLeft cut.back).drop (Text.indent cut.back).length =
      Text.trimLeft cut.back := List.drop_left
  rw [Text.indent_append_trimLeft] at hdrop
  unfold next
  rw [← List.drop_drop, cut.drop_close_succ, hdrop]

/-- The text of a loop is cut at its header. -/
lemma exists_of_isTrue {text : Text} {span : LoopSpan} (h : span.IsTrue text) :
    ∃ cut : HeaderCut, text = cut.text ∧ span.keyword = cut.front.length ∧
      span.parenClose = cut.close := by
  obtain ⟨a, back, hdrop, ⟨word, hword, gap, group, hgap, rfl, hclose⟩, hparen, -⟩ := h.header
  have hbalanced : Text.isBalanced group = true := by
    have hfound : Text.closingParen? ('(' :: (group ++ [')'])) = some (group.length + 1) := by
      rw [Text.closingParen?, Text.closingFrom, if_pos rfl, Int.zero_add, hclose]
      rfl
    obtain ⟨inner, rest, heq, hlength, hbalanced⟩ := Text.closingParen?_eq_some_iff.mp hfound
    rwa [(List.append_inj heq (by omega)).1]
  have hlt : span.keyword < text.length := by
    rcases h.keyword with hc | hc <;> exact (List.getElem?_eq_some_iff.mp hc).1
  have hfront : (text.take span.keyword).length = span.keyword := List.length_take_of_le hlt.le
  refine ⟨⟨text.take span.keyword, word, gap, group, back, h.isWordStart, hword, hgap, hbalanced⟩,
    ?_, hfront.symm, ?_⟩
  · conv_lhs => rw [← List.take_append_drop span.keyword text, hdrop]
    rfl
  · have hlength : close ⟨text.take span.keyword, word, gap, group, back, h.isWordStart, hword,
        hgap, hbalanced⟩ = (text.take span.keyword ++ (word ++ (gap ++ '(' :: group))).length := rfl
    rw [hlength, List.length_append, hfront, hparen]

/-- A brace follows a header if it is the first character behind it that is not blank. -/
lemma opensAt_iff (cut : HeaderCut) {span : LoopSpan} (hclose : span.parenClose = cut.close) {b : Nat} :
    span.OpensAt cut.text b ↔ (Text.trimLeft cut.back).head? = some '{' ∧ b = cut.next := by
  have hdrop : cut.text.drop (span.parenClose + 1) = cut.back := by rw [hclose, cut.drop_close_succ]
  rw [LoopSpan.opensAt_iff hdrop, hclose]
  rfl

/-- A loop has a brace exactly if one follows its header, and it is that one. -/
lemma brace_of_isTrue (cut : HeaderCut) {span : LoopSpan} (hclose : span.parenClose = cut.close)
    (htrue : span.IsTrue cut.text) (hcomplete : span.IsComplete cut.text) :
    (span.brace.isSome = true ↔ (Text.trimLeft cut.back).head? = some '{') ∧
      ∀ b ∈ span.brace, b = cut.next := by
  refine ⟨⟨fun hsome => ?_, fun hhead => ?_⟩, fun b hb => ?_⟩
  · obtain ⟨b, hb⟩ := Option.isSome_iff_exists.mp hsome
    exact ((cut.opensAt_iff hclose).mp (htrue.brace b hb)).1
  · rw [Option.isSome_iff_ne_none]
    exact fun hnone => hcomplete hnone cut.next ((cut.opensAt_iff hclose).mpr ⟨hhead, rfl⟩)
  · exact ((cut.opensAt_iff hclose).mp (htrue.brace b hb)).2

end HeaderCut

namespace Loop

/-- A loop is described as the code has it, in the text from a line on that is cut at its header. -/
structure IsLaidOut (code : List Text) (start : Nat) (loop : Loop) (cut : HeaderCut) : Prop where
  text : Text.ofLines (code.drop start) = cut.text
  keyword : ∃ place ∈ loop.keyword, loop.headerLine = place.line ∧
    place.Cuts code start cut.front (cut.header ++ ')' :: cut.back)
  parenClose : ∃ place ∈ loop.parenClose,
    place.Cuts code start (cut.front ++ cut.header) (')' :: cut.back)
  header : ∀ first ∈ loop.keyword, ∀ close ∈ loop.parenClose, first.Precedes close
  brace : loop.brace.isSome = true ↔ (Text.trimLeft cut.back).head? = some '{'
  bracePlace : ∀ place ∈ loop.brace,
    place.Cuts code start (cut.text.take cut.next) (Text.trimLeft cut.back)
  endLine : loop.endLine = loop.bodyEnd.map Position.line
  body : ∀ last ∈ loop.bodyEnd, (∀ close ∈ loop.parenClose, close.Precedes last) ∧
    ∀ brace ∈ loop.brace, brace.Precedes last
  block : loop.brace.isSome = true → ∀ last ∈ loop.bodyEnd, ∃ e tail,
    last.Cuts code start (cut.text.take e) ('}' :: tail) ∧
    (LoopSpan.blankHeaders cut.text).Matches cut.next e ∧
    ((∀ q, LoopSpan.inHeader cut.text q = true →
      cut.text[q]? ≠ some '{' ∧ cut.text[q]? ≠ some '}') → cut.text.Matches cut.next e)
  statement : loop.brace = none → ∀ last ∈ loop.bodyEnd, ∃ c front tail, (c = ';' ∨ c = '}') ∧
    last.Cuts code start front (c :: tail)

/-- **The loops of the text from a line on are laid out in the code.** -/
theorem exists_isLaidOut_ofSpan {code : List Text} {start : Nat} {span : LoopSpan}
    (h : span ∈ spans (Text.ofLines (code.drop start))) (index : Nat) :
    ∃ cut, IsLaidOut code start (ofSpan ⟨code.drop start, start⟩ span index) cut := by
  obtain ⟨htrue, hcomplete⟩ := isTrue_of_mem_spans h
  have hmatches := matches_of_mem_spans h
  obtain ⟨cut, htext, hkeyword, hclose⟩ := HeaderCut.exists_of_isTrue htrue
  set flat : FlatText := ⟨code.drop start, start⟩
  have hcuts : ∀ {o : Nat} {c : Char}, cut.text[o]? = some c → isBlank c = false →
      (flat.locate o).Cuts code start (cut.text.take o) (cut.text.drop o) := by
    intro o c hc hink
    rw [← htext] at hc ⊢
    exact FlatText.cuts_locate hc hink
  rw [htext] at htrue hcomplete hmatches
  obtain ⟨hsome, hnext⟩ := cut.brace_of_isTrue hclose htrue hcomplete
  refine ⟨cut, htext, ⟨_, rfl, rfl, ?_⟩, ⟨_, rfl, ?_⟩, ?_, ?_, ?_, (Option.map_map _ _ _).symm, ?_,
    ?_, ?_⟩
  · -- the keyword
    have hplace : (flat.locate span.keyword).Cuts code start (cut.text.take span.keyword)
        (cut.text.drop span.keyword) := by
      rcases htrue.keyword with hc | hc
      · exact hcuts hc (by decide)
      · exact hcuts hc (by decide)
    unfold HeaderCut.text at hplace
    rw [hkeyword, List.take_left, List.drop_left] at hplace
    rwa [hkeyword]
  · -- the parenthesis that closes the header
    obtain ⟨htake, hdrop⟩ := cut.take_drop_close
    have hplace := hcuts htrue.parenClose (by decide)
    rw [hclose, htake, hdrop] at hplace
    rwa [hclose]
  · intro first hfirst close hclosing
    obtain rfl := Option.some.inj hfirst
    obtain rfl := Option.some.inj hclosing
    exact flat.precedes_locate htrue.keyword_lt
  · rw [ofSpan, Option.isSome_map, hsome]
  · -- the brace
    rintro place hplace
    obtain ⟨b, hb, rfl⟩ := Option.map_eq_some_iff.mp hplace
    have hcut := hcuts (htrue.brace b hb).getElem? (by decide)
    rw [hnext b hb, cut.drop_next] at hcut
    rwa [hnext b hb]
  · intro last hlast
    obtain ⟨e, he, rfl⟩ := Option.map_eq_some_iff.mp hlast
    obtain ⟨hafter, hbehind, -⟩ := htrue.bodyEnd e he
    refine ⟨fun close hclosing => ?_, fun place hplace => ?_⟩
    · obtain rfl := Option.some.inj hclosing
      exact flat.precedes_locate hafter
    · obtain ⟨b, hb, rfl⟩ := Option.map_eq_some_iff.mp hplace
      exact flat.precedes_locate (hbehind b hb)
  · -- the end of a block
    intro hisSome last hlast
    obtain ⟨e, he, rfl⟩ := Option.map_eq_some_iff.mp hlast
    rw [ofSpan, Option.isSome_map] at hisSome
    obtain ⟨b, hb⟩ := Option.isSome_iff_exists.mp hisSome
    have hmatch := hmatches b hb e he
    rw [hnext b hb] at hmatch
    have hc := LoopSpan.getElem?_of_blankHeaders (by decide) hmatch.closing
    have hcut := hcuts hc (by decide)
    rw [List.drop_eq_getElem?_toList_append, hc] at hcut
    exact ⟨e, _, hcut, hmatch, LoopSpan.matches_of_blankHeaders hmatch⟩
  · -- the end of a statement
    intro _ last hlast
    obtain ⟨e, he, rfl⟩ := Option.map_eq_some_iff.mp hlast
    rcases (htrue.bodyEnd e he).2.2 with hc | hc
    · have hcut := hcuts hc (by decide)
      rw [List.drop_eq_getElem?_toList_append, hc] at hcut
      exact ⟨_, _, _, .inl rfl, hcut⟩
    · have hcut := hcuts hc (by decide)
      rw [List.drop_eq_getElem?_toList_append, hc] at hcut
      exact ⟨_, _, _, .inr rfl, hcut⟩

/-- **The records of loops are true of any text.**  The loop at position `i` of the loops from a
line on has the number `i`, its places are those of a header in the code with the body behind it,
and the next loop starts behind its header. -/
theorem isLaidOut_of_find {lines : List Text} {start i : Nat} {loop : Loop}
    (h : (find lines start)[i]? = some loop) :
    loop.index = i ∧ (∃ cut, IsLaidOut (Comment.strip lines) start loop cut) ∧
      ∀ next, (find lines start)[i + 1]? = some next →
        ∃ close ∈ loop.parenClose, ∃ first ∈ next.keyword, close.Precedes first := by
  unfold find findInCode at h ⊢
  dsimp only at h ⊢
  rw [List.getElem?_mapIdx] at h ⊢
  obtain ⟨span, hspan, rfl⟩ := Option.map_eq_some_iff.mp h
  refine ⟨rfl, exists_isLaidOut_ofSpan (List.mem_of_getElem? hspan) i, fun next hnext => ?_⟩
  obtain ⟨span', hspan', rfl⟩ := Option.map_eq_some_iff.mp hnext
  have hlt := parenClose_lt_of_lt (Nat.lt_succ_self i) hspan hspan'
  exact ⟨_, rfl, _, rfl, FlatText.precedes_locate _ hlt⟩

/-- A loop in a loop, the inner one without braces, in a block that nothing closes. -/
def nestedLines : List Text :=
  ["void f(float a) \x7b", "  for (int i = 0; i < 3; i++) // three times", "  \x7b",
    "    while (a > 0.0) a -= 1.0;", "    if (a < 0.0) \x7b a = 0.0; \x7d", "  \x7d"]

/-- The outer loop of the nested lines. -/
def nestedOuter : Loop :=
  { headerLine := 1, headerText := "for (int i = 0; i < 3; i++)", endLine := some 5,
    parenClose := some ⟨1, 28⟩, brace := some ⟨2, 2⟩, bodyEnd := some ⟨5, 2⟩, keyword := some ⟨1, 2⟩ }

/-- The inner loop of the nested lines. -/
def nestedInner : Loop :=
  { headerLine := 3, headerText := "while (a > 0.0)", index := 1, endLine := some 3,
    parenClose := some ⟨3, 18⟩, bodyEnd := some ⟨3, 28⟩, keyword := some ⟨3, 4⟩ }

theorem isLaidOut_of_find_nested :
    find nestedLines 0 = [nestedOuter, nestedInner] ∧
      (∃ cut, IsLaidOut (Comment.strip nestedLines) 0 nestedOuter cut) ∧
      (∃ cut, IsLaidOut (Comment.strip nestedLines) 0 nestedInner cut) ∧
      ∃ close ∈ nestedOuter.parenClose, ∃ first ∈ nestedInner.keyword, close.Precedes first := by
  have hfind : find nestedLines 0 = [nestedOuter, nestedInner] := by decide +kernel
  have houter : (find nestedLines 0)[0]? = some nestedOuter := by rw [hfind]; rfl
  have hinner : (find nestedLines 0)[1]? = some nestedInner := by rw [hfind]; rfl
  obtain ⟨-, hcut, hnext⟩ := isLaidOut_of_find houter
  exact ⟨hfind, hcut, (isLaidOut_of_find hinner).2.1, hnext nestedInner hinner⟩

/-- A loop in a loop, with a brace in the header of the inner one. -/
def braceInHeader : List Text :=
  ["void f(float a) \x7b", "  for (;;) \x7b", "    for (int i = 0; i < 3 \x7b; i++) a = 1.0;",
    "  \x7d", "\x7d"]

/-- The outer loop ends at the first brace that closes, which does not match if the brace in the
header is counted.  The one that matches then is the next one. -/
theorem find_braceInHeader :
    (find braceInHeader 0).map (fun loop => (loop.brace, loop.bodyEnd)) =
        [(some ⟨1, 11⟩, some ⟨3, 2⟩), (none, some ⟨2, 41⟩)] ∧
      FlatText.locate ⟨Comment.strip braceInHeader, 0⟩ 29 = ⟨1, 11⟩ ∧
      FlatText.locate ⟨Comment.strip braceInHeader, 0⟩ 76 = ⟨3, 2⟩ ∧
      ¬(Text.ofLines (Comment.strip braceInHeader)).Matches 29 76 ∧
      Text.closingBrace? ((Text.ofLines (Comment.strip braceInHeader)).drop 29) = some 49 ∧
      FlatText.locate ⟨Comment.strip braceInHeader, 0⟩ (29 + 49) = ⟨4, 0⟩ := by
  refine ⟨by decide +kernel, by decide +kernel, by decide +kernel, fun h => ?_, by decide +kernel,
    by decide +kernel⟩
  exact absurd h.isLevel (by decide +kernel)

end Loop

end ShaderProbe
