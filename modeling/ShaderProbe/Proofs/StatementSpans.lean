import Mathlib
import ShaderProbe.Proofs.CopyReturns
import ShaderProbe.Proofs.Stretch

/-!
# Statements over several lines

The way back from a line and the way forward to the `;` are cut off by the same number of lines, and
the two limits fit together: a way back that is cut off leaves too few lines to come forward to the
line again.  So a window that is too small loses a statement and never changes it
(`Statement.find_window`).

A statement is the text of its trimmed lines, joined by spaces.  Where the text of some lines reads
as a declaration up to its first `;` outside brackets, every one of the lines leads to the
declaration (`Target.classify_of_declarationText`), wherever the line breaks stand.
-/

namespace ShaderProbe

namespace Statement

variable {n m : Int} {code : List Text} {line : Nat} {s : Statement}

/-! ### The window -/

/-- Lines behind those that are looked at do not matter once the end is found. -/
lemma endFrom_append {depth : Int} {ls : List Text} {last : Position}
    (h : endFrom depth line ls = some last) (more : List Text) :
    endFrom depth line (ls ++ more) = some last := by
  induction ls generalizing depth line with
  | nil => exact absurd h (by simp [endFrom])
  | cons l ls ih =>
    rw [endFrom] at h
    rw [List.cons_append, endFrom]
    split at h
    · exact h
    · exact absurd h (by simp)
    · exact ih h

/-- The end of a statement is found in every window that reaches to it. -/
lemma from?_eq_some_iff {first : Nat} :
    from? n code first = some s ↔
      from? code.length code first = some s ∧ s.endLine < first + n.toNat := by
  constructor
  · intro h
    obtain ⟨-, -, hfits, -⟩ := bounds_of_from? h
    refine ⟨?_, hfits⟩
    obtain ⟨last, hlast, rfl⟩ := Option.map_eq_some_iff.mp h
    have hwhole := endFrom_append hlast ((code.drop first).drop n.toNat)
    rw [List.take_append_drop] at hwhole
    rw [from?, Int.toNat_natCast, List.take_of_length_le (by simp), hwhole]
    rfl
  · rintro ⟨h, hfits⟩
    obtain ⟨last, hlast, rfl⟩ := Option.map_eq_some_iff.mp h
    rw [Int.toNat_natCast, List.take_of_length_le (by simp)] at hlast
    rw [from?, endFrom_take hlast hfits]
    rfl

/-- A statement is found in every window in which it fits. -/
lemma find_of_find (h : find n code line = .ok (some s))
    (hfits : s.endLine < s.startLine + m.toNat) :
    find m code line = .ok (some s) := by
  obtain ⟨hfrom, hconnected, hstart, hlow, hhigh, -, hlength⟩ := bounds_of_find h
  obtain ⟨hcode, -⟩ := find_eq_some_iff.mp h
  have hfirst : firstLine m code line = s.startLine :=
    (firstLine_eq_iff (by omega) hlow (by omega)).mpr ⟨hconnected, hstart⟩
  refine find_eq_some_iff.mpr ⟨hcode, spanning?_eq_some_iff.mpr ⟨?_, hhigh⟩⟩
  rw [hfirst]
  exact from?_eq_some_iff.mpr ⟨(from?_eq_some_iff.mp hfrom).1, hfits⟩

/-- **A window loses statements and changes none.**  What is found in a window is found in every
larger one, and the smaller window loses exactly the statements that are too long for it. -/
theorem find_window (code : List Text) (line : Nat) (n m : Int) (h : n ≤ m) :
    (∀ s, find n code line = .ok (some s) → find m code line = .ok (some s)) ∧
      find n code line =
        (Option.filter fun s => (s.endLine : Int) < s.startLine + n) <$> find m code line := by
  have hgrow : ∀ s, find n code line = .ok (some s) → find m code line = .ok (some s) := by
    intro s hs
    have hfits := (bounds_of_find hs).2.2.2.2.2.1
    exact find_of_find hs (by omega)
  refine ⟨hgrow, ?_⟩
  -- an answer that is lost is one that does not fit
  cases hm : find m code line with
  | error e =>
    unfold find at hm ⊢
    cases hl : lineAt code line with
    | error e' =>
      rw [hl] at hm
      obtain rfl := Except.error.inj hm
      rfl
    | ok text =>
      rw [hl] at hm
      exact absurd hm (by simp [bind, Except.bind, pure, Except.pure])
  | ok found =>
    obtain ⟨answer, hn⟩ : ∃ answer, find n code line = .ok answer := by
      unfold find at hm ⊢
      obtain ⟨text, htext, -⟩ := bind_eq_ok_iff.mp hm
      exact ⟨_, by rw [htext]; rfl⟩
    rw [hn]
    refine congrArg Except.ok (Option.ext fun s => ?_)
    rw [Option.filter_eq_some_iff, decide_eq_true_eq]
    constructor
    · rintro rfl
      obtain ⟨-, -, -, hlow, hhigh, hfits, -⟩ := bounds_of_find hn
      rw [hgrow s hn, Except.ok.injEq] at hm
      exact ⟨hm.symm, by omega⟩
    · rintro ⟨rfl, hfits⟩
      obtain ⟨-, -, -, hlow, hhigh, -, -⟩ := bounds_of_find hm
      have hfound := find_of_find hm (m := n) (by omega)
      rw [hn, Except.ok.injEq] at hfound
      exact hfound

/-- A declaration over three lines. -/
def threeLines : List Text := ["float d =", "  length(p)", "  - 0.5;"]

/-- The declaration is found from its last line in a window of three lines, and so in every larger
one; a window of two lines cuts the way back off and finds nothing. -/
theorem find_window_three_lines :
    find 3 threeLines 2 = .ok (some ⟨"float d = length(p) - 0.5;", 0, 2, 7⟩) ∧
      find 64 threeLines 2 = .ok (some ⟨"float d = length(p) - 0.5;", 0, 2, 7⟩) ∧
        find 2 threeLines 2 = .ok none := by
  have hthree : find 3 threeLines 2 = .ok (some ⟨"float d = length(p) - 0.5;", 0, 2, 7⟩) :=
    eq_ok_of_toOption (by decide +kernel)
  refine ⟨hthree, (find_window threeLines 2 3 64 (by decide)).1 _ hthree, ?_⟩
  rw [(find_window threeLines 2 2 3 (by decide)).2, hthree]
  rfl

/-! ### The text of some lines -/

/-- The lines from the first to the last one, each trimmed, joined by spaces. -/
def joined (code : List Text) (first last : Nat) : Text :=
  [' '].intercalate (((code.take (last + 1)).drop first).map Text.trim)

/-- No `;` and no brace stands outside brackets in a text that starts at the given depth of
brackets. -/
def runsOn (depth : Int) : Text → Bool
  | [] => true
  | c :: t =>
    (!([';', '{', '}'].contains c) || decide (0 < depth)) && runsOn (depth + Text.nesting c) t

end Statement

namespace Text

/-- The depth of brackets behind a text that starts outside of them. -/
def nestingOf (t : Text) : Int := (t.map nesting).sum

@[simp] lemma nestingOf_nil : nestingOf [] = 0 := rfl

@[simp] lemma nestingOf_cons (c : Char) (t : Text) :
    nestingOf (c :: t) = nesting c + nestingOf t := by
  simp [nestingOf]

@[simp] lemma nestingOf_append (s t : Text) : nestingOf (s ++ t) = nestingOf s + nestingOf t := by
  simp [nestingOf]

/-- A blank opens and closes no bracket. -/
lemma nesting_of_isBlank {c : Char} (h : isBlank c = true) : nesting c = 0 := by
  unfold nesting
  rw [if_neg, if_neg]
  · rintro (hc | hc)
    · exact ne_of_isBlank h (by decide) hc
    · exact ne_of_isBlank h (by decide) hc
  · rintro (hc | hc)
    · exact ne_of_isBlank h (by decide) hc
    · exact ne_of_isBlank h (by decide) hc

/-- A text whose characters open and close no brackets opens and closes none. -/
lemma nestingOf_eq_zero {t : Text} (h : ∀ c ∈ t, nesting c = 0) : nestingOf t = 0 := by
  induction t with
  | nil => rfl
  | cons c t ih =>
    rw [nestingOf_cons, h c List.mem_cons_self, ih fun d hd => h d (List.mem_cons_of_mem c hd),
      add_zero]

/-- Blanks open and close no brackets. -/
lemma nestingOf_of_isBlankOnly {g : Text} (h : isBlankOnly g = true) : nestingOf g = 0 :=
  nestingOf_eq_zero fun c hc => nesting_of_isBlank (isBlankOnly_iff.mp h c hc)

/-- A text is its indent, what trimming leaves of it, and blanks. -/
lemma exists_trim_append (t : Text) :
    ∃ g, isBlankOnly g = true ∧ t = indent t ++ (trim t ++ g) := by
  obtain ⟨g, hg, htrim⟩ := exists_trimRight_append (trimLeft t)
  refine ⟨g, hg, ?_⟩
  rw [trim, htrim, indent_append_trimLeft]

/-- Nothing is left of a blank text, and of no other text. -/
lemma trim_eq_nil_iff {t : Text} : trim t = [] ↔ isBlankOnly t = true := by
  constructor
  · intro h
    obtain ⟨g, hg, ht⟩ := exists_trim_append t
    rw [ht, h, List.nil_append, isBlankOnly_append, isBlankOnly_indent, hg]
    rfl
  · intro h
    rw [trim, trimLeft_eq_nil h]
    rfl

/-- Blanks at the end are trimmed away in any case. -/
lemma trim_trimRight (t : Text) : trim (trimRight t) = trim t := by
  obtain ⟨g, hg, ht⟩ := exists_trimRight_append t
  by_cases hblank : isBlankOnly (trimRight t) = true
  · have hwhole : isBlankOnly t = true := by
      rw [← ht, isBlankOnly_append, hblank, hg]
      rfl
    rw [trim, trim, trimLeft_eq_nil hblank, trimLeft_eq_nil hwhole]
  · conv_rhs => rw [trim, ← ht, (trimLeft_append_of_not_blank hblank g).2, trimRight_append hg]
    rfl

/-- The first character of a trimmed text is not blank. -/
lemma head?_trim (t : Text) : ∀ c ∈ (trim t).head?, isBlank c = false := by
  intro c hc
  obtain ⟨g, hg, hleft⟩ := exists_trimRight_append (trimLeft t)
  have hhead : (trimLeft t).head? = some c := by
    rw [← hleft]
    cases htrim : trimRight (trimLeft t) with
    | nil =>
      rw [trim, htrim] at hc
      exact absurd hc (by simp)
    | cons d u =>
      rw [trim, htrim] at hc
      exact hc
  have hnot := List.head?_dropWhile_not isBlank t
  rw [show t.dropWhile isBlank = trimLeft t from rfl, hhead] at hnot
  simpa using hnot

/-- A text that neither starts nor ends with a blank is not trimmed. -/
lemma trim_append_of_not_blank {g t : Text} (hg : isBlankOnly g = true)
    (hfirst : ∀ c ∈ t.head?, isBlank c = false) (hlast : ∀ c ∈ t.getLast?, isBlank c = false) :
    trim (g ++ t) = t := by
  rw [trim, trimLeft_append hg]
  cases t with
  | nil => rfl
  | cons c t => rw [trimLeft_cons (hfirst c rfl), trimRight_of_getLast? hlast]

end Text

namespace Statement

variable {depth : Int} {line : Nat} {l s t body rest : Text}

/-- A text runs on if its parts do. -/
lemma runsOn_append (depth : Int) (s t : Text) :
    runsOn depth (s ++ t) = (runsOn depth s && runsOn (depth + Text.nestingOf s) t) := by
  induction s generalizing depth with
  | nil => simp [runsOn]
  | cons c s ih =>
    rw [List.cons_append, runsOn, ih, runsOn, Text.nestingOf_cons, Bool.and_assoc, add_assoc]

/-- Blanks end no statement. -/
lemma runsOn_of_isBlankOnly {g : Text} (h : Text.isBlankOnly g = true) (depth : Int) :
    runsOn depth g = true := by
  induction g generalizing depth with
  | nil => rfl
  | cons c g ih =>
    have hblank := Text.isBlankOnly_iff.mp h
    have hc : [';', '{', '}'].contains c = false := by
      rw [← Bool.not_eq_true, List.contains_iff_mem]
      intro hmem
      have hink : isBlank c = false := isBlank_delimiter (by simp at hmem ⊢; tauto)
      rw [hblank c List.mem_cons_self] at hink
      exact absurd hink (by decide)
    rw [runsOn, hc, ih (Text.isBlankOnly_iff.mpr fun d hd => hblank d (List.mem_cons_of_mem c hd))]
    rfl

/-- A part of a line that runs on is passed over. -/
lemma lineEnd_append (h : runsOn depth s = true) (column : Nat) (t : Text) :
    lineEnd depth column (s ++ t) =
      lineEnd (depth + Text.nestingOf s) (column + s.length) t := by
  induction s generalizing depth column with
  | nil => simp
  | cons c s ih =>
    rw [runsOn, Bool.and_eq_true] at h
    obtain ⟨hc, hs⟩ := h
    have hnext := ih hs (column + 1)
    rw [Text.nestingOf_cons, List.length_cons, ← add_assoc, ← Nat.add_assoc,
      Nat.add_right_comm column s.length 1, ← hnext, List.cons_append, lineEnd]
    by_cases hnesting : Text.nesting c = 0
    · have hpass : ¬(depth ≤ 0 ∧ (c = ';' ∨ c = '{' ∨ c = '}')) := by
        rintro ⟨hdepth, hend⟩
        have hmem : c ∈ [';', '{', '}'] := by simpa using hend
        rw [List.contains_iff_mem.mpr hmem, Bool.not_true, Bool.false_or, decide_eq_true_eq] at hc
        omega
      rw [if_neg (by simpa using hnesting), if_neg fun hsemi => hpass ⟨hsemi.1, .inl hsemi.2⟩,
        if_neg fun hbrace => hpass ⟨hbrace.1, .inr hbrace.2⟩, hnesting, add_zero]
    · rw [if_pos hnesting]

/-- A line that runs on is passed over as a whole. -/
lemma lineEnd_of_runsOn (h : runsOn depth (Text.trim l) = true) :
    lineEnd depth 0 l = .unfinished (depth + Text.nestingOf (Text.trim l)) := by
  obtain ⟨g, hg, hl⟩ := Text.exists_trim_append l
  have hindent := Text.isBlankOnly_indent l
  have hwhole : runsOn depth (Text.indent l ++ (Text.trim l ++ g)) = true := by
    rw [runsOn_append, runsOn_of_isBlankOnly hindent, Text.nestingOf_of_isBlankOnly hindent,
      add_zero, runsOn_append, h, runsOn_of_isBlankOnly hg]
    rfl
  have hend := lineEnd_append hwhole 0 []
  rw [List.append_nil, ← hl] at hend
  rw [hend, lineEnd]
  conv_lhs => rw [hl]
  simp [Text.nestingOf_of_isBlankOnly hindent, Text.nestingOf_of_isBlankOnly hg]

/-- The line of a `;` ends at it, if it is the first one outside brackets. -/
lemma exists_lineEnd_semicolon (h : Text.trim l = body ++ ';' :: rest)
    (hbody : runsOn depth body = true) (hdepth : depth + Text.nestingOf body ≤ 0) :
    ∃ column, lineEnd depth 0 l = .semicolon column ∧
      Text.trim (l.take (column + 1)) = body ++ [';'] := by
  obtain ⟨g, hg, hl⟩ := Text.exists_trim_append l
  have hindent := Text.isBlankOnly_indent l
  set front := Text.indent l ++ body with hfront
  have hsplit : l = front ++ ';' :: (rest ++ g) := by
    rw [hl, h, hfront]
    simp
  have hruns : runsOn depth front = true := by
    rw [hfront, runsOn_append, runsOn_of_isBlankOnly hindent, Text.nestingOf_of_isBlankOnly hindent,
      add_zero, hbody]
    rfl
  have hnesting : Text.nestingOf front = Text.nestingOf body := by
    rw [hfront, Text.nestingOf_append, Text.nestingOf_of_isBlankOnly hindent, zero_add]
  refine ⟨front.length, ?_, ?_⟩
  · conv_lhs => rw [hsplit]
    rw [lineEnd_append hruns, hnesting, lineEnd, if_neg (by decide), if_pos ⟨hdepth, rfl⟩,
      Nat.zero_add]
  · have htake : l.take (front.length + 1) = Text.indent l ++ (body ++ [';']) := by
      conv_lhs => rw [hsplit, List.take_length_add_append]
      rw [hfront]
      simp
    rw [htake]
    refine Text.trim_append_of_not_blank hindent (fun c hc => ?_) fun c hc => ?_
    · -- the first character is that of the trimmed line
      refine Text.head?_trim l c ?_
      rw [h]
      cases body with
      | nil => exact hc
      | cons d body => exact hc
    · rw [List.getLast?_append_of_ne_nil _ (by simp)] at hc
      obtain rfl : ';' = c := by simpa using hc
      decide

/-- Joining lines by spaces. -/
lemma intercalate_cons_cons (l l' : Text) (ls : List Text) :
    [' '].intercalate (l :: l' :: ls) = l ++ ' ' :: [' '].intercalate (l' :: ls) := by
  simp [List.intercalate]

/-- The last of some joined lines makes up the end of the text. -/
lemma length_le_intercalate (front : List Text) (l : Text) :
    l.length ≤ ([' '].intercalate (front ++ [l])).length := by
  induction front with
  | nil => simp [List.intercalate]
  | cons t front ih =>
    obtain ⟨u, us, hus⟩ := List.exists_cons_of_ne_nil (show front ++ [l] ≠ [] by simp)
    rw [List.cons_append, hus, intercalate_cons_cons, ← hus, List.length_append, List.length_cons]
    omega

/-- **The end of a statement is the first `;` outside brackets of the joined lines**, if that stands
on the last one of them. -/
theorem exists_endFrom_of_intercalate (line : Nat) (front more : List Text)
    (h : [' '].intercalate ((front ++ [l]).map Text.trim) = body ++ ';' :: rest)
    (hlast : rest.length < (Text.trim l).length) (hbody : runsOn depth body = true)
    (hdepth : depth + Text.nestingOf body ≤ 0) :
    ∃ column, endFrom depth line (front ++ l :: more) = some ⟨line + front.length, column⟩ ∧
      [' '].intercalate ((front ++ [l.take (column + 1)]).map Text.trim) = body ++ [';'] := by
  induction front generalizing depth line body with
  | nil =>
    have htrim : Text.trim l = body ++ ';' :: rest := by simpa [List.intercalate] using h
    obtain ⟨column, hline, htake⟩ := exists_lineEnd_semicolon htrim hbody hdepth
    refine ⟨column, ?_, ?_⟩
    · rw [List.nil_append, endFrom, hline]
      rfl
    · simpa [List.intercalate] using htake
  | cons t front ih =>
    obtain ⟨u, us, hus⟩ := List.exists_cons_of_ne_nil
      (show (front ++ [l]).map Text.trim ≠ [] by simp)
    rw [List.cons_append, List.map_cons, hus, intercalate_cons_cons, ← hus] at h
    -- the `;` stands behind the first line
    have hlong : (Text.trim l).length ≤
        ([' '].intercalate ((front ++ [l]).map Text.trim)).length := by
      rw [List.map_append, List.map_singleton]
      exact length_le_intercalate _ _
    obtain ⟨body', hbody', hjoined⟩ : ∃ body', body = (Text.trim t ++ [' ']) ++ body' ∧
        [' '].intercalate ((front ++ [l]).map Text.trim) = body' ++ ';' :: rest := by
      rw [← List.singleton_append, ← List.append_assoc] at h
      rcases List.append_eq_append_iff.mp h with ⟨part, hpart, hrest⟩ | ⟨part, hpart, hrest⟩
      · exact ⟨part, hpart, hrest⟩
      · have hlength := congrArg List.length hrest
        rw [List.length_append, List.length_cons] at hlength
        obtain rfl : part = [] := List.length_eq_zero_iff.mp (by omega)
        exact ⟨[], by simpa using hpart.symm, by simpa using hrest.symm⟩
    rw [hbody', runsOn_append, Bool.and_eq_true, runsOn_append, Bool.and_eq_true] at hbody
    have hspace : Text.nestingOf [' '] = 0 := by decide
    rw [Text.nestingOf_append, hspace, add_zero] at hbody
    rw [hbody', Text.nestingOf_append, Text.nestingOf_append, hspace, add_zero,
      ← add_assoc] at hdepth
    obtain ⟨column, hend, htext⟩ := ih (line + 1) hjoined hbody.2 hdepth
    refine ⟨column, ?_, ?_⟩
    · rw [List.cons_append, endFrom, lineEnd_of_runsOn hbody.1.1]
      dsimp only
      rw [hend, List.length_cons, Nat.add_assoc, Nat.add_comm 1]
    · obtain ⟨v, vs, hvs⟩ := List.exists_cons_of_ne_nil
        (show (front ++ [l.take (column + 1)]).map Text.trim ≠ [] by simp)
      rw [List.cons_append, List.map_cons, hvs, intercalate_cons_cons, ← hvs, htext, hbody']
      simp

end Statement

/-! ### Declarations -/

/-- A character of a text without comments opens none, and what follows it has none. -/
lemma Comment.isFree_of_cons {c : Char} {t : Text} (h : isFree (c :: t) = true) :
    (∀ d ∈ t.head?, opens c d = false) ∧ isFree t = true := by
  cases t with
  | nil => exact ⟨fun d hd => absurd hd (by simp), rfl⟩
  | cons d t =>
    rw [isFree, Bool.and_eq_true, Bool.not_eq_true'] at h
    refine ⟨fun x hx => ?_, h.2⟩
    obtain rfl : d = x := Option.some.inj hx
    exact h.1

/-- Lines without comments are only trimmed. -/
lemma Comment.strip_of_isFree {ls : List Text} (h : ∀ l ∈ ls, isFree l = true) :
    strip ls = ls.map Text.trimRight := by
  have hline : ∀ l : Text, isFree l = true → blankLine false l = (l, false) := by
    intro l hl
    induction l with
    | nil => rfl
    | cons c t ih =>
      obtain ⟨hopens, ht⟩ := isFree_of_cons hl
      rw [blankLine_cons hopens, ih ht]
  unfold strip
  induction ls with
  | nil => rfl
  | cons l ls ih =>
    rw [stripFrom, hline l (h l List.mem_cons_self), List.map_cons]
    dsimp only
    rw [ih fun x hx => h x (List.mem_cons_of_mem l hx)]

namespace Text

/-- A word in front of a blank is the first of the words. -/
lemma words_append {w : Text} (hne : w ≠ []) (hw : ∀ c ∈ w, isBlank c = false) {t : Text}
    (ht : startsBlank t = true) : words (w ++ t) = w :: words t := by
  induction w with
  | nil => exact absurd rfl hne
  | cons c w ih =>
    have hc := hw c List.mem_cons_self
    rw [List.cons_append, words, if_neg (by simp [hc])]
    cases w with
    | nil => rw [List.nil_append, if_pos ht]
    | cons d w =>
      have hd := hw d (by simp)
      rw [ih (by simp) fun x hx => hw x (List.mem_cons_of_mem c hx),
        if_neg (by simp [startsBlank, hd])]

/-- Blanks start a text of blanks. -/
lemma startsBlank_gap (g : Gap) (t : Text) (h : g.text ≠ [] ∨ t = []) :
    startsBlank (g.text ++ t) = true := by
  have hblank := isBlankOnly_iff.mp g.isBlankOnly
  cases hg : g.text with
  | nil =>
    rw [hg] at h
    rw [h.resolve_left (by simp)]
    rfl
  | cons c u => exact hblank c (by rw [hg]; exact List.mem_cons_self)

/-- Words, each with the blanks behind it. -/
def spaced (parts : List (Text × Gap)) : Text := parts.flatMap fun part => part.1 ++ part.2.text

/-- The words of some words with blanks between them, in front of a text. -/
lemma words_spaced_append {parts : List (Text × Gap)}
    (h : ∀ part ∈ parts, part.1 ≠ [] ∧ (∀ c ∈ part.1, isBlank c = false) ∧ part.2.text ≠ [])
    (t : Text) : words (spaced parts ++ t) = parts.map Prod.fst ++ words t := by
  induction parts with
  | nil => rfl
  | cons part parts ih =>
    obtain ⟨hne, hink, hgap⟩ := h part List.mem_cons_self
    have hstart := startsBlank_gap part.2 (spaced parts ++ t) (.inl hgap)
    have hrest := ih fun x hx => h x (List.mem_cons_of_mem part hx)
    calc words (spaced (part :: parts) ++ t)
        = words (part.1 ++ (part.2.text ++ (spaced parts ++ t))) := by simp [spaced]
      _ = part.1 :: words (part.2.text ++ (spaced parts ++ t)) := words_append hne hink hstart
      _ = part.1 :: words (spaced parts ++ t) := by
          rw [words_append_of_isBlankOnly part.2.isBlankOnly]
      _ = (part :: parts).map Prod.fst ++ words t := by rw [hrest]; rfl

/-- A word with blanks behind it is the only one. -/
lemma words_append_blank {w : Text} (hne : w ≠ []) (hink : ∀ c ∈ w, isBlank c = false) {g : Text}
    (hg : isBlankOnly g = true) : words (w ++ g) = [w] := by
  have hstart := startsBlank_gap ⟨g, hg⟩ [] (.inr rfl)
  rw [List.append_nil] at hstart
  have hnone := words_append_of_isBlankOnly hg []
  rw [List.append_nil] at hnone
  rw [words_append hne hink hstart, hnone]
  rfl

end Text

/-- The parts of a declaration with an initializer: qualifiers, a type, a name and a value. -/
structure DeclarationText where
  /-- The qualifiers, each with the blanks behind it. -/
  qualifiers : List (Text × Gap)
  type : Text
  /-- The blanks between type and name. -/
  space : Gap
  name : Text
  /-- The blanks between the name and the `=`. -/
  gap : Gap
  /-- What stands between the `=` and the `;`. -/
  value : Text
  isQualifier : ∀ part ∈ qualifiers, part.1 ∈ Statement.qualifiers ∧ part.2.text ≠ []
  isType : type ∈ GlslType.variableKeywords
  isSpace : space.text ≠ []
  isName : Text.isIdent name = true
  isValue : value.head? ≠ some '='

namespace DeclarationText

/-- The qualifiers with their blanks. -/
def lead (d : DeclarationText) : Text := d.qualifiers.flatMap fun part => part.1 ++ part.2.text

/-- The declaration in front of the `=`. -/
def front (d : DeclarationText) : Text :=
  d.lead ++ (d.type ++ (d.space.text ++ (d.name ++ d.gap.text)))

/-- The declaration in front of the `;`. -/
def body (d : DeclarationText) : Text := d.front ++ '=' :: d.value

/-- The declaration. -/
def text (d : DeclarationText) : Text := d.body ++ [';']

/-- The qualifiers are made of word characters. -/
lemma isWordChar_of_mem_qualifiers {word : Text} (h : word ∈ Statement.qualifiers) :
    word ≠ [] ∧ ∀ c ∈ word, isWordChar c = true := by
  have hall : ∀ word ∈ Statement.qualifiers, word ≠ [] ∧ word.all Char.isAlphanum = true := by
    decide
  refine ⟨(hall word h).1, fun c hc => ?_⟩
  rw [isWordChar, List.all_eq_true.mp (hall word h).2 c hc]
  rfl

/-- In front of the `=` there are words and blanks. -/
lemma cases_of_mem_front (d : DeclarationText) {c : Char} (hc : c ∈ d.front) :
    isWordChar c = true ∨ isBlank c = true := by
  have hgap : ∀ g : Gap, c ∈ g.text → isBlank c = true := fun g hg =>
    Text.isBlankOnly_iff.mp g.isBlankOnly c hg
  unfold front lead at hc
  simp only [List.mem_append, List.mem_flatMap] at hc
  rcases hc with ⟨part, hpart, hc | hc⟩ | hc | hc | hc | hc
  · exact .inl ((isWordChar_of_mem_qualifiers (d.isQualifier part hpart).1).2 c hc)
  · exact .inr (hgap _ hc)
  · exact .inl (GlslType.isWordChar_of_mem d.isType c hc)
  · exact .inr (hgap _ hc)
  · exact .inl (Text.isWordChar_of_isIdent d.isName c hc)
  · exact .inr (hgap _ hc)

/-- The words in front of the `=` are the qualifiers, the type and the name. -/
lemma words_front (d : DeclarationText) :
    Text.words d.front = d.qualifiers.map Prod.fst ++ [d.type, d.name] := by
  have hparts : ∀ part ∈ d.qualifiers,
      part.1 ≠ [] ∧ (∀ c ∈ part.1, isBlank c = false) ∧ part.2.text ≠ [] := by
    intro part hpart
    obtain ⟨hqualifier, hgap⟩ := d.isQualifier part hpart
    obtain ⟨hne, hchars⟩ := isWordChar_of_mem_qualifiers hqualifier
    exact ⟨hne, fun c hc => isBlank_eq_false_of_isWordChar (hchars c hc), hgap⟩
  have htype : d.type ≠ [] :=
    (by decide : ∀ type ∈ GlslType.variableKeywords, type ≠ []) d.type d.isType
  have hink : ∀ c ∈ d.type, isBlank c = false := fun c hc =>
    isBlank_eq_false_of_isWordChar (GlslType.isWordChar_of_mem d.isType c hc)
  calc Text.words d.front
      = d.qualifiers.map Prod.fst ++
          Text.words (d.type ++ (d.space.text ++ (d.name ++ d.gap.text))) :=
        Text.words_spaced_append hparts _
    _ = d.qualifiers.map Prod.fst ++ d.type :: Text.words (d.name ++ d.gap.text) := by
        rw [Text.words_append htype hink (Text.startsBlank_gap d.space _ (.inl d.isSpace)),
          Text.words_append_of_isBlankOnly d.space.isBlankOnly]
    _ = d.qualifiers.map Prod.fst ++ [d.type, d.name] := by
        rw [Text.words_append_blank (Text.ne_nil_of_isIdent d.isName)
          (Text.isBlank_of_isIdent d.isName) d.gap.isBlankOnly]

/-- **A declaration is read as one.** -/
theorem declared?_text (d : DeclarationText) :
    Statement.declared? d.text = some ⟨d.name, d.type⟩ := by
  have hequals : ∀ c ∈ d.front, (c != '=') = true := by
    intro c hc
    rw [bne_iff_ne]
    rintro rfl
    exact absurd (d.cases_of_mem_front hc) (by decide)
  have htext : d.text = d.front ++ '=' :: (d.value ++ [';']) := by
    rw [text, body]
    simp
  have htake : d.text.takeWhile (· != '=') = d.front := by
    rw [htext, List.takeWhile_append_of_pos hequals, List.takeWhile_cons_of_neg (by simp),
      List.append_nil]
  have hdrop : d.text.dropWhile (· != '=') = '=' :: (d.value ++ [';']) := by
    rw [htext, List.dropWhile_append_of_pos hequals, List.dropWhile_cons_of_neg (by simp)]
  have hwords : (Text.words (d.text.takeWhile (· != '='))).reverse =
      d.name :: d.type :: (d.qualifiers.map Prod.fst).reverse := by
    rw [htake, words_front, List.reverse_append]
    rfl
  have hfront : (d.qualifiers.map Prod.fst).reverse.all (Statement.qualifiers.contains ·) = true := by
    rw [List.all_eq_true]
    intro word hword
    obtain ⟨part, hpart, rfl⟩ := List.mem_map.mp (List.mem_reverse.mp hword)
    exact List.contains_iff_mem.mpr (d.isQualifier part hpart).1
  have hvalue : (d.value ++ [';']).head? ≠ some '=' := by
    have hne := d.isValue
    cases hd : d.value with
    | nil => decide
    | cons c t =>
      rw [hd] at hne
      exact hne
  rw [Statement.declared?, hwords, hdrop]
  dsimp only
  rw [if_pos]
  rw [hfront, List.contains_iff_mem.mpr d.isType, d.isName, List.getLast?_concat]
  simpa using hvalue

end DeclarationText

namespace Statement

variable {code : List Text} {first last line : Nat}

/-- Blanks at the end of a line do not make it a boundary. -/
lemma isBoundary_trimRight (l : Text) : isBoundary (Text.trimRight l) = isBoundary l := by
  unfold isBoundary
  rw [Text.trim_trimRight]

/-- Trimming the lines on the right keeps where statements start and how they are connected. -/
lemma isStart_map_trimRight : IsStart (code.map Text.trimRight) first ↔ IsStart code first := by
  unfold IsStart
  simp only [List.getElem?_map, Option.mem_map, forall_exists_index, and_imp,
    forall_apply_eq_imp_iff₂, isBoundary_trimRight]

lemma isConnected_map_trimRight :
    IsConnected (code.map Text.trimRight) first line ↔ IsConnected code first line := by
  unfold IsConnected
  simp only [List.getElem?_map, Option.mem_map, forall_exists_index, and_imp,
    forall_apply_eq_imp_iff₂, isBoundary_trimRight]

/-- Trimming the lines on the right keeps their text. -/
lemma joined_map_trimRight :
    joined (code.map Text.trimRight) first last = joined code first last := by
  unfold joined
  rw [← List.map_take, ← List.map_drop, List.map_map]
  exact congrArg _ (List.map_congr_left fun l _ => Text.trim_trimRight l)

/-- The lines from the first one on are those up to the last one, the last one, and others. -/
lemma exists_take_drop {l : Text} (hl : code[last]? = some l) (horder : first ≤ last) {k : Nat}
    (hk : last < first + k) :
    ∃ more, (code.drop first).take k = (code.take last).drop first ++ l :: more := by
  have hlength := (List.getElem?_eq_some_iff.mp hl).1
  have hsplit : code.drop first = (code.take last).drop first ++ l :: code.drop (last + 1) := by
    conv_lhs => rw [← List.take_append_drop last code]
    rw [List.drop_append_of_le_length (by rw [List.length_take]; omega),
      List.drop_eq_getElem_cons hlength]
    rw [(List.getElem?_eq_some_iff.mp hl).2]
  have hfront : ((code.take last).drop first).length = last - first := by
    rw [List.length_drop, List.length_take]
    omega
  refine ⟨(code.drop (last + 1)).take (k - (last - first) - 1), ?_⟩
  rw [hsplit, List.take_append, hfront, List.take_of_length_le (by omega),
    List.take_cons (by omega)]

/-- The joined lines are those in front of the last one and the last one. -/
lemma joined_eq {l : Text} (hl : code[last]? = some l) (horder : first ≤ last) :
    joined code first last =
      [' '].intercalate (((code.take last).drop first ++ [l]).map Text.trim) := by
  have hlength := (List.getElem?_eq_some_iff.mp hl).1
  unfold joined
  rw [List.take_add_one, hl, List.drop_append_of_le_length (by rw [List.length_take]; omega)]
  rfl

/-- **The statement of some lines** that reads as a text up to its first `;` outside brackets. -/
theorem find_of_joined {max : Int} {l body rest : Text} (hlow : first ≤ line) (hhigh : line ≤ last)
    (hwindow : last < first + max.toNat) (hl : code[last]? = some l)
    (hink : ∀ l ∈ code[line]?, Text.isBlankOnly l = false) (hstart : IsStart code first)
    (hconnected : IsConnected code first line)
    (htext : joined code first last = body ++ ';' :: rest)
    (hlast : rest.length < (Text.trim l).length) (hruns : runsOn 0 body = true)
    (hdepth : Text.nestingOf body ≤ 0) :
    ∃ column, find max code line = .ok (some ⟨body ++ [';'], first, last, column⟩) := by
  have hlength := (List.getElem?_eq_some_iff.mp hl).1
  have horder : first ≤ last := hlow.trans hhigh
  rw [joined_eq hl horder] at htext
  obtain ⟨more, hmore⟩ := exists_take_drop hl horder hwindow
  obtain ⟨column, hend, hcut⟩ := exists_endFrom_of_intercalate first _ more htext hlast
    hruns (by rwa [zero_add])
  have hfront : ((code.take last).drop first).length = last - first := by
    rw [List.length_drop, List.length_take]
    omega
  rw [hfront, Nat.add_sub_cancel' horder] at hend
  have hfirst : firstLine max code line = first :=
    (firstLine_eq_iff (by omega) hlow (by omega)).mpr ⟨hconnected, hstart⟩
  have hget : code[line]? = some code[line] := List.getElem?_eq_getElem (by omega)
  refine ⟨column, find_eq_some_iff.mpr ⟨⟨_, hget, hink _ hget⟩,
    spanning?_eq_some_iff.mpr ⟨?_, hhigh⟩⟩⟩
  rw [hfirst, from?, hmore, hend, Option.map_some, textTo, List.getD_eq_getElem?_getD, hl]
  dsimp only [Option.getD_some]
  rw [hcut]

end Statement

/-- The declaration stands on the lines from the first to the last one, possibly with something else
behind it: the lines are not blank, the first one starts a statement, none in front of the last one
is a boundary, and up to their first `;` or brace outside brackets, which is the `;` of the
declaration and stands on the last line, they read as the declaration. -/
structure DeclarationText.IsOn (d : DeclarationText) (lines : List Text) (first last : Nat) : Prop where
  isInk : ∀ k, first ≤ k → k ≤ last → ∀ l ∈ lines[k]?, Text.isBlankOnly l = false
  isStart : Statement.IsStart lines first
  isConnected : Statement.IsConnected lines first last
  text : ∃ l rest, lines[last]? = some l ∧ Statement.joined lines first last = d.text ++ rest ∧
    rest.length < (Text.trim l).length
  isFirstEnd : Statement.runsOn 0 d.body = true ∧ Text.nestingOf d.body ≤ 0

namespace Target

/-- **A declaration is found from each of its lines, however it is broken over them**, in lines
without comments and with a window that is larger than the distance of its lines. -/
theorem classify_of_declarationText (config : Config) (lines : List Text) (first last line : Nat)
    (function : Option Signature) (d : DeclarationText)
    (hfree : ∀ l ∈ lines, Comment.isFree l = true) (h : d.IsOn lines first last)
    (hwindow : (last : Int) - first < config.maxStatementLines) (hlow : first ≤ line)
    (hhigh : line ≤ last) :
    classify config Probe.shownKinds lines line none function =
      .ok (.declaration ⟨d.name, d.type⟩ first last) := by
  obtain ⟨l, rest, hl, htext, hlast⟩ := h.text
  have hcode := Comment.strip_of_isFree hfree
  obtain ⟨column, hfind⟩ : ∃ column, Statement.find config.maxStatementLines (Comment.strip lines)
      line = .ok (some ⟨d.body ++ [';'], first, last, column⟩) := by
    rw [hcode]
    have hl' : (lines.map Text.trimRight)[last]? = some (Text.trimRight l) := by
      rw [List.getElem?_map, hl]
      rfl
    have htext' : Statement.joined (lines.map Text.trimRight) first last =
        d.body ++ ';' :: rest := by
      rw [Statement.joined_map_trimRight, htext, DeclarationText.text]
      simp
    refine Statement.find_of_joined hlow hhigh (by omega) hl' ?_
      (Statement.isStart_map_trimRight.mpr h.isStart) ?_ htext' ?_ h.isFirstEnd.1 h.isFirstEnd.2
    · intro t ht
      rw [List.getElem?_map] at ht
      obtain ⟨u, hu, rfl⟩ := Option.map_eq_some_iff.mp ht
      have hink := h.isInk line hlow hhigh u hu
      obtain ⟨g, hg, hsplit⟩ := Text.exists_trimRight_append u
      rw [← hsplit, Text.isBlankOnly_append, hg, Bool.and_true] at hink
      exact hink
    · exact Statement.isConnected_map_trimRight.mpr fun k hk hk' =>
        h.isConnected k hk (hk'.trans_le hhigh)
    · rwa [Text.trim_trimRight]
  rw [classify_of_find hfind, Probe.shownKinds, Statement.classify, Statement.classifyAs,
    show d.body ++ [';'] = d.text from rfl, d.declared?_text]
  rfl

/-- One space is blank. -/
lemma isBlankOnly_space : Text.isBlankOnly [' '] = true := by decide

/-- A text without characters is blank. -/
lemma isBlankOnly_nil : Text.isBlankOnly [] = true := rfl

/-- A declaration with two qualifiers and a value in brackets. -/
def qualified : DeclarationText where
  qualifiers := [("const", ⟨[' '], isBlankOnly_space⟩), ("highp", ⟨[' '], isBlankOnly_space⟩)]
  type := "vec2"
  space := ⟨[' '], isBlankOnly_space⟩
  name := "q"
  gap := ⟨[], isBlankOnly_nil⟩
  value := " max(p[0], p[1])"
  isQualifier := by decide
  isType := by decide
  isSpace := by decide
  isName := by decide
  isValue := by decide

/-- The declaration broken over three lines behind a directive, with more code on its last line. -/
def brokenLines : List Text :=
  ["#define N 2", "  const highp", "  vec2 q= max(p[0],", "    p[1]); q.x = 1.0;", "\x7d"]

/-- The declaration is found from its second line. -/
theorem classify_of_declarationText_broken :
    qualified.IsOn brokenLines 1 3 ∧
      classify {} Probe.shownKinds brokenLines 2 none none =
        .ok (.declaration ⟨"q", "vec2"⟩ 1 3) := by
  have hon : qualified.IsOn brokenLines 1 3 := by
    refine ⟨fun k hlow hhigh => ?_, fun k hk => ?_, fun k hlow hhigh => ?_,
      ⟨_, " q.x = 1.0;", rfl, ?_, ?_⟩, ?_, ?_⟩
    · obtain rfl | rfl | rfl : k = 1 ∨ k = 2 ∨ k = 3 := by omega
      all_goals decide +kernel
    · obtain rfl : k = 0 := by omega
      decide +kernel
    · obtain rfl | rfl : k = 1 ∨ k = 2 := by omega
      all_goals decide +kernel
    all_goals decide +kernel
  exact ⟨hon, classify_of_declarationText {} brokenLines 1 3 2 none qualified
    (by decide +kernel) hon (by decide) (by decide) (by decide)⟩

end Target

end ShaderProbe
