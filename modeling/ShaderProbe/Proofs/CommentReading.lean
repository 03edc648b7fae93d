import Mathlib
import ShaderProbe.Proofs.StatementSpans

/-!
# Reading comments

What a comment is can be said without a scan: the lines, each with its end behind it, are one
sequence, and the sequence is code, comments to the end of a line and block comments, one after the
other (`Comment.Reads`).  A block comment runs to the first `*/` behind its `/*`, over the ends of
lines if need be.  Every sequence is read in one way (`Comment.Reads.unique`).

* `Comment.reads_stream`: stripping comments follows this reading.
* `Comment.isFree_of_mem_stripFrom`: no comment is left, so stripping again changes nothing.
* `Comment.reads_and_strip_strip`: both together, and what is found in a source is what is found in
  its code.
-/

namespace ShaderProbe

namespace Comment

/-! ### Sources as sequences -/

/-- The lines as one sequence: the characters of each line, and its end. -/
def stream (ls : List Text) : List (Option Char) := ls.flatMap fun l => l.map some ++ [none]

/-- The start of a comment that runs to the end of its line. -/
def lineMark : List (Option Char) := [some '/', some '/']

/-- The start of a block comment. -/
def blockMark : List (Option Char) := [some '/', some '*']

/-- The end of a block comment. -/
def endMark : List (Option Char) := [some '*', some '/']

/-- A space in place of every character; the ends of lines stay. -/
def erased (s : List (Option Char)) : List (Option Char) := s.map (Option.map fun _ => ' ')

/-- What is read in a sequence, what it becomes when its comments are blanked, and whether a block
comment is open at its end. -/
inductive Reads : List (Option Char) → List (Option Char) → Bool → Prop
  | nil : Reads [] [] false
  /-- A character of the code, or the end of a line. -/
  | code {c : Option Char} {s o : List (Option Char)} {isOpen : Bool}
      (isCode : ¬lineMark <+: c :: s ∧ ¬blockMark <+: c :: s) (next : Reads s o isOpen) :
      Reads (c :: s) (c :: o) isOpen
  /-- A comment to the end of its line. -/
  | line {body s o : List (Option Char)} {isOpen : Bool} (isLine : none ∉ body)
      (next : Reads (none :: s) o isOpen) : Reads (lineMark ++ (body ++ none :: s)) o isOpen
  /-- A block comment: in its body, followed by its end, the end mark occurs only at the end. -/
  | block {body s o : List (Option Char)} {isOpen : Bool}
      (isBody : ¬endMark <:+: body ++ [some '*']) (next : Reads s o isOpen) :
      Reads (blockMark ++ (body ++ (endMark ++ s))) (erased (blockMark ++ (body ++ endMark)) ++ o)
        isOpen
  /-- A block comment that is not closed. -/
  | unclosed {body : List (Option Char)} (isBody : ¬endMark <:+: body) :
      Reads (blockMark ++ body) (erased (blockMark ++ body)) true

@[simp] lemma stream_nil : stream [] = [] := rfl

@[simp] lemma stream_cons (l : Text) (ls : List Text) :
    stream (l :: ls) = l.map some ++ none :: stream ls := by
  simp [stream]

variable {s s' o o' body body' : List (Option Char)} {isOpen isOpen' : Bool}

/-- The first end of a line is in one place. -/
lemma eq_of_first_none (h : body ++ none :: s = body' ++ none :: s') (hbody : none ∉ body)
    (hbody' : none ∉ body') : body = body' ∧ s = s' := by
  have hmore : ∀ {b more t t' : List (Option Char)}, none ∉ b ++ more →
      none :: t = more ++ none :: t' → more = [] := by
    intro b more t t' hnot heq
    cases more with
    | nil => rfl
    | cons x more =>
      obtain ⟨rfl, -⟩ := List.cons.inj heq
      exact absurd (by simp) hnot
  rcases List.append_eq_append_iff.mp h with ⟨more, rfl, heq⟩ | ⟨more, rfl, heq⟩
  · obtain rfl := hmore hbody' heq
    exact ⟨(List.append_nil body).symm, (List.cons.inj heq).2⟩
  · obtain rfl := hmore hbody heq
    exact ⟨List.append_nil body', (List.cons.inj heq).2.symm⟩

/-! ### One reading -/

/-- The first end mark of a sequence is in one place. -/
lemma eq_of_first_endMark (h : body ++ (endMark ++ s) = body' ++ (endMark ++ s'))
    (hbody : ¬endMark <:+: body ++ [some '*']) (hbody' : ¬endMark <:+: body' ++ [some '*']) :
    body = body' ∧ s = s' := by
  -- a longer body would hold the end mark of the shorter one
  have hmore : ∀ {b more t t' : List (Option Char)}, ¬endMark <:+: (b ++ more) ++ [some '*'] →
      endMark ++ t = more ++ (endMark ++ t') → more = [] := by
    intro b more t t' hnot heq
    rcases more with _ | ⟨x, _ | ⟨y, more⟩⟩
    · rfl
    · exact absurd (List.cons.inj (List.cons.inj heq).2).1 (by decide)
    · obtain ⟨rfl, hrest⟩ := List.cons.inj heq
      obtain ⟨rfl, -⟩ := List.cons.inj hrest
      exact absurd ⟨b, more ++ [some '*'], by simp [endMark]⟩ hnot
  rcases List.append_eq_append_iff.mp h with ⟨more, rfl, heq⟩ | ⟨more, rfl, heq⟩
  · obtain rfl := hmore hbody' heq
    exact ⟨(List.append_nil body).symm, by simpa using heq⟩
  · obtain rfl := hmore hbody heq
    exact ⟨List.append_nil body', by simpa using heq.symm⟩

/-- **A sequence is read in one way.** -/
lemma Reads.unique (h : Reads s o isOpen) (h' : Reads s o' isOpen') :
    o = o' ∧ isOpen = isOpen' := by
  induction h generalizing o' isOpen' with
  | nil =>
    generalize hs : ([] : List (Option Char)) = s at h'
    cases h' with
    | nil => exact ⟨rfl, rfl⟩
    | code => exact absurd hs (by simp)
    | line => exact absurd hs (by simp [lineMark])
    | block => exact absurd hs (by simp [blockMark])
    | unclosed => exact absurd hs (by simp [blockMark])
  | @code c s o isOpen isCode _ ih =>
    generalize hs : c :: s = t at h'
    cases h' with
    | nil => exact absurd hs (by simp)
    | code _ next =>
      obtain ⟨rfl, rfl⟩ := List.cons.inj hs
      obtain ⟨rfl, rfl⟩ := ih next
      exact ⟨rfl, rfl⟩
    | line => exact absurd (hs ▸ List.prefix_append _ _) isCode.1
    | block => exact absurd (hs ▸ List.prefix_append _ _) isCode.2
    | unclosed => exact absurd (hs ▸ List.prefix_append _ _) isCode.2
  | @line body s o isOpen isLine _ ih =>
    generalize hs : lineMark ++ (body ++ none :: s) = t at h'
    cases h' with
    | nil => exact absurd hs (by simp [lineMark])
    | code isCode => exact absurd (hs ▸ List.prefix_append _ _) isCode.1
    | line isLine' next =>
      obtain ⟨-, rfl⟩ := eq_of_first_none (List.append_cancel_left hs) isLine isLine'
      exact ih next
    | block => exact absurd hs (by simp [lineMark, blockMark])
    | unclosed => exact absurd hs (by simp [lineMark, blockMark])
  | @block body s o isOpen isBody _ ih =>
    generalize hs : blockMark ++ (body ++ (endMark ++ s)) = t at h'
    cases h' with
    | nil => exact absurd hs (by simp [blockMark])
    | code isCode => exact absurd (hs ▸ List.prefix_append _ _) isCode.2
    | line => exact absurd hs (by simp [lineMark, blockMark])
    | block isBody' next =>
      obtain ⟨rfl, rfl⟩ := eq_of_first_endMark (List.append_cancel_left hs) isBody isBody'
      obtain ⟨rfl, rfl⟩ := ih next
      exact ⟨rfl, rfl⟩
    | unclosed isBody' =>
      rw [← List.append_cancel_left hs] at isBody'
      exact absurd ⟨body, s, by simp⟩ isBody'
  | @unclosed body isBody =>
    generalize hs : blockMark ++ body = t at h'
    cases h' with
    | nil => exact absurd hs (by simp [blockMark])
    | code isCode => exact absurd (hs ▸ List.prefix_append _ _) isCode.2
    | line => exact absurd hs (by simp [lineMark, blockMark])
    | @block body' s' =>
      rw [List.append_cancel_left hs] at isBody
      exact absurd ⟨body', s', by simp⟩ isBody
    | unclosed =>
      obtain rfl := List.append_cancel_left hs
      exact ⟨rfl, rfl⟩

/-! ### Stripping follows the reading -/

/-- What is read in a sequence that starts inside a block comment. -/
def ReadsInside (s o : List (Option Char)) (isOpen : Bool) : Prop :=
  (∃ body rest out, s = body ++ (endMark ++ rest) ∧ o = erased (body ++ endMark) ++ out ∧
    ¬endMark <:+: body ++ [some '*'] ∧ Reads rest out isOpen) ∨
  (¬endMark <:+: s ∧ o = erased s ∧ isOpen = true)

/-- What is read in a sequence that starts inside a block comment if `inBlock` says so. -/
def ReadsFrom (inBlock : Bool) (s o : List (Option Char)) (isOpen : Bool) : Prop :=
  if inBlock then ReadsInside s o isOpen else Reads s o isOpen

/-- A character inside a block comment. -/
lemma ReadsInside.cons {c : Option Char} (hc : ¬endMark <+: c :: s) (h : ReadsInside s o isOpen) :
    ReadsInside (c :: s) (c.map (fun _ => ' ') :: o) isOpen := by
  rcases h with ⟨body, rest, out, rfl, rfl, hbody, hrest⟩ | ⟨hbody, rfl, rfl⟩
  · refine .inl ⟨c :: body, rest, out, rfl, rfl, ?_, hrest⟩
    rw [List.cons_append, List.infix_cons_iff, not_or]
    refine ⟨fun hmark => hc ?_, hbody⟩
    -- the mark would lie in the body, or be the first two characters of the end
    cases body with
    | nil => exact absurd hmark (by simp [endMark])
    | cons d body =>
      rw [endMark, List.cons_append, List.cons_prefix_cons, List.cons_prefix_cons] at hmark
      rw [endMark, List.cons_append, List.cons_prefix_cons, List.cons_prefix_cons]
      exact ⟨hmark.1, hmark.2.1, List.nil_prefix⟩
  · refine .inr ⟨?_, rfl, rfl⟩
    rw [List.infix_cons_iff, not_or]
    exact ⟨hc, hbody⟩

/-- The end of a block comment. -/
lemma ReadsInside.of_reads (h : Reads s o isOpen) :
    ReadsInside (some '*' :: some '/' :: s) (some ' ' :: some ' ' :: o) isOpen :=
  .inl ⟨[], s, o, rfl, rfl, by decide, h⟩

/-- The start of a block comment. -/
lemma Reads.of_readsInside (h : ReadsInside s o isOpen) :
    Reads (some '/' :: some '*' :: s) (some ' ' :: some ' ' :: o) isOpen := by
  rcases h with ⟨body, rest, out, rfl, rfl, hbody, hrest⟩ | ⟨hbody, rfl, rfl⟩
  · have hread := Reads.block hbody hrest
    rw [erased, List.map_append, List.append_assoc] at hread
    exact hread
  · exact Reads.unclosed hbody

/-- The end of a line. -/
lemma ReadsFrom.lineEnd {inBlock : Bool} (h : ReadsFrom inBlock s o isOpen) :
    ReadsFrom inBlock (none :: s) (none :: o) isOpen := by
  cases inBlock with
  | true => exact ReadsInside.cons (by simp [endMark]) h
  | false => exact Reads.code (by simp [lineMark, blockMark]) h

/-- **A line is blanked as it is read.** -/
lemma readsFrom_blankLine (inBlock : Bool) (l : Text)
    (h : ReadsFrom (blankLine inBlock l).2 s o isOpen) :
    ReadsFrom inBlock (l.map some ++ none :: s) ((blankLine inBlock l).1.map some ++ none :: o)
      isOpen := by
  fun_induction hasLineComment inBlock l with
  | case1 c d l hmark ih =>
    rw [blankLine_close hmark] at h ⊢
    obtain ⟨rfl, rfl⟩ := hmark
    exact ReadsInside.of_reads (ih h)
  | case2 c d l hmark ih =>
    rw [blankLine_inside hmark] at h ⊢
    refine ReadsInside.cons ?_ (ih h)
    simpa [endMark] using fun hc hd => hmark ⟨hc.symm, hd.symm⟩
  | case3 inBlock c d l hblock hline =>
    rw [Bool.not_eq_true] at hblock
    subst hblock
    rw [blankLine_line hline] at h ⊢
    obtain ⟨rfl, rfl⟩ := hline
    have hbody : none ∉ l.map some := by simp
    exact Reads.line hbody h.lineEnd
  | case4 inBlock c d l hblock hline hopen ih =>
    rw [Bool.not_eq_true] at hblock
    subst hblock
    rw [blankLine_open hopen] at h ⊢
    obtain ⟨rfl, rfl⟩ := hopen
    exact Reads.of_readsInside (ih h)
  | case5 inBlock c d l hblock hline hopen ih =>
    rw [Bool.not_eq_true] at hblock
    subst hblock
    rw [blankLine_code hline hopen] at h ⊢
    refine Reads.code ⟨?_, ?_⟩ (ih h)
    · simpa [lineMark] using fun hc hd => hline ⟨hc.symm, hd.symm⟩
    · simpa [blockMark] using fun hc hd => hopen ⟨hc.symm, hd.symm⟩
  | case6 l inBlock hshort =>
    rcases eq_nil_or_singleton hshort with rfl | ⟨c, rfl⟩
    · exact h.lineEnd
    · cases inBlock with
      | true => exact ReadsInside.cons (by simp [endMark]) h.lineEnd
      | false => exact Reads.code (by simp [lineMark, blockMark]) h.lineEnd

/-- **Lines are blanked as they are read.** -/
lemma readsFrom_stream (inBlock : Bool) (ls : List Text) :
    ReadsFrom inBlock (stream ls) (stream (blankFrom inBlock ls)) (isOpenAfter inBlock ls) := by
  induction ls generalizing inBlock with
  | nil =>
    cases inBlock with
    | true => exact .inr ⟨by decide, rfl, rfl⟩
    | false => exact Reads.nil
  | cons l ls ih =>
    rw [stream_cons, blankFrom, stream_cons, isOpenAfter]
    exact readsFrom_blankLine inBlock l (ih _)

/-- The reading of a source: its comments blanked, and whether one is open at its end. -/
lemma reads_stream (ls : List Text) :
    Reads (stream ls) (stream (blankFrom false ls)) (isOpenAfter false ls) :=
  readsFrom_stream false ls

/-! ### Columns -/

/-- A column of a blanked line holds its own character or a space. -/
lemma getElem?_blankLine {inBlock : Bool} {l : Text} {k : Nat} {c : Char}
    (h : (blankLine inBlock l).1[k]? = some c) : c = ' ' ∨ l[k]? = some c := by
  fun_induction hasLineComment inBlock l generalizing k with
  | case1 a b l hmark ih =>
    rw [blankLine_close hmark] at h
    rcases k with _ | _ | k
    · exact .inl (Option.some.inj h).symm
    · exact .inl (Option.some.inj h).symm
    · exact ih h
  | case2 a b l hmark ih =>
    rw [blankLine_inside hmark] at h
    cases k with
    | zero => exact .inl (Option.some.inj h).symm
    | succ k => exact ih h
  | case3 inBlock a b l hblock hline =>
    rw [Bool.not_eq_true] at hblock
    rw [hblock, blankLine_line hline] at h
    exact absurd h (by simp)
  | case4 inBlock a b l hblock hline hopen ih =>
    rw [Bool.not_eq_true] at hblock
    rw [hblock, blankLine_open hopen] at h
    rcases k with _ | _ | k
    · exact .inl (Option.some.inj h).symm
    · exact .inl (Option.some.inj h).symm
    · exact ih h
  | case5 inBlock a b l hblock hline hopen ih =>
    rw [Bool.not_eq_true] at hblock
    subst hblock
    rw [blankLine_code hline hopen] at h
    cases k with
    | zero => exact .inr h
    | succ k => exact ih h
  | case6 l inBlock hshort =>
    rcases eq_nil_or_singleton hshort with rfl | ⟨a, rfl⟩
    · exact absurd h (by simp [blankLine])
    · cases inBlock with
      | true =>
        cases k with
        | zero => exact .inl (Option.some.inj h).symm
        | succ k => exact absurd h (by simp [blankLine])
      | false => exact .inr h

/-- A line of the code is not longer than the line it comes from, and a column of it holds the
character of that line or a space. -/
lemma getElem?_stripFrom {inBlock : Bool} {ls : List Text} {i : Nat} {l code : Text}
    (hl : ls[i]? = some l) (hcode : (stripFrom inBlock ls)[i]? = some code) :
    code.length ≤ l.length ∧ ∀ (k : Nat) (c : Char), code[k]? = some c → c = ' ' ∨
      l[k]? = some c := by
  induction ls generalizing inBlock i with
  | nil => exact absurd hl (by simp)
  | cons x ls ih =>
    cases i with
    | succ i => exact ih hl hcode
    | zero =>
      obtain rfl : x = l := Option.some.inj hl
      obtain rfl : Text.trimRight (blankLine inBlock x).1 = code := Option.some.inj hcode
      refine ⟨?_, fun k c hc => getElem?_blankLine (getElem?_of_trimRight hc)⟩
      obtain ⟨g, -, hsplit⟩ := Text.exists_trimRight_append (blankLine inBlock x).1
      have hlength := congrArg List.length hsplit
      rw [List.length_append] at hlength
      have hle := length_blankLine_le inBlock x
      omega

/-! ### Nothing is left to strip -/

/-- A character in front of a text without comments that opens none with the next one. -/
lemma isFree_cons {c : Char} {t : Text} (hc : ∀ d ∈ t.head?, opens c d = false)
    (ht : isFree t = true) : isFree (c :: t) = true := by
  cases t with
  | nil => rfl
  | cons d t =>
    rw [isFree, hc d rfl, ht]
    rfl

/-- The front of a text without comments has none. -/
lemma isFree_of_append {s t : Text} (h : isFree (s ++ t) = true) : isFree s = true := by
  induction s with
  | nil => rfl
  | cons c s ih =>
    rw [List.cons_append] at h
    obtain ⟨hc, hs⟩ := isFree_of_cons h
    refine isFree_cons (fun d hd => hc d ?_) (ih hs)
    rw [Option.mem_def] at hd ⊢
    rw [List.head?_append, hd]
    rfl

/-- No comment opens in a text without comments. -/
lemma not_infix_of_isFree {t : Text} (h : isFree t = true) :
    ¬['/', '/'] <:+: t ∧ ¬['/', '*'] <:+: t := by
  induction t with
  | nil => decide
  | cons c t ih =>
    obtain ⟨hc, ht⟩ := isFree_of_cons h
    -- a mark at the start would be the first two characters
    have hstart : ∀ d, opens '/' d = true → ¬['/', d] <+: c :: t := by
      intro d hd hmark
      obtain ⟨rfl, rest, rfl⟩ := List.cons_prefix_cons.mp hmark
      rw [hc d rfl] at hd
      exact absurd hd (by decide)
    rw [List.infix_cons_iff, List.infix_cons_iff, not_or, not_or]
    exact ⟨⟨hstart '/' rfl, (ih ht).1⟩, ⟨hstart '*' rfl, (ih ht).2⟩⟩

/-- **No comment opens in a blanked line.** -/
lemma isFree_blankLine (inBlock : Bool) (l : Text) : isFree (blankLine inBlock l).1 = true := by
  have hspace : ∀ {t : Text}, isFree t = true → isFree (' ' :: t) = true :=
    fun ht => isFree_cons (fun d _ => rfl) ht
  fun_induction hasLineComment inBlock l with
  | case1 c d l hmark ih =>
    rw [blankLine_close hmark]
    exact hspace (hspace ih)
  | case2 c d l hmark ih =>
    rw [blankLine_inside hmark]
    exact hspace ih
  | case3 inBlock c d l hblock hline =>
    rw [Bool.not_eq_true] at hblock
    rw [hblock, blankLine_line hline]
    rfl
  | case4 inBlock c d l hblock hline hopen ih =>
    rw [Bool.not_eq_true] at hblock
    rw [hblock, blankLine_open hopen]
    exact hspace (hspace ih)
  | case5 inBlock c d l hblock hline hopen ih =>
    rw [Bool.not_eq_true] at hblock
    subst hblock
    rw [blankLine_code hline hopen]
    refine isFree_cons (fun x hx => ?_) ih
    -- the next column holds a space or the next character, which opens no comment with this one
    rw [List.head?_eq_getElem?] at hx
    rcases getElem?_blankLine hx with rfl | hx
    · simp [opens]
    · obtain rfl : d = x := Option.some.inj hx
      simp only [opens, Bool.and_eq_false_iff, Bool.or_eq_false_iff, beq_eq_false_iff_ne]
      tauto
  | case6 l inBlock hshort =>
    rcases eq_nil_or_singleton hshort with rfl | ⟨c, rfl⟩
    · rfl
    · rfl

/-- No comment opens in the code of lines, and the code is trimmed. -/
lemma isFree_of_mem_stripFrom {inBlock : Bool} {ls : List Text} {code : Text}
    (h : code ∈ stripFrom inBlock ls) : isFree code = true ∧ Text.trimRight code = code := by
  induction ls generalizing inBlock with
  | nil => exact absurd h List.not_mem_nil
  | cons l ls ih =>
    rw [stripFrom] at h
    rcases List.mem_cons.mp h with rfl | h
    · obtain ⟨g, -, hsplit⟩ := Text.exists_trimRight_append (blankLine inBlock l).1
      exact ⟨isFree_of_append (hsplit ▸ isFree_blankLine inBlock l),
        Text.trimRight_of_getLast? (Text.getLast?_trimRight _)⟩
    · exact ih h

/-- **Stripping again changes nothing.** -/
lemma strip_strip (ls : List Text) : strip (strip ls) = strip ls := by
  have hfree : ∀ code ∈ strip ls, isFree code = true ∧ Text.trimRight code = code :=
    fun code hcode => isFree_of_mem_stripFrom hcode
  rw [strip_of_isFree fun code hcode => (hfree code hcode).1]
  exact (List.map_congr_left fun code hcode => (hfree code hcode).2).trans (List.map_id _)

end Comment

/-! ### Comments do not count -/

section Analysis

variable (lines : List Text)

/-- The functions of a source are those of its code. -/
lemma Outline.functions_strip (config : Config) :
    functions config (Comment.strip lines) = functions config lines := by
  rw [functions, Comment.strip_strip, functions]

/-- The loops of a source are those of its code. -/
lemma Loop.find_strip (start : Nat) : find (Comment.strip lines) start = find lines start := by
  rw [find, Comment.strip_strip, find]

/-- A statement of a source is classified as it is in the code. -/
lemma Target.classify_strip (config : Config) (kinds : List Statement.Kind) (line : Int)
    (function : Option Signature) :
    classify config kinds (Comment.strip lines) line none function =
      classify config kinds lines line none function := by
  have hrange : inRange (Comment.strip lines) line = inRange lines line := by
    rw [inRange, Comment.length_strip, inRange]
  have hmeant : resolve (Comment.strip lines) line none = resolve lines line none := by
    rw [resolve, resolve, Option.map_none]
    dsimp only
    rw [inRange?, hrange, inRange?]
  unfold classify
  rw [hmeant, Comment.strip_strip]

/-- A return statement of a source is the one of the code. -/
lemma ReturnStatement.find_strip (max line : Int) :
    find max (Comment.strip lines) line = find max lines line := by
  rw [find, Comment.length_strip, Comment.strip_strip, find]

/-- A statement of a source ends where it ends in the code. -/
lemma Statement.endAt_strip (max line : Int) :
    endAt max (Comment.strip lines) line = endAt max lines line := by
  rw [endAt, Comment.length_strip, Comment.strip_strip, endAt]

end Analysis

/-- **Stripping blanks exactly the comments and is done once.**  The lines keep their number; the
code is what the one reading of the lines makes of them, trimmed on the right; a column of it holds
the character of the source or a space; no comment opens in it, and stripping it again changes
nothing. So functions, loops, classifications, return statements and ends of statements are those of
the code. -/
theorem Comment.reads_and_strip_strip (lines : List Text) :
    (strip lines).length = lines.length ∧
    (∃ code : List Text, (∀ o, (∃ isOpen, Reads (stream lines) o isOpen) ↔ o = stream code) ∧
      strip lines = code.map Text.trimRight) ∧
    (∀ (i : Nat) (l code : Text), lines[i]? = some l → (strip lines)[i]? = some code →
      code.length ≤ l.length ∧
        ∀ (k : Nat) (c : Char), code[k]? = some c → c = ' ' ∨ l[k]? = some c) ∧
    (∀ code ∈ strip lines, ¬['/', '/'] <:+: code ∧ ¬['/', '*'] <:+: code) ∧
    strip (strip lines) = strip lines ∧
    (∀ config, Outline.functions config (strip lines) = Outline.functions config lines) ∧
    (∀ start, Loop.find (strip lines) start = Loop.find lines start) ∧
    (∀ config kinds line function,
      Target.classify config kinds (strip lines) line none function =
        Target.classify config kinds lines line none function) ∧
    (∀ max line, ReturnStatement.find max (strip lines) line =
      ReturnStatement.find max lines line) ∧
    ∀ max line, Statement.endAt max (strip lines) line = Statement.endAt max lines line := by
  refine ⟨length_strip lines, ⟨blankFrom false lines, fun o => ⟨?_, ?_⟩, stripFrom_eq false lines⟩,
    fun i l code => getElem?_stripFrom, fun code hcode => ?_, strip_strip lines,
    Outline.functions_strip lines, Loop.find_strip lines, Target.classify_strip lines,
    ReturnStatement.find_strip lines, Statement.endAt_strip lines⟩
  · rintro ⟨isOpen, hread⟩
    exact (hread.unique (reads_stream lines)).1
  · rintro rfl
    exact ⟨_, reads_stream lines⟩
  · exact not_infix_of_isFree (isFree_of_mem_stripFrom hcode).1

/-- Lines in which marks of comments overlap. -/
def Comment.tangled : List Text := ["a /*/ b */ c //* d", "e /* f // g", "*//* h */ i"]

/-- A `/*/` opens a block comment and does not close it, a `//` inside of a block is no mark, and
the `*/` that closes the block is not read again with the `/` behind it. -/
theorem Comment.reads_and_strip_strip_tangled :
    strip tangled = (["a          c", "e", "          i"] : List Text) ∧
    (∃ code : List Text, (∀ o, (∃ isOpen, Reads (stream tangled) o isOpen) ↔ o = stream code) ∧
      strip tangled = code.map Text.trimRight) ∧
    (∀ (k : Nat) (c : Char), ("          i" : Text)[k]? = some c →
      c = ' ' ∨ ("*//* h */ i" : Text)[k]? = some c) ∧
    ¬['/', '/'] <:+: ("          i" : Text) ∧ strip (strip tangled) = strip tangled := by
  have hcode : strip tangled = (["a          c", "e", "          i"] : List Text) := by decide
  obtain ⟨-, hread, hcolumns, hfree, hagain, -⟩ := reads_and_strip_strip tangled
  refine ⟨hcode, hread, (hcolumns 2 _ _ rfl (by rw [hcode]; rfl)).2, (hfree _ ?_).1, hagain⟩
  rw [hcode]
  simp

end ShaderProbe
