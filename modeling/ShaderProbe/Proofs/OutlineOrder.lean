import Mathlib
import ShaderProbe.Proofs.FunctionHeader
import ShaderProbe.Proofs.Matching

/-!
# The functions of an outline

The search for functions goes on behind the end of each one that it finds, so the functions follow
each other (`Outline.pairwise_functions`), and the search for the function around a line may stop at
the first one that starts behind the line (`Outline.enclosingIn?_eq_some_iff`).

Each function starts with a header on its first line.  Its list of parameters closes at the matching
parenthesis, its body opens at the next character that is not blank, and it ends at the brace that
matches (`Outline.isLaidOut_of_mem_functions`).  All of this holds of any text, also of one that
closes more than it opens or never closes what it opens.
-/

namespace ShaderProbe

/-- The text reads as the header up to its parenthesis, a list in parentheses, blanks, the brace
that opens the body, and a piece of the body. -/
def Header.OpensBody (header : Header) (body text : Text) : Prop :=
  ∃ group gap : Text, Text.isBalanced group = true ∧ Text.isBlankOnly gap = true ∧
    text = header.front ++ '(' :: (group ++ ')' :: (gap ++ '{' :: body))

namespace Outline

variable {config : Config} {code : List Text} {line : Nat} {f : Signature}

/-- The function stands in the code with its header and its body.  The body is what is kept open up
to the brace on the last line of the function; without such a brace it is all that follows. -/
structure IsLaidOut (code : List Text) (f : Signature) (header : Header) : Prop where
  line : code[f.startLine]? = some header.text
  isWellFormed : header.IsWellFormed
  isFunction : header.isFunction = true
  names : f.name = header.name ∧ f.returnType = header.returnType
  isOpen : f.endLine = none →
    ∃ body, header.OpensBody body (Text.ofLines (code.drop f.startLine)) ∧ Text.KeepsOpen body
  isClosed : ∀ last, f.endLine = some last → ∃ column front body tail,
    (⟨last, column⟩ : Position).Cuts code f.startLine front ('}' :: tail) ∧
    header.OpensBody body front ∧ Text.KeepsOpen body ∧ Text.braceDelta body = 0

/-! ### One function -/

/-- The body of a function opens behind its list of parameters. -/
lemma exists_of_bodyBrace? {u : Text} {n : Nat} (h : bodyBrace? ('(' :: u) = some n) :
    ∃ group gap rest, u = group ++ ')' :: (gap ++ '{' :: rest) ∧ Text.isBalanced group = true ∧
      Text.isBlankOnly gap = true ∧ n = ('(' :: (group ++ ')' :: gap)).length := by
  obtain ⟨close, hclose, h⟩ := Option.bind_eq_some_iff.mp h
  obtain ⟨group, after, rfl, rfl, hbalanced⟩ := Text.closingParen?_eq_some_iff.mp hclose
  have hdrop : ('(' :: (group ++ ')' :: after)).drop (group.length + 1 + 1) = after := by
    rw [List.drop_succ_cons, ← List.singleton_append, ← List.append_assoc,
      List.drop_left' (by simp)]
  rw [hdrop] at h
  obtain ⟨hhead, rfl⟩ := Option.ite_some_none_eq_some.mp h
  obtain ⟨rest, hrest⟩ := List.head?_eq_some_iff.mp hhead
  refine ⟨group, Text.indent after, rest, ?_, hbalanced, Text.isBlankOnly_indent after, ?_⟩
  · rw [← hrest, Text.indent_append_trimLeft]
  · simp only [List.length_cons, List.length_append]
    omega

/-- A function that is read at a line has the header of the line. -/
lemma names_of_ofCode? {endLine : Option Nat} {header : Header} {l : Text}
    (hl : code[line]? = some l) (hheader : Header.read? l = some header)
    (h : Signature.ofCode? config code line endLine = some f) :
    f.name = header.name ∧ f.returnType = header.returnType := by
  unfold Signature.ofCode? at h
  rw [hl, Option.bind_eq_bind, Option.bind_some, hheader, Option.bind_eq_bind,
    Option.bind_some] at h
  split at h
  · obtain ⟨list, -, h⟩ := Option.bind_eq_some_iff.mp h
    obtain rfl := Option.some.inj h
    exact ⟨rfl, rfl⟩
  · exact absurd h (by simp)

/-- The text of the lines from a header on is the header and what follows it. -/
lemma ofLines_cons_front (header : Header) (hrest : header.rest.head? = some '(')
    (more : List Text) :
    ∃ u, Text.ofLines (header.text :: more) = header.front ++ '(' :: u := by
  obtain ⟨tail, htail⟩ := List.head?_eq_some_iff.mp hrest
  cases more with
  | nil => exact ⟨tail, by rw [Text.ofLines_singleton, Header.text_eq, htail]⟩
  | cons l more =>
    refine ⟨tail ++ '\n' :: Text.ofLines (l :: more), ?_⟩
    rw [Text.ofLines_cons_cons, Header.text_eq, htail]
    simp

/-- A function that is found at a line has its header there, and ends where its body is closed. -/
lemma exists_of_functionAt? (h : functionAt? config code line (code.drop line) = some f) :
    ∃ (header : Header) (front rest : Text), code[line]? = some header.text ∧ header.IsWellFormed ∧
      header.isFunction = true ∧ (f.name = header.name ∧ f.returnType = header.returnType) ∧
      f.startLine = line ∧ Text.ofLines (code.drop line) = front ++ '{' :: rest ∧
      (∀ body, header.OpensBody body (front ++ '{' :: body)) ∧
      f.endLine = (Text.closingBrace? ('{' :: rest)).map fun close =>
        ((⟨code.drop line, line⟩ : FlatText).locate (front.length + close)).line := by
  unfold functionAt? at h
  simp only [Option.bind_eq_bind, Option.bind_eq_some_iff] at h
  obtain ⟨l, hl, header, hheader, h⟩ := h
  rw [List.head?_drop] at hl
  split at h
  · rename_i hfunction
    obtain ⟨offset, hbody, h⟩ := Option.bind_eq_some_iff.mp h
    obtain ⟨hstart, hend⟩ := Signature.lines_of_ofCode? h
    have hnames := names_of_ofCode? hl hheader h
    obtain ⟨rfl, hwell⟩ := Header.read?_eq_some_iff.mp hheader
    -- the code from the header on is read piece by piece
    obtain ⟨u, hu⟩ := ofLines_cons_front header hwell.rest (code.drop (line + 1))
    obtain ⟨hlt, hget⟩ := List.getElem?_eq_some_iff.mp hl
    rw [← hget, ← List.drop_eq_getElem_cons hlt] at hu
    have hflat : (⟨code.drop line, line⟩ : FlatText).text = header.front ++ '(' :: u := hu
    rw [hflat, Header.parenColumn_eq, List.drop_left' rfl] at hbody
    obtain ⟨group, gap, rest, rfl, hbalanced, hgap, rfl⟩ := exists_of_bodyBrace? hbody
    have hsplit : ∀ body, (header.front ++ '(' :: (group ++ ')' :: gap)) ++ '{' :: body =
        header.front ++ '(' :: (group ++ ')' :: (gap ++ '{' :: body)) := by
      intro body
      simp
    have hlength : header.parenColumn + ('(' :: (group ++ ')' :: gap)).length =
        (header.front ++ '(' :: (group ++ ')' :: gap)).length := by
      rw [Header.parenColumn_eq, List.length_append]
    refine ⟨header, header.front ++ '(' :: (group ++ ')' :: gap), rest, hl, hwell, hfunction, hnames,
      hstart, by rw [hu, hsplit], fun body => ⟨group, gap, hbalanced, hgap, hsplit body⟩, ?_⟩
    rw [hend, hlength, hflat, ← hsplit, List.drop_left' rfl]
  · exact absurd h (by simp)

/-- **A function that is found at a line is laid out there.** -/
theorem exists_isLaidOut (h : functionAt? config code line (code.drop line) = some f) :
    ∃ header, IsLaidOut code f header := by
  obtain ⟨header, front, rest, hl, hwell, hfunction, hnames, rfl, htext, hopens, hend⟩ :=
    exists_of_functionAt? h
  refine ⟨header, hl, hwell, hfunction, hnames, fun hnone => ?_, fun last hlast => ?_⟩
  · rw [hend, Option.map_eq_none_iff] at hnone
    exact ⟨rest, by rw [htext]; exact hopens rest, Text.closingBrace?_eq_none_iff.mp hnone⟩
  · rw [hend, Option.map_eq_some_iff] at hlast
    obtain ⟨close, hclose, rfl⟩ := hlast
    obtain ⟨body, tail, rfl, rfl, hopen, hcount⟩ := Text.closingBrace?_eq_some_iff.mp hclose
    have hwhole : Text.ofLines (code.drop f.startLine) = (front ++ '{' :: body) ++ '}' :: tail := by
      rw [htext]
      simp
    have hoffset : front.length + (body.length + 1) = (front ++ '{' :: body).length := by simp
    have hbrace : (Text.ofLines (code.drop f.startLine))[(front ++ '{' :: body).length]? =
        some '}' := by
      rw [hwhole, List.getElem?_append_right le_rfl, Nat.sub_self]
      rfl
    have hcuts := FlatText.cuts_locate hbrace (by decide)
    rw [hwhole, List.take_left' rfl, List.drop_left' rfl] at hcuts
    rw [hoffset]
    exact ⟨_, _, body, tail, hcuts, hopens body, hopen, hcount⟩

/-! ### The search -/

/-- A function ends in front of the start of another one. -/
def Precedes (f g : Signature) : Prop :=
  ∃ last, f.endLine = some last ∧ f.startLine ≤ last ∧ last < g.startLine

/-- **What the search finds from a line on**: functions that start behind the lines to be skipped,
each in front of the next, and each the function of its first line. -/
theorem functionsFrom_spec (rest : List Text) : ∀ (line depth skip : Nat), rest = code.drop line →
    (functionsFrom config code line depth skip rest).Pairwise Precedes ∧
      ∀ f ∈ functionsFrom config code line depth skip rest, line + skip ≤ f.startLine ∧
        functionAt? config code f.startLine (code.drop f.startLine) = some f := by
  induction rest with
  | nil => exact fun line depth skip _ => ⟨.nil, fun f hf => absurd hf List.not_mem_nil⟩
  | cons l ls ih =>
    intro line depth skip hrest
    have hnext : ls = code.drop (line + 1) := by
      rw [← List.drop_drop, ← hrest]
      rfl
    cases skip with
    | succ skip =>
      obtain ⟨hpairs, hmem⟩ := ih (line + 1) depth skip hnext
      refine ⟨hpairs, fun f hf => ?_⟩
      obtain ⟨hle, hat⟩ := hmem f hf
      exact ⟨by omega, hat⟩
    | zero =>
      rw [functionsFrom]
      split
      · obtain ⟨hpairs, hmem⟩ :=
          ih (line + 1) ((depth : Int) + Text.braceDelta l).toNat 0 hnext
        refine ⟨hpairs, fun f hf => ?_⟩
        obtain ⟨hle, hat⟩ := hmem f hf
        exact ⟨by omega, hat⟩
      · rename_i f hf
        have hfunction : functionAt? config code line (code.drop line) = some f := by
          rw [← hrest]
          split at hf
          · exact hf
          · exact absurd hf (by simp)
        have hstart : f.startLine = line := by
          obtain ⟨header, front, rest, -, -, -, -, hstart, -⟩ := exists_of_functionAt? hfunction
          exact hstart
        have hat : functionAt? config code f.startLine (code.drop f.startLine) = some f := by
          rw [hstart]
          exact hfunction
        split
        · refine ⟨List.pairwise_singleton _ _, fun g hg => ?_⟩
          rw [List.mem_singleton.mp hg]
          exact ⟨hstart.ge, hat⟩
        · rename_i last hlast
          have hle := startLine_le_of_functionAt? hfunction hlast
          obtain ⟨hpairs, hmem⟩ := ih (line + 1) depth (last - line) hnext
          refine ⟨List.pairwise_cons.mpr ⟨fun g hg => ?_, hpairs⟩, fun g hg => ?_⟩
          · have hbehind := (hmem g hg).1
            exact ⟨last, hlast, hle, by omega⟩
          · rcases List.mem_cons.mp hg with rfl | hg
            · exact ⟨hstart.ge, hat⟩
            · obtain ⟨hbehind, hat⟩ := hmem g hg
              exact ⟨by omega, hat⟩

/-- **The functions of a source follow each other.** -/
theorem pairwise_functions (config : Config) (lines : List Text) :
    (functions config lines).Pairwise Precedes :=
  (functionsFrom_spec _ 0 0 0 rfl).1

/-- **The functions of a source are laid out in its code.** -/
theorem isLaidOut_of_mem_functions {lines : List Text} (h : f ∈ functions config lines) :
    ∃ header, IsLaidOut (Comment.strip lines) f header :=
  exists_isLaidOut ((functionsFrom_spec _ 0 0 0 rfl).2 f h).2

/-- The line lies between the first and the last line of the function, in a text of `count` lines.
-/
def Reaches (count : Nat) (line : Int) (f : Signature) : Prop :=
  (f.startLine : Int) ≤ line ∧ line ≤ f.lastLine count

/-- Of functions that follow each other only one reaches over a line. -/
lemma Precedes.not_reaches {count : Nat} {line : Int} {g : Signature} (h : Precedes f g)
    (hg : Reaches count line g) : ¬Reaches count line f := by
  obtain ⟨last, hlast, -, hlt⟩ := h
  rintro ⟨-, hle⟩
  unfold Signature.lastLine at hle
  rw [hlast] at hle
  have hstart := hg.1
  dsimp only at hle
  omega

/-- **The search for the function around a line misses none**, since behind a function that starts
too late there are only such functions. -/
theorem enclosingIn?_eq_some_iff {count : Nat} {line : Int} {fs : List Signature}
    (hpairs : fs.Pairwise Precedes) :
    enclosingIn? count line fs = some f ↔ f ∈ fs ∧ Reaches count line f := by
  induction fs with
  | nil => simp [enclosingIn?]
  | cons g fs ih =>
    obtain ⟨hfirst, hrest⟩ := List.pairwise_cons.mp hpairs
    rw [enclosingIn?]
    split
    · rename_i hreach
      constructor
      · intro h
        obtain rfl := Option.some.inj h
        exact ⟨List.mem_cons_self, hreach⟩
      · rintro ⟨hmem, hf⟩
        rcases List.mem_cons.mp hmem with rfl | hmem
        · rfl
        · exact absurd hreach ((hfirst f hmem).not_reaches hf)
    · rename_i hreach
      split
      · rename_i hlate
        refine iff_of_false (by simp) ?_
        rintro ⟨hmem, hf⟩
        rcases List.mem_cons.mp hmem with rfl | hmem
        · exact hreach hf
        · obtain ⟨last, -, hle, hlt⟩ := hfirst f hmem
          have hstart := hf.1
          omega
      · rw [ih hrest, List.mem_cons, or_and_right]
        refine ⟨.inr, fun h => h.resolve_left ?_⟩
        rintro ⟨rfl, hf⟩
        exact hreach hf

/-- A function with an end ends on a line of the text, not in front of its first line. -/
lemma endLine_bounds {lines : List Text} (h : f ∈ functions config lines) :
    ∀ last ∈ f.endLine, f.startLine ≤ last ∧ last < lines.length := by
  intro last hlast
  obtain ⟨header, hlaid⟩ := isLaidOut_of_mem_functions h
  obtain ⟨column, front, body, tail, ⟨-, l, hl, -⟩, -⟩ := hlaid.isClosed last hlast
  have hlt := (List.getElem?_eq_some_iff.mp hl).1
  rw [Comment.length_strip] at hlt
  exact ⟨startLine_le_endLine h hlast, hlt⟩

/-- **Functions are disjoint, ordered and found by their lines.**  In any lines, each function ends
in front of the next one, so only the last one may lack an end; each is laid out in the code, with
its end on the line of the brace that matches the opening one; and the function around a line is the
one that reaches over it, if there is one. -/
theorem functions_and_enclosing (config : Config) (lines : List Text) :
    (functions config lines).Pairwise Precedes ∧
    (∀ f ∈ functions config lines, (∃ header, IsLaidOut (Comment.strip lines) f header) ∧
      ∀ last ∈ f.endLine, f.startLine ≤ last ∧ last < lines.length) ∧
    ∀ line : Int,
      (∀ f, enclosing? config lines line = some f ↔
        f ∈ functions config lines ∧ Reaches lines.length line f) ∧
      (enclosing? config lines line = none ↔
        ∀ f ∈ functions config lines, ¬Reaches lines.length line f) := by
  have hpairs := pairwise_functions config lines
  refine ⟨hpairs, fun f hf => ⟨isLaidOut_of_mem_functions hf, endLine_bounds hf⟩, fun line => ?_⟩
  have hfound : ∀ f, enclosing? config lines line = some f ↔
      f ∈ functions config lines ∧ Reaches lines.length line f :=
    fun f => enclosingIn?_eq_some_iff hpairs
  refine ⟨hfound, ?_⟩
  rw [Option.eq_none_iff_forall_ne_some]
  refine forall_congr' fun f => ?_
  rw [Ne, hfound f, not_and]

/-- A function, and one with a header over two lines that never ends. -/
def unclosedLines : List Text :=
  ["float f() \x7b", "  return 1.0; // \x7d", "\x7d", "", "void g(", "  ) \x7b", "  if (true) \x7b",
    "  \x7d"]

/-- The function that ends. -/
def closedFunction : Signature :=
  { name := "f", returnType := "float", startLine := 0, endLine := some 2 }

/-- The function that never ends. -/
def unclosedFunction : Signature :=
  { name := "g", returnType := "void", startLine := 4 }

theorem functions_and_enclosing_unclosed :
    functions {} unclosedLines = [closedFunction, unclosedFunction] ∧
      (∃ header, IsLaidOut (Comment.strip unclosedLines) closedFunction header) ∧
      enclosing? {} unclosedLines 2 = some closedFunction ∧
      enclosing? {} unclosedLines 7 = some unclosedFunction ∧
      enclosing? {} unclosedLines 3 = none ∧ enclosing? {} unclosedLines (-1) = none := by
  obtain ⟨-, hlaid, hfound⟩ := functions_and_enclosing {} unclosedLines
  have hfunctions : functions {} unclosedLines = [closedFunction, unclosedFunction] := by
    decide +kernel
  rw [hfunctions] at hlaid hfound
  have hnone : ∀ line : Int, (line < 0 ∨ line = 3) → enclosing? {} unclosedLines line = none := by
    intro line hline
    refine (hfound line).2.mpr fun f hf => ?_
    rcases (by simpa using hf : f = closedFunction ∨ f = unclosedFunction) with rfl | rfl
    · rintro ⟨hlow, hhigh⟩
      simp only [closedFunction, Signature.lastLine] at hlow hhigh
      omega
    · rintro ⟨hlow, -⟩
      simp only [unclosedFunction] at hlow
      omega
  refine ⟨hfunctions, (hlaid closedFunction (by simp)).1, ((hfound 2).1 _).mpr ⟨by simp, ?_⟩,
    ((hfound 7).1 _).mpr ⟨by simp, ?_⟩, hnone 3 (.inr rfl), hnone (-1) (.inl (by decide))⟩
  · exact ⟨by decide, by decide⟩
  · exact ⟨by decide, by decide⟩

end Outline

end ShaderProbe
