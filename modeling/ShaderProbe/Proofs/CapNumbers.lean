import Mathlib
import ShaderProbe.Proofs.ReadInScope

/-!
# Caps act on the loops they are numbered for

A loop cap names a loop by its number in the source, and is applied to a text that has been cut
behind the loops around the target and holds a shadow.  `Shadow.find_of_insert` says that the loops
around the target have the same numbers and headers there, that each stands where it stood, moved by
the declaration of the shadow, and that the cap with the number of a loop is put into that loop.

What a cap puts into its loop is said by the places of two edits (`Cap.ActsOn`).  Where capping is
known to take effect, the loop with the number counts its iterations and breaks (`Cap.IsCapped`);
the shadow leaves the conditions for that as they are (`Shadow.isClean_of_insert`,
`Shadow.areClosed_of_insert`).
-/

namespace ShaderProbe

namespace Cap

/-! ### The edits of one cap -/

variable {config : Config} {lines result : List Text} {start : Nat} {caps : Caps} {loop : Loop}
  {cap : Int} {edits : List Edit}

/-- The edit makes the guard the first statement of the body: right behind the opening brace, or on
a line of its own if no code follows the brace on its line.  A body without braces gets an opening
one in front of the guard. -/
def PutsGuard (config : Config) (lines : List Text) (loop : Loop) (cap : Int) (g : Edit) : Prop :=
  (∃ brace, loop.brace = some brace ∧
    (g = .inline brace.line (brace.column + 1) (" " ++ guard config loop cap) ∨
      ∃ indent code : Text, g = .lineAfter brace.line (indent ++ guard config loop cap) ∧
        (Comment.strip lines)[brace.line]? = some code ∧
        Text.isBlankOnly (code.drop (brace.column + 1)) = true)) ∨
    ∃ close, loop.brace = none ∧ loop.parenClose = some close ∧
      g = .inline close.line (close.column + 1) (" \x7b " ++ guard config loop cap)

/-- The cap acts on the loop: of the edits that are made, one declares the counter of the loop in
front of its keyword, and one guards its body. -/
def ActsOn (config : Config) (lines result : List Text) (loop : Loop) (cap : Int) : Prop :=
  ∃ edits : List Edit, result = Edit.apply edits lines ∧
    (∃ k, loop.keyword = some ⟨loop.headerLine, k⟩ ∧
      ∃ d ∈ edits, Shadow.Declares lines loop k (declaration config loop) d) ∧
    ∃ g ∈ edits, PutsGuard config lines loop cap g

/-- The edits of a loop with a cap are among those that are made. -/
lemma subset_of_editsFor {code : List Text} {loops : List Loop}
    (h : editsFor config lines code caps loops = .ok edits) (hloop : loop ∈ loops)
    (hcap : capOf? caps loop = some cap) :
    ∃ counter guard, counterEdits config lines code loop = .ok counter ∧
      guardEdits config lines code loop cap = .ok guard ∧ counter ++ guard ⊆ edits := by
  induction loops generalizing edits with
  | nil => exact absurd hloop List.not_mem_nil
  | cons first loops ih =>
    rw [editsFor] at h
    rcases List.mem_cons.mp hloop with rfl | hloop
    · rw [hcap] at h
      obtain ⟨counter, hcounter, h⟩ := bind_eq_ok_iff.mp h
      obtain ⟨guard, hguard, h⟩ := bind_eq_ok_iff.mp h
      obtain ⟨others, -, h⟩ := bind_eq_ok_iff.mp h
      obtain rfl := Except.ok.inj h
      exact ⟨counter, guard, hcounter, hguard, List.subset_append_left _ _⟩
    · split at h
      · exact ih h hloop
      · obtain ⟨own, -, h⟩ := bind_eq_ok_iff.mp h
        obtain ⟨own', -, h⟩ := bind_eq_ok_iff.mp h
        obtain ⟨others, hothers, h⟩ := bind_eq_ok_iff.mp h
        obtain rfl := Except.ok.inj h
        obtain ⟨counter, guard, hcounter, hguard, hsubset⟩ := ih hothers hloop
        exact ⟨counter, guard, hcounter, hguard,
          List.Subset.trans hsubset (List.subset_append_right _ _)⟩

/-- One of the edits of a counter declares it in front of the loop. -/
lemma exists_declares_of_counterEdits (hloop : loop.IsMarked lines start)
    (h : counterEdits config lines (Comment.strip lines) loop = .ok edits) :
    ∃ k, loop.keyword = some ⟨loop.headerLine, k⟩ ∧
      ∃ d ∈ edits, Shadow.Declares lines loop k (declaration config loop) d := by
  obtain ⟨⟨line, k⟩, hkeyword, hline, -⟩ := hloop.keyword
  obtain rfl : line = loop.headerLine := hline
  refine ⟨k, hkeyword, ?_⟩
  obtain ⟨header, hheader, h⟩ := bind_eq_ok_iff.mp h
  simp only [hkeyword, Option.getD_some] at h
  split at h
  · rename_i hbare
    obtain rfl := Except.ok.inj h
    refine ⟨_, List.mem_cons_self, .inl ?_⟩
    rw [if_pos hbare, List.append_assoc]
    rfl
  · rename_i hbare
    obtain ⟨code', hcode', h⟩ := bind_eq_ok_iff.mp h
    split at h
    · obtain rfl := Except.ok.inj h
      exact ⟨_, List.mem_singleton_self _, .inl (by rw [if_neg hbare]; rfl)⟩
    · rename_i hblank
      obtain rfl := Except.ok.inj h
      exact ⟨_, List.mem_singleton_self _, .inr ⟨_, code', Text.isBlankOnly_indent header,
        Bool.eq_false_iff.mpr hbare, rfl, lineAt_eq_ok_iff.mp hcode', by simpa using hblank⟩⟩

/-- One of the edits of a guard puts it into the body. -/
lemma exists_putsGuard_of_guardEdits (hloop : loop.IsMarked lines start)
    (h : guardEdits config lines (Comment.strip lines) loop cap = .ok edits) :
    ∃ g ∈ edits, PutsGuard config lines loop cap g := by
  obtain ⟨close, hclose, -⟩ := hloop.parenClose
  rw [guardEdits] at h
  cases hbrace : loop.brace with
  | none =>
    rw [hbrace, hclose] at h
    obtain rfl := Except.ok.inj h
    exact ⟨_, List.mem_cons_self, .inr ⟨close, hbrace, hclose, rfl⟩⟩
  | some brace =>
    rw [hbrace] at h
    obtain ⟨code, hcode, h⟩ := bind_eq_ok_iff.mp h
    split at h
    · obtain rfl := Except.ok.inj h
      exact ⟨_, List.mem_singleton_self _, .inl ⟨brace, hbrace, .inl rfl⟩⟩
    · rename_i hblank
      obtain ⟨header, -, h⟩ := bind_eq_ok_iff.mp h
      obtain rfl := Except.ok.inj h
      exact ⟨_, List.mem_singleton_self _, .inl ⟨brace, hbrace, .inr ⟨_, code, rfl,
        lineAt_eq_ok_iff.mp hcode, by simpa using hblank⟩⟩⟩

/-- **A cap acts on the loop with its number**, whatever the lines are. -/
theorem actsOn_of_apply (h : apply config lines start caps = .ok result)
    (hloop : loop ∈ Loop.find lines start) (hcap : capOf? caps loop = some cap) :
    ActsOn config lines result loop cap := by
  obtain ⟨edits, hedits, rfl⟩ := exists_edits_of_apply h
  obtain ⟨counter, guard, hcounter, hguard, hsubset⟩ := subset_of_editsFor hedits hloop hcap
  have hmarked := Loop.isMarked_of_mem_find hloop
  obtain ⟨k, hkeyword, d, hd, hdeclares⟩ := exists_declares_of_counterEdits hmarked hcounter
  obtain ⟨g, hg, hputs⟩ := exists_putsGuard_of_guardEdits hmarked hguard
  exact ⟨edits, rfl, ⟨k, hkeyword, d, hsubset (List.mem_append_left _ hd), hdeclares⟩, g,
    hsubset (List.mem_append_right _ hg), hputs⟩

end Cap

/-! ### What the shadow leaves as it is -/

/-- Lines that close their comments do so with texts put next to their code. -/
lemma Comment.AreClosed.apply {lines : List Text} {start : Nat} {edits : List Edit}
    (hclosed : AreClosed lines) (h : ∀ e ∈ edits, e.IsBeside lines start) :
    AreClosed (Edit.apply edits lines) := by
  intro l' hl'
  obtain ⟨k, hk⟩ := List.mem_iff_getElem?.mp hl'
  rw [Edit.apply_eq_applyFrom] at hk
  rcases Edit.exists_of_getElem?_applyFrom hk with ⟨n, hn, rfl⟩ | ⟨e, he, hrank, rfl⟩
  · -- a line with texts put in
    have hl : lines[n]? = some lines[n] := List.getElem?_eq_getElem hn
    rw [Edit.getElem?_image edits hl, Nat.zero_add, Option.some.injEq] at hk
    have hinside : ∀ insert ∈ edits.filterMap (Edit.inside? n),
        IsInset insert.2 ∧ IsCut false lines[n] insert.1 := by
      intro insert hinsert
      obtain ⟨e, he, heq⟩ := List.mem_filterMap.mp hinsert
      obtain rfl := Edit.eq_of_inside? heq
      obtain ⟨-, l, hline, hbeside⟩ := h _ he
      obtain rfl : lines[n] = l := Option.some.inj (hl.symm.trans hline)
      rw [hclosed.isOpenAfter_take] at hbeside
      exact hbeside
    rw [← hk, blankLine_weave (fun insert hinsert => (hinside insert hinsert).1) false _ 0
      (.of_isCut fun insert hinsert => (hinside insert hinsert).2)]
    exact hclosed _ (List.getElem_mem hn)
  · -- a line of its own
    obtain ⟨-, l, -, hbeside⟩ := h e he
    cases e with
    | lineBefore line text => exact congrArg Prod.snd (blankLine_of_isMarkFree hbeside.isMarkFree _)
    | lineAfter line text => exact congrArg Prod.snd (blankLine_of_isMarkFree hbeside.isMarkFree _)
    | inline line column text => exact absurd rfl hrank

namespace Edit

/-- The first brace of a text tells whether its header closes a block. -/
lemma isClean_iff {t : Text} :
    IsClean t ↔ (t.filter fun c => c == '{' || c == '}').head? ≠ some '}' := by
  induction t with
  | nil => simp [IsClean]
  | cons c t ih =>
    by_cases hopen : c = '{'
    · simp [IsClean, hopen]
    · by_cases hclose : c = '}'
      · simp [IsClean, hclose]
      · have hcons : IsClean (c :: t) ↔ IsClean t := by
          simp [IsClean, hopen, Ne.symm hclose]
        rw [hcons, ih, List.filter_cons_of_neg (by simp [hopen, hclose])]

/-- The text behind an opening brace does not matter. -/
lemma IsClean.of_append {x s : Text} (h : IsClean (x ++ s)) (hx : '{' ∈ x) (t : Text) :
    IsClean (x ++ t) := by
  have hne : x.filter (fun c => c == '{' || c == '}') ≠ [] :=
    List.ne_nil_of_mem (List.mem_filter.mpr ⟨hx, rfl⟩)
  rw [isClean_iff, List.filter_append, List.head?_append_of_ne_nil _ hne] at h ⊢
  exact h

end Edit

/-- Blanks at the ends of lines do not matter for characters that are not blank. -/
lemma Text.filter_ofLines_trimRight {p : Char → Bool} (hp : ∀ c, isBlank c = true → p c = false)
    (ls : List Text) : (ofLines (ls.map trimRight)).filter p = (ofLines ls).filter p := by
  have hline : ∀ l : Text, (trimRight l).filter p = l.filter p := by
    intro l
    obtain ⟨g, hg, hl⟩ := exists_trimRight_append l
    have hnone : g.filter p = [] :=
      List.filter_eq_nil_iff.mpr fun c hc => by simp [hp c (isBlankOnly_iff.mp hg c hc)]
    conv_rhs => rw [← hl, List.filter_append, hnone, List.append_nil]
  induction ls with
  | nil => rfl
  | cons l ls ih =>
    cases ls with
    | nil => simpa using hline l
    | cons l' ls =>
      rw [List.map_cons, List.map_cons, ofLines_cons_cons, ofLines_cons_cons, List.filter_append,
        List.filter_append, hline, List.filter_cons, List.filter_cons, ← List.map_cons, ih]

/-- The header of a function may be read in its blanked code. -/
lemma Loop.isClean_flatCode_iff (lines : List Text) (start : Nat) :
    Edit.IsClean (flatCode lines start) ↔ Edit.IsClean (Text.ofLines (blankCode lines start)) := by
  have hcode : codeFrom lines start = (blankCode lines start).map Text.trimRight := by
    rw [codeFrom, Comment.strip, Comment.stripFrom_eq, ← List.map_drop, blankCode]
  rw [Edit.isClean_iff, Edit.isClean_iff, flatCode, hcode, Text.filter_ofLines_trimRight]
  intro c hc
  have hne : ∀ d : Char, isBlank d = false → c ≠ d := by
    rintro d hd rfl
    rw [hc] at hd
    exact absurd hd (by simp)
  simp [hne '{' (by decide), hne '}' (by decide)]

namespace Shadow

section Insert

variable {lines marked : List Text} {start target count : Nat} {shown : Variable}
  {shadow : Option Text} {loops : List Loop} {outermost : Loop}

/-- The shadow leaves the comments of the lines closed. -/
lemma areClosed_of_insert (hclosed : Comment.AreClosed lines) (htarget : target < lines.length)
    (hstart : start ≤ target) (hmost : Loop.outermost? loops = some outermost)
    (hlies : outermost.LiesIn start count) (hstarts : StartsInFront lines start target outermost)
    (hname : Text.isIdent shown.name = true) (hsolid : Comment.isSolid shown.type = true)
    (h : insert {} lines target shown loops = .ok (marked, shadow)) : Comment.AreClosed marked := by
  obtain ⟨k, hkeyword, hink, -, hbefore⟩ := hstarts.keyword
  obtain ⟨d, a, rfl, -, -, -, hbeside⟩ := exists_isBeside_of_insert htarget hstart hmost hlies
    hkeyword hink hbefore hname hsolid h
  exact hclosed.apply hbeside

/-- The shadow is declared behind the header of the function. -/
lemma isClean_of_insert (hclosed : Comment.AreClosed lines) (htarget : target < lines.length)
    (hstart : start ≤ target) (hmost : Loop.outermost? loops = some outermost)
    (hlies : outermost.LiesIn start count) (hstarts : StartsInFront lines start target outermost)
    (hname : Text.isIdent shown.name = true) (hsolid : Comment.isSolid shown.type = true)
    {front rest : Text} (hcode : Text.ofLines (Loop.blankCode lines start) = front ++ rest)
    (hplace : outermost.keyword =
      some (FlatText.locate ⟨Loop.blankCode lines start, start⟩ front.length))
    (hopen : '{' ∈ front) (hclean : Edit.IsClean (front ++ rest))
    (h : insert {} lines target shown loops = .ok (marked, shadow)) :
    Edit.IsClean (Text.ofLines (Loop.blankCode marked start)) := by
  obtain ⟨x, gap, opening, blank, inner', rest', rfl, hgap, -, -, -, hmarked, -⟩ :=
    exists_code_of_insert hclosed htarget hstart hmost hlies hstarts hname hsolid
      (hcode.trans (congrArg (front ++ ·) (List.append_nil rest).symm)) hplace h
  have hx : '{' ∈ x := (List.mem_append.mp hopen).resolve_right fun hmem =>
    absurd (Text.isBlankOnly_iff.mp hgap _ hmem) (by decide)
  rw [hmarked]
  rw [List.append_assoc] at hclean
  exact hclean.of_append hx _

end Insert

/-- The code of a text that is cut behind a statement starts with the code in front of a loop around
the statement, and the block of the function is open there. -/
lemma exists_front_of_mem_enclosing {lines : List Text} {start target column n : Nat} {l : Text}
    (hl : (Comment.blankFrom false lines)[target]? = some l) (hsemi : l[column]? = some ';')
    (hn : target < n) {loop : Loop}
    (hloop : loop ∈ Loop.enclosing lines start target (some (column : Int))) :
    ∃ front rest rest', Text.ofLines (Loop.blankCode lines start) = front ++ rest ∧
      Text.ofLines (Loop.blankCode (lines.take n) start) = front ++ rest' ∧ '{' ∈ front ∧
      loop.keyword =
        some (FlatText.locate ⟨Loop.blankCode (lines.take n) start, start⟩ front.length) := by
  have hcolumn : column < l.length := (List.getElem?_eq_some_iff.mp hsemi).1
  obtain ⟨span, m, k, l₀, c, hspan, -, hstart, hclose, hl₀, hk, -, hkeyword, hplace, -⟩ :=
    Loop.exists_keyword_of_mem_enclosing hl hcolumn hloop
  have htrue := (Loop.isTrue_of_mem_spans (List.mem_of_getElem? hspan)).1
  have hlt := htrue.keyword_lt
  -- the two texts have the same code up to the `;`, and the keyword is in front of it
  obtain ⟨source, hsource, hlength, -⟩ := Comment.exists_source hl
  obtain ⟨hcode, front, rest, rest', hfront, hfront', hsame⟩ := exists_front hl hsemi
    (Position.agrees_take hsource (hcolumn.trans_le hlength) hn) hstart
  have hle : span.keyword ≤ front.length := by omega
  have hsplit : ∀ t : Text,
      front ++ t = front.take span.keyword ++ (front.drop span.keyword ++ t) := by
    intro t
    rw [← List.append_assoc, List.take_append_drop]
  refine ⟨front.take span.keyword, _, _, hfront.trans (hsplit _), hfront'.trans (hsplit _), ?_, ?_⟩
  · have hopen := htrue.isInside
    rwa [hfront, List.take_append_of_le_length hle] at hopen
  · obtain ⟨l₀', hl₀', hk', hstarts⟩ := hcode.exists_line hl₀
      (List.getElem?_eq_some_iff.mp hk).1 (by dsimp only; omega)
    rw [hk] at hk'
    rw [List.length_take_of_le hle, hkeyword, ← hstarts,
      FlatText.locate_lineStart hl₀' (List.getElem?_eq_some_iff.mp hk').1.le, hplace]

/-- **The text with the shadow can be capped as the source can.** -/
lemma areClosed_and_isClean {lines marked : List Text} {target column n : Nat} {shown : Variable}
    {shadow : Option Text} {function : Signature} {loops : List Loop} {loop : Loop}
    (hclosed : Comment.AreClosed lines)
    (hclean : Edit.IsClean (Loop.flatCode lines function.startLine))
    (hend : Statement.endAt ({} : Config).maxStatementLines lines target =
      .ok (some ⟨target, column⟩)) (hn : target < n)
    (hloops : loops = Loop.enclosing lines function.startLine target (some (column : Int)))
    (hloop : loop ∈ loops) (hname : Text.isIdent shown.name = true)
    (htype : Text.isIdent shown.type = true)
    (h : insert {} (lines.take n) target shown loops = .ok (marked, shadow)) :
    Comment.AreClosed marked ∧ Edit.IsClean (Loop.flatCode marked function.startLine) := by
  obtain ⟨outermost, hmost⟩ : ∃ outermost, Loop.outermost? loops = some outermost := by
    refine Option.ne_none_iff_exists'.mp fun hnone => ?_
    rw [Loop.eq_nil_of_outermost? hnone] at hloop
    exact absurd hloop List.not_mem_nil
  have houter := Loop.mem_of_outermost? hmost
  have haround : Probe.loopsAround {} lines function target = .ok loops := by
    rw [Probe.loopsAround, hend, hloops]
    rfl
  rw [hloops] at houter
  have hlies := Loop.liesIn_of_mem_find (List.mem_filter.mp houter).1
  have hstart : function.startLine ≤ target :=
    hlies.headerLine.1.trans (Loop.headerLine_le_of_mem_enclosing houter)
  have hstarts : StartsInFront (lines.take n) function.startLine target outermost := by
    obtain ⟨s, hfind, hlast⟩ := Statement.exists_find_of_endAt hend
    obtain ⟨rfl, rfl⟩ := Position.mk.inj hlast
    exact Probe.startsInFront_of_loopsAround hfind hend hstart hn haround outermost
      (Loop.mem_of_outermost? hmost)
  obtain ⟨l, hl, hsemi⟩ := Statement.exists_semicolon_of_endAt hend
  obtain ⟨source, hsource, -⟩ := Comment.exists_source hl
  have htarget : target < (lines.take n).length := by
    rw [List.length_take]
    exact Nat.lt_min.mpr ⟨hn, (List.getElem?_eq_some_iff.mp hsource).1⟩
  have hsolid := Comment.isSolid_of_isIdent htype
  have hkept : Comment.AreClosed (lines.take n) := fun l hl => hclosed l (List.mem_of_mem_take hl)
  refine ⟨areClosed_of_insert hkept htarget hstart hmost hlies hstarts hname hsolid h, ?_⟩
  obtain ⟨front, rest, rest', hfront, hfront', hopen, hplace⟩ :=
    exists_front_of_mem_enclosing hl hsemi hn houter
  rw [Loop.isClean_flatCode_iff] at hclean ⊢
  rw [hfront] at hclean
  exact isClean_of_insert hkept htarget hstart hmost hlies hstarts hname hsolid hfront' hplace hopen
    (hclean.of_append hopen rest') h

/-- **Loops keep their numbers when a value is carried out of them.**  Let a statement end on its
own line, and let the text be cut behind the loops around it.  The shadow can be put into that text;
every loop around the statement is found there under its number, with its header, and the text in
front of it is the text that was in front of it with the declaration of the shadow put in.

The caps of a request are applied to that text, so a cap acts on the loop that has its number in the
source: its counter is declared in front of that loop and tested in its body.  Where the comments
are closed, the header of the function is clean and the capped loops end, the loop is then found in
the capped text once more under its number, with its header, and is capped there. -/
theorem find_of_insert {config : Config} (hshadow : Text.isIdent config.shadow = true)
    {lines : List Text} {target column : Nat}
    (hend : Statement.endAt config.maxStatementLines lines target = .ok (some ⟨target, column⟩))
    {shown : Variable} (htype : Text.isIdent shown.type = true) (function : Signature) :
    ∃ loops marked shadow before declared,
      Probe.loopsAround config lines function target = .ok loops ∧
      loops = Loop.enclosing lines function.startLine target (some (column : Int)) ∧
      insert config (lines.take (Variant.keptLines lines.length target loops)) target shown loops =
        .ok (marked, shadow) ∧
      (∀ settings, Variant.truncated config settings lines function target shown loops =
        (fun capped => (capped, (shadow.filter (!·.isEmpty)).getD shown.name)) <$>
          Cap.apply config marked function.startLine settings.caps) ∧
      IsDeclaration (shown.type ++ " " ++ config.shadow ++ ";") declared ∧
      ∀ loop ∈ loops, ∃ found p q between,
        (Loop.find marked function.startLine)[loop.index]? = some found ∧
        found.index = loop.index ∧ found.headerText = loop.headerText ∧
        loop.keyword = some p ∧ found.keyword = some q ∧
        p.textInFront lines = before ++ between ∧
        q.textInFront marked = before ++ (declared ++ between) ∧
        ∀ caps cap, (∀ entry ∈ caps, 0 ≤ entry.1 ∧ 0 ≤ entry.2) → Cap.capOf? caps loop = some cap →
          ∃ capped, Cap.apply config marked function.startLine caps = .ok capped ∧
            Cap.ActsOn config marked capped found cap ∧
            (config = {} → Text.isIdent shown.name = true → Comment.AreClosed lines →
              Edit.IsClean (Loop.flatCode lines function.startLine) →
              (∀ other ∈ Loop.find marked function.startLine,
                (Cap.capOf? caps other).isSome = true → other.bodyEnd.isSome = true) →
              ((Loop.find capped function.startLine)[loop.index]?).map Loop.headerText =
                  some loop.headerText ∧
                Cap.IsCapped capped function.startLine found cap) := by
  set loops := Loop.enclosing lines function.startLine target (some (column : Int)) with hloops
  obtain ⟨l, hl, -⟩ := Statement.exists_semicolon_of_endAt hend
  have htarget : target < lines.length := by
    rw [← Comment.length_blankFrom false lines]
    exact (List.getElem?_eq_some_iff.mp hl).1
  have hn : target < Variant.keptLines lines.length target loops := by
    rw [Variant.keptLines]
    split
    · exact Nat.lt_succ_self target
    · split <;> omega
  have hkept : target < (lines.take (Variant.keptLines lines.length target loops)).length := by
    rw [List.length_take]
    exact Nat.lt_min.mpr ⟨hn, htarget⟩
  have hliesIn : ∀ loop ∈ loops, loop.LiesIn function.startLine lines.length := fun loop hloop =>
    Loop.liesIn_of_mem_find (List.mem_filter.mp hloop).1
  obtain ⟨⟨marked, shadow⟩, hinsert, -⟩ := exists_insert config hkept hliesIn
    (fun loop hloop => (Loop.headerLine_le_of_mem_enclosing (Loop.mem_of_outermost? hloop)).trans_lt
      hkept) shown
  obtain ⟨before, declared, hdeclared, hfound⟩ :=
    exists_declared hshadow hend htype hn hloops hinsert
  refine ⟨loops, marked, shadow, before, declared, ?_, rfl, hinsert, fun settings => ?_, hdeclared,
    fun loop hloop => ?_⟩
  · rw [Probe.loopsAround, hend]
    rfl
  · rw [Variant.truncated, hinsert]
    rfl
  · obtain ⟨found, p, q, between, hget, hindex, htext, hp, hq, hbefore, hbehind⟩ :=
      hfound loop hloop
    refine ⟨found, p, q, between, hget, hindex, htext, hp, hq, hbefore, hbehind,
      fun caps cap hvalid hcap => ?_⟩
    have hmem := List.mem_of_getElem? hget
    -- the cap of a loop depends on its number only
    have hcapFound : Cap.capOf? caps found = some cap := by
      rw [← hcap, Cap.capOf?, Cap.capOf?, hindex]
    obtain ⟨capped, hcapped⟩ := Cap.exists_apply config marked function.startLine hvalid
    refine ⟨capped, hcapped, Cap.actsOn_of_apply hcapped hmem hcapFound, ?_⟩
    rintro rfl hname hclosed hclean hends
    obtain ⟨hclosed', hclean'⟩ :=
      areClosed_and_isClean hclosed hclean hend hn hloops hloop hname htype hinsert
    have hcappable : Cap.IsCappable marked function.startLine caps := ⟨hclosed', hvalid, hends⟩
    obtain rfl : Cap.capped marked function.startLine caps = capped :=
      Except.ok.inj (hcappable.apply_eq.symm.trans hcapped)
    refine ⟨?_, hcappable.isCapped_of_mem hclean' hmem hcapFound⟩
    rw [← List.getElem?_map, hcappable.map_headerText_capped hclean', List.getElem?_map, hget,
      Option.map_some, htext]

/-- A loop inside a loop that is the body of a condition, so that the declaration of a shadow opens
a block in front of it. -/
def nestedLoops : List Text :=
  ["void mainImage(out vec4 O, in vec2 U) \x7b",
    "  if (U.x > 0.0) for (int i = 0; i < 4; i++) \x7b",
    "    while (U.y > 0.0) float a = U.x;", "  \x7d", "\x7d"]

/-- The lines of the outer loop with the shadow. -/
def nestedLoopsWithShadow : List Text :=
  ["void mainImage(out vec4 O, in vec2 U) \x7b",
    "  if (U.x > 0.0) \x7b float _dbgShadow; for (int i = 0; i < 4; i++) \x7b",
    "    while (U.y > 0.0) float a = U.x;", "    _dbgShadow = a;", "  \x7d"]

/-- Both loops around the declaration keep their numbers, and a cap with the number of the inner
loop takes effect on it. -/
theorem find_of_insert_nested_loops :
    ∃ loops, Probe.loopsAround {} nestedLoops ⟨"mainImage", "void", [], 0, some 4⟩ 2 = .ok loops ∧
      loops.map Loop.headerText = ["for (int i = 0; i < 4; i++)", "while (U.y > 0.0)"] ∧
      insert {} (nestedLoops.take 4) 2 ⟨"a", "float"⟩ loops =
        .ok (nestedLoopsWithShadow, some "_dbgShadow") ∧
      (∀ loop ∈ loops, ∃ found, (Loop.find nestedLoopsWithShadow 0)[loop.index]? = some found ∧
        found.headerText = loop.headerText) ∧
      ∃ found capped, (Loop.find nestedLoopsWithShadow 0)[1]? = some found ∧
        Cap.apply {} nestedLoopsWithShadow 0 [(1, 3)] = .ok capped ∧
        Cap.ActsOn {} nestedLoopsWithShadow capped found 3 ∧
        ((Loop.find capped 0)[1]?).map Loop.headerText = some "while (U.y > 0.0)" ∧
        Cap.IsCapped capped 0 found 3 := by
  have hend : Statement.endAt ({} : Config).maxStatementLines nestedLoops (2 : Nat) =
      .ok (some ⟨2, 35⟩) := eq_ok_of_toOption (by decide +kernel)
  obtain ⟨loops, marked, shadow, before, declared, haround, rfl, hinsert, -, -, hfound⟩ :=
    @find_of_insert {} (by decide +kernel) nestedLoops 2 35 hend ⟨"a", "float"⟩ (by decide +kernel)
      ⟨"mainImage", "void", [], 0, some 4⟩
  have hkept : Variant.keptLines nestedLoops.length 2 (Loop.enclosing nestedLoops 0 2 (some 35)) =
      4 := by decide +kernel
  have hmarked : insert {} (nestedLoops.take 4) 2 ⟨"a", "float"⟩
      (Loop.enclosing nestedLoops 0 2 (some 35)) = .ok (nestedLoopsWithShadow, some "_dbgShadow") :=
    eq_ok_of_toOption (by decide +kernel)
  rw [← hkept] at hmarked
  obtain ⟨rfl, rfl⟩ := Prod.mk.inj (Except.ok.inj (hmarked.symm.trans hinsert))
  rw [hkept] at hmarked
  refine ⟨_, haround, by decide +kernel, hmarked, fun loop hloop => ?_, ?_⟩
  · obtain ⟨found, -, -, -, hget, -, htext, -⟩ := hfound loop hloop
    exact ⟨found, hget, htext⟩
  · have hinner : (Loop.enclosing nestedLoops 0 2 (some 35))[1]?.map
        (fun loop => (loop.index, loop.headerText)) =
          some (1, ("while (U.y > 0.0)" : Text)) := by decide +kernel
    obtain ⟨loop, hloop, hpair⟩ := Option.map_eq_some_iff.mp hinner
    obtain ⟨hindex, htext⟩ := Prod.mk.inj hpair
    obtain ⟨found, -, -, -, hget, -, -, -, -, -, -, hcaps⟩ :=
      hfound loop (List.mem_of_getElem? hloop)
    obtain ⟨capped, hcapped, hacts, heffect⟩ := hcaps [(1, 3)] 3 (by decide)
      (by rw [Cap.capOf?, hindex]; rfl)
    obtain ⟨htexts, heffect⟩ := heffect rfl (by decide +kernel) (by decide +kernel)
      (by decide +kernel) (by decide +kernel)
    rw [hindex] at hget htexts
    exact ⟨found, capped, hget, hcapped, hacts, htexts.trans (congrArg some htext), heffect⟩

end Shadow

end ShaderProbe
