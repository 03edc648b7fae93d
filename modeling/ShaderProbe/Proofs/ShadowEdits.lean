import Mathlib
import ShaderProbe.Proofs.CapInsertion
import ShaderProbe.Proofs.FunctionLoops
import ShaderProbe.Proofs.LoopNumbers

/-!
# The two statements that carry a value out of loops

The assignment is put in first and the declaration second, by columns of the lines as they were.
The declaration stands in front of the assignment, so the result is the same as for both edits at
once: `Edit.applyFrom_pair` and `Shadow.exists_edits_of_insert`.

If no line ends in a block comment, the code of the result is the code of the lines with the same
two texts in it, and `Shadow.insert_eq_of_enclosing` says where they stand.
-/

namespace ShaderProbe

namespace Edit

/-! ### Two edits -/

/-- A text for an earlier column is not put in. -/
lemma weave_cons_of_lt {inserts : List (Nat × Text)} {o column : Nat} (d : Text) (h : o < column)
    (t : Text) : weave ((o, d) :: inserts) column t = weave inserts column t := by
  induction t generalizing column with
  | nil => rw [weave, weave, List.filter_cons_of_neg (by simpa using h)]
  | cons c t ih =>
    rw [weave, weave, List.filter_cons_of_neg (by simpa using h.ne),
      ih (h.trans (Nat.lt_succ_self column))]

/-- A text for the first column comes first. -/
lemma weave_cons_self {inserts : List (Nat × Text)} {column : Nat} (d t : Text) :
    weave ((column, d) :: inserts) column t = d ++ weave inserts column t := by
  cases t with
  | nil => rw [weave, weave, List.filter_cons_of_pos (by simp)]; rfl
  | cons c t =>
    rw [weave, weave, List.filter_cons_of_pos (by simp),
      weave_cons_of_lt d (Nat.lt_succ_self column),
      List.map_cons, List.flatten_cons, List.append_assoc]

/-- Two texts are put into a text. -/
lemma weave_pair (x y z d a : Text) :
    weave [(x.length, d), (x.length + y.length, a)] 0 (x ++ (y ++ z)) =
      x ++ (d ++ (y ++ (a ++ z))) := by
  rw [weave_append (by simp), Nat.zero_add, weave_cons_self, weave_append (by simp),
    weave_cons_self, weave_nil]

/-- A text in front of the other one can be put in last. -/
lemma weave_weave {k m : Nat} {d a t : Text} (hk : k ≤ m) (hm : m ≤ t.length) :
    weave [(k, d)] 0 (weave [(m, a)] 0 t) = weave [(k, d), (m, a)] 0 t := by
  obtain ⟨x, y, z, rfl, rfl, rfl⟩ : ∃ x y z : Text, t = x ++ (y ++ z) ∧ k = x.length ∧
      m = x.length + y.length := by
    refine ⟨t.take k, (t.drop k).take (m - k), t.drop m, ?_, ?_, ?_⟩
    · rw [← Nat.add_sub_of_le hk, ← List.drop_drop, Nat.add_sub_cancel_left, List.take_append_drop,
        List.take_append_drop]
    · rw [List.length_take]
      omega
    · rw [List.length_take, List.length_take, List.length_drop]
      omega
  rw [weave_pair, weave_append (by simp), weave_append (by simp), Nat.zero_add, weave_cons_self,
    weave_nil, weave_append (by simp), weave_cons_self, weave_nil]

/-- Lines are edited one after the other. -/
lemma applyFrom_append (edits : List Edit) (first : Nat) (ls ls' : List Text) :
    applyFrom edits first (ls ++ ls') =
      applyFrom edits first ls ++ applyFrom edits (first + ls.length) ls' := by
  induction ls generalizing first with
  | nil => rfl
  | cons l ls ih =>
    rw [List.cons_append, applyFrom, applyFrom, ih, List.append_assoc, List.length_cons,
      Nat.add_assoc, Nat.add_comm 1]

/-- An edit of another line does not change a line. -/
lemma eq_none_of_line_ne {e : Edit} {line : Nat} (h : e.line ≠ line) :
    before? line e = none ∧ inside? line e = none ∧ after? line e = none := by
  cases e <;> simp_all [before?, inside?, after?, Edit.line]

/-- Edits of the lines in front do not matter. -/
lemma applyFrom_cons_of_lt {e : Edit} {first : Nat} (h : e.line < first) (edits : List Edit)
    (ls : List Text) : applyFrom (e :: edits) first ls = applyFrom edits first ls := by
  induction ls generalizing first with
  | nil => rfl
  | cons l ls ih =>
    obtain ⟨hbefore, hinside, hafter⟩ := eq_none_of_line_ne h.ne
    rw [applyFrom, applyFrom, ih (Nat.lt_succ_of_lt h), applyLine, applyLine,
      List.filterMap_cons_none hbefore, List.filterMap_cons_none hinside,
      List.filterMap_cons_none hafter]

/-- An edit inside a line or in front of it, and one inside the line or behind it. -/
lemma applyLine_pair {d a : Edit} (hd : d.rank ≠ 2) (ha : a.rank ≠ 0) {l : Text} {line : Nat}
    (hdline : d.line = line) (haline : a.line = line) (hle : d.column l ≤ a.column l)
    (hbound : a.column l ≤ l.length) :
    applyFrom [d] line (applyLine [a] line l) = applyLine [d, a] line l := by
  cases d with
  | lineAfter place text => exact absurd rfl hd
  | lineBefore place text =>
    obtain rfl : place = line := hdline
    cases a with
    | lineBefore other text' => exact absurd rfl ha
    | lineAfter other text' =>
      obtain rfl : other = place := haline
      simp [applyFrom, applyLine, List.filterMap_cons, before?, inside?, after?]
    | inline other column text' =>
      obtain rfl : other = place := haline
      simp [applyFrom, applyLine, List.filterMap_cons, before?, inside?, after?]
  | inline place k text =>
    obtain rfl : place = line := hdline
    cases a with
    | lineBefore other text' => exact absurd rfl ha
    | lineAfter other text' =>
      obtain rfl : other = place := haline
      simp [applyFrom, applyLine, List.filterMap_cons, before?, inside?, after?]
    | inline other m text' =>
      obtain rfl : other = place := haline
      have hweave : weave [(k, text)] 0 (weave [(m, text')] 0 l) = _ := weave_weave hle hbound
      simp [applyFrom, applyLine, List.filterMap_cons, before?, inside?, after?, hweave]

/-- **An edit in front of another one can be made last.** -/
theorem applyFrom_pair {d a : Edit} (hd : d.rank ≠ 2) (ha : a.rank ≠ 0) {ls : List Text}
    {first : Nat} (hfirst : first ≤ d.line) (hle : d.line ≤ a.line)
    (hsame : d.line = a.line → ∀ l, ls[d.line - first]? = some l → d.column l ≤ a.column l ∧
      a.column l ≤ l.length) :
    applyFrom [d] first (applyFrom [a] first ls) = applyFrom [d, a] first ls := by
  induction ls generalizing first with
  | nil => rfl
  | cons l ls ih =>
    rcases Nat.lt_or_eq_of_le hfirst with hlt | rfl
    · -- a line in front of both edits
      have hrest := ih hlt fun heq x hx => hsame heq x (by
        rwa [← Nat.sub_add_cancel (Nat.sub_pos_of_lt hlt), Nat.sub_sub])
      rw [applyFrom, applyFrom, applyLine_of_ne (by simp; omega), List.singleton_append, applyFrom,
        applyLine_of_ne (by simp; omega), applyLine_of_ne (by simp; omega), hrest]
    · rcases Nat.lt_or_eq_of_le hle with hlt | heq
      · obtain ⟨hbefore, hinside, hafter⟩ := eq_none_of_line_ne hlt.ne'
        rw [applyFrom, applyFrom, applyLine_of_ne (by simp; omega), List.singleton_append,
          applyFrom, applyFrom_of_lt (by simp), applyFrom_cons_of_lt (Nat.lt_succ_self _)]
        congr 1
        simp [applyLine, List.filterMap_cons, hbefore, hinside, hafter]
      · obtain ⟨hcolumn, hbound⟩ := hsame heq l (by rw [Nat.sub_self]; rfl)
        have hlength : 0 < (applyLine [a] d.line l).length := by simp [applyLine]
        have hbehind : ∀ e ∈ [d, a], e.line < d.line + 1 := by simp; omega
        rw [applyFrom, applyFrom, applyFrom_append,
          applyLine_pair hd ha rfl heq.symm hcolumn hbound,
          applyFrom_of_lt (fun e he => hbehind e (List.mem_cons_of_mem d he)),
          applyFrom_of_lt hbehind, applyFrom_of_lt (by simp; omega)]

/-- The text of an edit with the line feed that a line of its own brings. -/
def fragment : Edit → Text
  | lineBefore _ text => text ++ ['\n']
  | inline _ _ text => text
  | lineAfter _ text => '\n' :: text

/-- The text that is put into the flat text. -/
lemma flat_snd (e : Edit) (ls : List Text) (first : Nat) : (e.flat ls first).2 = e.fragment := by
  cases e <;> rfl

/-- A line behind a line. -/
lemma applyLine_lineAfter (line : Nat) (text l : Text) :
    applyLine [lineAfter line text] line l = [l, text] := by
  simp [applyLine, List.filterMap_cons, before?, inside?, after?]

/-- A line does not get shorter by an edit inside it or behind it, and keeps its number. -/
lemma exists_getElem?_applyFrom_singleton {e : Edit} (he : e.rank ≠ 0) {ls : List Text} {n : Nat}
    {l l₀ : Text} (hl : ls[n]? = some l) (hle : n ≤ e.line) (hl₀ : ls[e.line]? = some l₀) :
    ∃ l', (applyFrom [e] 0 ls)[n]? = some l' ∧ l.length ≤ l'.length := by
  have hlength := (List.getElem?_eq_some_iff.mp hl₀).1
  rw [applyFrom_singleton hl₀ (Nat.zero_add _).symm, Nat.zero_add]
  rcases Nat.lt_or_eq_of_le hle with hlt | rfl
  · refine ⟨l, ?_, le_rfl⟩
    rw [List.getElem?_append_left (by rw [List.length_take]; omega), List.getElem?_take_of_lt hlt, hl]
  · obtain rfl : l = l₀ := Option.some.inj (hl.symm.trans hl₀)
    have hbefore : [e].filterMap (before? e.line) = [] := by
      cases e with
      | lineBefore place text => exact absurd rfl he
      | lineAfter place text => rfl
      | inline place column text => rfl
    refine ⟨weave ([e].filterMap (inside? e.line)) 0 l, ?_, (sublist_weave _ _ _).length_le⟩
    rw [List.getElem?_append_right (List.length_take_le _ _), List.length_take_of_le hlength.le,
      Nat.sub_self, applyLine, hbefore]
    rfl

end Edit

namespace Shadow

/-! ### The edits -/

variable {lines : List Text} {target : Nat} {l : Text}

/-- The edit puts the assignment right behind the `;` of the statement, or on a line of its own if
no code follows the `;` on its line or the statement ends on another line. -/
def Assigns (config : Config) (lines : List Text) (target : Nat) (assignment : Text) (a : Edit) :
    Prop :=
  ∃ l, lines[target]? = some l ∧
    ((∃ column, Statement.endAt config.maxStatementLines lines target =
          .ok (some ⟨target, column⟩) ∧ column < l.length ∧
        a = .inline target (column + 1) (' ' :: assignment)) ∨
      a = .lineAfter target (Text.indent l ++ assignment) ∧ ∀ column,
        Statement.endAt config.maxStatementLines lines target = .ok (some ⟨target, column⟩) →
          Text.isBlankOnly (((Comment.strip lines).getD target []).drop (column + 1)) = true)

/-- The edit puts the declaration right in front of the keyword of the loop, at column `k`, or on a
line of its own if no code stands in front of the keyword on its line. -/
def Declares (lines : List Text) (loop : Loop) (k : Nat) (declaration : Text) (d : Edit) : Prop :=
  d = .inline loop.headerLine k
      ((if loop.bareBody then "\x7b ".toList else []) ++ (declaration ++ [' '])) ∨
    ∃ gap code : Text, Text.isBlankOnly gap = true ∧ loop.bareBody = false ∧
      d = .lineBefore loop.headerLine (gap ++ declaration) ∧
      (Comment.strip lines)[loop.headerLine]? = some code ∧
      Text.isBlankOnly (code.take k) = true

/-- The assignment is an edit behind the statement. -/
lemma exists_edit_of_assign (config : Config) (hl : lines[target]? = some l) (assignment : Text) :
    ∃ a : Edit, assign config lines target assignment = .ok (Edit.applyFrom [a] 0 lines) ∧
      Assigns config lines target assignment a := by
  have hlength := (List.getElem?_eq_some_iff.mp hl).1
  have hafter : ∀ text : Text, lines.insertIdx (target + 1) text =
      Edit.applyFrom [.lineAfter target text] 0 lines := by
    intro text
    rw [@Edit.applyFrom_singleton (.lineAfter target text) lines 0 target l hl
      (Nat.zero_add _).symm, Nat.zero_add, Edit.applyLine_lineAfter,
      insertIdx_eq_take_cons_drop text hlength, List.take_succ_eq_append_getElem hlength,
      (List.getElem?_eq_some_iff.mp hl).2]
    simp
  obtain ⟨last, hlast⟩ := Statement.exists_endAt config.maxStatementLines lines target
  simp only [assign, lineAt_eq_ok_iff.mpr hl, hlast, bind, Except.bind]
  cases last with
  | none => exact ⟨_, congrArg Except.ok (hafter _), l, hl, .inr ⟨rfl, fun column h => by
      rw [hlast] at h
      simp at h⟩⟩
  | some last =>
    dsimp only
    split
    · next hcond =>
      obtain ⟨code, hcode, hsemi⟩ := Statement.exists_semicolon_of_endAt hlast
      obtain ⟨source, hsource, hle, -⟩ := Comment.exists_source hcode
      rw [hcond.1] at hsource
      obtain rfl := Option.some.inj (hl.symm.trans hsource)
      have hcolumn : last.column < l.length :=
        (List.getElem?_eq_some_iff.mp hsemi).1.trans_le hle
      refine ⟨.inline target (last.column + 1) (' ' :: assignment), ?_, l, hl,
        .inl ⟨last.column, by rw [hlast, ← hcond.1], hcolumn, rfl⟩⟩
      rw [@Edit.applyFrom_singleton (.inline target (last.column + 1) (' ' :: assignment)) lines 0
        target l hl (Nat.zero_add _).symm, Nat.zero_add, Edit.applyLine_inline _ hcolumn,
        List.set_eq_take_cons_drop _ hlength, insertAt, List.append_assoc]
      rfl
    · next hcond =>
      refine ⟨_, congrArg Except.ok (hafter _), l, hl, .inr ⟨rfl, fun column h => ?_⟩⟩
      rw [hlast, Except.ok.injEq, Option.some.injEq] at h
      subst h
      simpa using hcond

/-- **The two statements are two edits of the lines.**  The keyword of the outermost loop is in
front of the end of the statement. -/
theorem exists_edits_of_insert (config : Config) (shown : Variable) {loops : List Loop}
    {outermost : Loop} (hmost : Loop.outermost? loops = some outermost) {start count k : Nat}
    (hlies : outermost.LiesIn start count)
    (hkeyword : outermost.keyword = some ⟨outermost.headerLine, k⟩) {source : Text}
    (hsource : lines[outermost.headerLine]? = some source) (hk : k ≤ source.length)
    (hl : lines[target]? = some l) (hplace : outermost.headerLine < target ∨
      outermost.headerLine = target ∧
      ∀ column, Statement.endAt config.maxStatementLines lines target =
        .ok (some ⟨target, column⟩) → k ≤ column) :
    ∃ d a : Edit, insert config lines target shown loops =
        .ok (Edit.apply [d, a] lines, some config.shadow) ∧
      Declares lines outermost k (shown.type ++ " " ++ config.shadow ++ ";") d ∧
      Assigns config lines target (config.shadow ++ " = " ++ shown.name ++ ";") a := by
  obtain ⟨a, hassign, ha⟩ := exists_edit_of_assign config hl
    (config.shadow ++ " = " ++ shown.name ++ ";")
  have harank : a.rank ≠ 0 ∧ a.line = target := by
    obtain ⟨x, -, ⟨column, -, -, rfl⟩ | ⟨rfl, -⟩⟩ := ha <;> exact ⟨by simp [Edit.rank], rfl⟩
  have hle : outermost.headerLine ≤ target := by omega
  obtain ⟨l', hl', hlong⟩ := Edit.exists_getElem?_applyFrom_singleton harank.1 hsource
    (hle.trans_eq harank.2.symm) (by rw [harank.2]; exact hl)
  obtain ⟨marked, hmarked, -⟩ := exists_declare hlies (List.getElem?_eq_some_iff.mp hsource).1
    (Edit.apply_eq_applyFrom [a] lines ▸ Edit.length_le_apply [a] lines)
    (shown.type ++ " " ++ config.shadow ++ ";")
  obtain ⟨d, rfl, hd⟩ := exists_edit_of_declare hkeyword hl' (hk.trans hlong) hmarked
  have hdrank : d.rank ≠ 2 ∧ d.line = outermost.headerLine := by
    rcases hd with rfl | ⟨gap, code, -, -, rfl, -⟩ <;> exact ⟨by simp [Edit.rank], rfl⟩
  have hpair : Edit.applyFrom [d] 0 (Edit.applyFrom [a] 0 lines) = Edit.apply [d, a] lines := by
    rw [Edit.apply_eq_applyFrom]
    refine Edit.applyFrom_pair hdrank.1 harank.1 (Nat.zero_le _) (by omega) fun heq x hx => ?_
    -- both edits are made in the line of the keyword
    have hline : outermost.headerLine = target := by rw [← hdrank.2, heq, harank.2]
    rw [Nat.sub_zero, hdrank.2, hsource, Option.some.injEq] at hx
    subst hx
    have hdcolumn : d.column source ≤ k := by
      rcases hd with rfl | ⟨gap, code, -, -, rfl, -⟩
      · exact le_rfl
      · exact Nat.zero_le k
    obtain ⟨x, hx, ⟨column, hend, hcolumn, rfl⟩ | ⟨rfl, -⟩⟩ := ha
    · rw [← hline, hsource, Option.some.injEq] at hx
      subst hx
      have := (hplace.resolve_left (by omega)).2 column hend
      exact ⟨by rw [Edit.column]; omega, hcolumn⟩
    · exact ⟨hdcolumn.trans hk, le_rfl⟩
  refine ⟨d, a, ?_, hd, ha⟩
  rw [insert, hmost]
  simp only [hassign, bind, Except.bind, hmarked, hpair]
  rfl

/-! ### The places of the edits -/

/-- An assignment of the shadow is a statement. -/
lemma isStatement_assignment {name : Text} (hname : Text.isIdent name = true) :
    Cap.IsStatement (({} : Config).shadow ++ " = " ++ name ++ ";") := by
  refine ⟨fun c hc => ?_, by rw [List.getLast?_append]; rfl⟩
  rcases List.mem_append.mp hc with hc | hc
  · rcases List.mem_append.mp hc with hc | hc
    · have hall : (({} : Config).shadow ++ " = ".toList).all (fun c => c != '/' && c != '*') =
          true := by
        decide +kernel
      simpa using List.all_eq_true.mp hall c hc
    · have hword := Text.isWordChar_of_isIdent hname c hc
      constructor <;> rintro rfl <;> exact absurd hword (by decide)
  · rw [List.mem_singleton.mp hc]
    decide

/-- The declaration of the shadow is a statement. -/
lemma isStatement_declaration {type : Text} (htype : Text.isIdent type = true) :
    Cap.IsStatement (type ++ " " ++ ({} : Config).shadow ++ ";") :=
  ⟨(isPlain_declaration htype (by decide +kernel)).unmarked, by rw [List.getLast?_append]; rfl⟩

/-- The declaration stands right in front of the loop. -/
lemma Declares.toCap {start index k : Nat} {span : LoopSpan} {declaration : Text} {d : Edit}
    (hclosed : Comment.AreClosed lines) (hspan : span ∈ Loop.spans (Loop.flatCode lines start))
    (hkeyword : (FlatText.locate ⟨Loop.codeFrom lines start, start⟩ span.keyword).column = k)
    (hstatement : Cap.IsStatement declaration)
    (h : Declares lines (Loop.ofSpan ⟨Loop.codeFrom lines start, start⟩ span index) k
      declaration d) :
    Cap.Declares lines start span declaration d := by
  obtain ⟨n, code, column, c, source, hcode, hcolumn, hblank, hoffset, hlocate, -, hlookup⟩ :=
    Cap.exists_keyword hclosed hspan
  have hheader : (Loop.ofSpan ⟨Loop.codeFrom lines start, start⟩ span index).headerLine =
      start + n := congrArg Position.line hlocate
  have hbare : (Loop.ofSpan ⟨Loop.codeFrom lines start, start⟩ span index).bareBody =
      span.bareBody := rfl
  obtain rfl : column = k := by rw [← hkeyword, hlocate]
  rw [Declares, hheader, hbare] at h
  rcases h with rfl | ⟨gap, code', hgap, hbody, rfl, hcode', hfront⟩
  · refine Cap.declares_inline hclosed hstatement hcode hcolumn hblank hoffset ?_ ?_ <;>
      cases span.bareBody <;> simp [Text.isBlankOnly]
  · obtain rfl := Option.some.inj ((lineAt_eq_ok_iff.mp hlookup).symm.trans hcode')
    exact Cap.declares_lineBefore hstatement hcode (List.getElem?_eq_some_iff.mp hcolumn).1 hoffset
      hbody hfront hgap

/-- The edit stands right behind a character of the code, with blanks in front of its statement. -/
structure StandsBehind (lines : List Text) (start last : Nat) (statement : Text) (a : Edit) : Prop where
  placed : a.IsPlaced (Loop.codeFrom lines start) start
  fits : a.Fits lines
  rank : a.rank ≠ 0
  offset : (a.flat (Loop.codeFrom lines start) start).1 = last + 1
  text : ∃ front, (a.flat (Loop.codeFrom lines start) start).2 = front ++ statement ∧
    Text.isBlankOnly front = true

/-- The assignment stands right behind the `;` of the statement. -/
lemma Assigns.standsBehind {start n column : Nat} {code assignment : Text} {a : Edit}
    (hclosed : Comment.AreClosed lines) (hstatement : Cap.IsStatement assignment)
    (hcode : (Loop.codeFrom lines start)[n]? = some code) (hsemi : code[column]? = some ';')
    (hend : Statement.endAt ({} : Config).maxStatementLines lines (start + n : Nat) =
      .ok (some ⟨start + n, column⟩))
    (h : Assigns {} lines (start + n) assignment a) :
    StandsBehind lines start (FlatText.lineStart (Loop.codeFrom lines start) n + column) assignment
      a := by
  have hlt := (List.getElem?_eq_some_iff.mp hsemi).1
  obtain ⟨l, hl, ⟨column', hend', -, rfl⟩ | ⟨rfl, hrest⟩⟩ := h
  · obtain rfl : column = column' := by
      rw [hend] at hend'
      simpa using hend'
    obtain ⟨hplaced, hfits, hflat⟩ := Cap.exists_behind hclosed hcode hsemi (by decide)
      (by simpa using hstatement.plain : ∀ c ∈ ' ' :: assignment, c ≠ '/' ∧ c ≠ '*')
      ⟨';', by rw [← List.singleton_append, List.getLast?_append, hstatement.last]; rfl, by decide⟩
    exact ⟨hplaced, hfits, Nat.one_ne_zero, by rw [hflat], [' '], by rw [hflat]; rfl, by decide⟩
  · -- the `;` is the last character of its line
    have hlength : code.length = column + 1 := by
      have hget : (Comment.strip lines).getD (start + n) [] = code := by
        rw [Loop.codeFrom, List.getElem?_drop] at hcode
        rw [List.getD_eq_getElem?_getD, hcode]
        rfl
      have hrest := hrest column hend
      rw [hget] at hrest
      obtain ⟨source, -, rfl⟩ := hclosed.exists_line hcode
      exact Comment.length_trimRight_of_isBlankOnly_drop hlt hrest
    have hflat : (Edit.lineAfter (start + n) (Text.indent l ++ assignment)).flat
        (Loop.codeFrom lines start) start = (FlatText.lineStart (Loop.codeFrom lines start) n +
          column + 1, '\n' :: (Text.indent l ++ assignment)) := by
      simp [Edit.flat, hcode, hlength, Nat.add_assoc]
    refine ⟨⟨n, code, rfl, hcode, fun _ _ _ heq => absurd heq (by simp)⟩,
      hstatement.isPlainLine (Text.isBlankOnly_indent l), two_ne_zero, by rw [hflat],
      '\n' :: Text.indent l, by rw [hflat]; rfl, ?_⟩
    rw [Text.isBlankOnly, List.all_cons]
    exact Bool.and_eq_true_iff.mpr ⟨by decide, Text.isBlankOnly_indent l⟩

end Shadow

/-- An offset in the body of a loop is behind the header, behind the brace that opens the body and
in front of the brace that closes it. -/
lemma LoopSpan.lt_of_encloses {text : Text} {span : LoopSpan} {o : Nat} (htrue : span.IsTrue text)
    (h : span.encloses o = true) : span.parenClose < o ∧
      ∀ b ∈ span.brace, b < o ∧ ∀ e ∈ span.bodyEnd, o < e := by
  rw [encloses] at h
  cases hbrace : span.brace with
  | none => cases hend : span.bodyEnd <;> simp_all
  | some b =>
    obtain ⟨gap, t, -, -, hb⟩ := htrue.brace b hbrace
    cases hend : span.bodyEnd <;> simp_all <;> omega

namespace Loop

/-- The loop starts at an offset between `first` and `last`, and if its body is in braces, the body
is around `last`. -/
structure IsAround (flat : FlatText) (first last : Nat) (loop : Loop) : Prop where
  keyword : ∃ o, loop.keyword = some (flat.locate o) ∧ first ≤ o ∧ o < last
  brace : ∀ brace ∈ loop.brace, ∃ o, brace = flat.locate o ∧ o < last ∧
    ∀ close ∈ loop.bodyEnd, ∃ o', close = flat.locate o' ∧ last < o'

/-- A loop is around an offset in its body. -/
lemma isAround_ofSpan {flat : FlatText} {text : Text} {span : LoopSpan} {index first last : Nat}
    (htrue : span.IsTrue text) (hfirst : first ≤ span.keyword) (h : span.encloses last = true) :
    (ofSpan flat span index).IsAround flat first last := by
  obtain ⟨hheader, hbody⟩ := LoopSpan.lt_of_encloses htrue h
  constructor
  · exact ⟨span.keyword, rfl, hfirst, htrue.keyword_lt.trans hheader⟩
  · intro brace hbrace
    obtain ⟨b, hb, rfl⟩ := Option.map_eq_some_iff.mp hbrace
    obtain ⟨hbegin, hend⟩ := hbody b hb
    refine ⟨b, rfl, hbegin, fun close hclose => ?_⟩
    obtain ⟨e, he, rfl⟩ := Option.map_eq_some_iff.mp hclose
    exact ⟨e, rfl, hend e he⟩

end Loop

namespace Shadow

/-- A text is split at three offsets, the last of which is that of a character. -/
lemma exists_split {text : Text} {o k last : Nat} {c : Char} (ho : o ≤ k) (hk : k ≤ last)
    (hc : text[last]? = some c) :
    ∃ x g y z : Text, text = x ++ (g ++ (y ++ c :: z)) ∧ x.length = o ∧ (x ++ g).length = k ∧
      (x ++ (g ++ y)).length = last ∧ ∀ d ∈ g, ∃ i, o ≤ i ∧ i < k ∧ text[i]? = some d := by
  obtain ⟨hlt, hget⟩ := List.getElem?_eq_some_iff.mp hc
  refine ⟨text.take o, (text.drop o).take (k - o), (text.drop k).take (last - k),
    text.drop (last + 1), ?_, ?_, ?_, ?_, fun d hd => ?_⟩
  · have hz : text.drop last = c :: text.drop (last + 1) := by
      rw [List.drop_eq_getElem_cons hlt, hget]
    have hy : text.drop k = (text.drop k).take (last - k) ++ text.drop last := by
      conv_lhs => rw [← List.take_append_drop (last - k) (text.drop k), List.drop_drop,
        Nat.add_sub_cancel' hk]
    have hg : text.drop o = (text.drop o).take (k - o) ++ text.drop k := by
      conv_lhs => rw [← List.take_append_drop (k - o) (text.drop o), List.drop_drop,
        Nat.add_sub_cancel' ho]
    rw [← hz, ← hy, ← hg, List.take_append_drop]
  · rw [List.length_take]
    omega
  · rw [List.length_append, List.length_take, List.length_take, List.length_drop]
    omega
  · rw [List.length_append, List.length_append, List.length_take, List.length_take,
      List.length_take, List.length_drop, List.length_drop]
    omega
  · obtain ⟨i, hi⟩ := List.mem_iff_getElem?.mp hd
    have hshort := (List.getElem?_eq_some_iff.mp hi).1
    rw [List.length_take] at hshort
    rw [List.getElem?_take_of_lt (by omega), List.getElem?_drop] at hi
    exact ⟨o + i, Nat.le_add_right o i, by omega, hi⟩

/-- The flat code after two edits. -/
lemma flatCode_apply_pair {lines : List Text} {start : Nat} (hclosed : Comment.AreClosed lines)
    {d a : Edit} (hd : d.rank ≠ 2) (ha : a.rank ≠ 0)
    (hplaced : ∀ e ∈ [d, a], e.IsPlaced (Loop.codeFrom lines start) start)
    (hfits : ∀ e ∈ [d, a], e.Fits lines) :
    Loop.flatCode (Edit.apply [d, a] lines) start =
      Edit.weave [d.flat (Loop.codeFrom lines start) start,
        a.flat (Loop.codeFrom lines start) start] 0 (Loop.flatCode lines start) := by
  have hrank : Edit.byRank [d, a] = [d, a] := by
    cases d <;> cases a <;> simp_all [Edit.byRank, Edit.rank]
  have hstart : ∀ e ∈ [d, a], 0 + start ≤ e.line := by
    intro e he
    obtain ⟨n, l, hline, -⟩ := hplaced e he
    omega
  have hdrop := (Edit.applyFrom_split hstart (Comment.strip lines)).2
  rw [Nat.zero_add] at hdrop
  rw [Loop.flatCode, Loop.codeFrom, Edit.strip_apply hclosed hfits, Edit.apply_eq_applyFrom, hdrop,
    ← Loop.codeFrom, Edit.ofLines_applyFrom hplaced, hrank]
  rfl

/-- The first of the loops around a place is the outermost one. -/
lemma outermost?_eq_of_enclosing {lines : List Text} {start : Nat} {line : Int}
    {column : Option Int}
    {loop : Loop} {loops : List Loop} (h : Loop.enclosing lines start line column = loop :: loops) :
    Loop.outermost? (loop :: loops) = some loop := by
  rw [← h, Loop.outermost?_of_pairwise, h]
  · rfl
  · exact ((Loop.pairwise_find lines start).filter _).imp fun hlt => hlt.2

/-- The `;` of a statement in the flat code. -/
lemma exists_offset_of_endAt {max : Int} {lines : List Text} {start line target column : Nat}
    (hend : Statement.endAt max lines line = .ok (some ⟨target, column⟩))
    (hstart : start ≤ target) :
    ∃ n code, target = start + n ∧ (Loop.codeFrom lines start)[n]? = some code ∧
      code[column]? = some ';' ∧ (Loop.flatCode lines start)[FlatText.lineStart
        (Loop.codeFrom lines start) n + column]? = some ';' ∧
      FlatText.locate ⟨Loop.codeFrom lines start, start⟩
        (FlatText.lineStart (Loop.codeFrom lines start) n + column) = ⟨target, column⟩ := by
  obtain ⟨s, hfind, hs⟩ := Statement.exists_find_of_endAt hend
  obtain ⟨code, hcode, hsemi⟩ := Statement.exists_semicolon hfind
  obtain ⟨rfl, rfl⟩ := Position.mk.inj hs
  obtain ⟨n, hn⟩ := Nat.exists_eq_add_of_le hstart
  have hline : (Loop.codeFrom lines start)[n]? = some code := by
    rw [Loop.codeFrom, List.getElem?_drop, ← hn, hcode]
  have hlt := (List.getElem?_eq_some_iff.mp hsemi).1
  refine ⟨n, code, hn, hline, hsemi, ?_, ?_⟩
  · rw [Loop.flatCode, FlatText.getElem?_ofLines hline hlt, hsemi]
  · rw [FlatText.locate_lineStart hline hlt.le, hn]

section Enclosing

variable {lines : List Text} {start target column last : Nat} {loop : Loop} {loops : List Loop}

/-- The offsets of a loop around a place. -/
lemma exists_span_of_mem_enclosing
    (hlast : FlatText.locate ⟨Loop.codeFrom lines start, start⟩ last = ⟨target, column⟩)
    (h : loop ∈ Loop.enclosing lines start target (some (column : Int))) :
    ∃ span, (Loop.spans (Loop.flatCode lines start))[loop.index]? = some span ∧
      loop = Loop.ofSpan ⟨Loop.codeFrom lines start, start⟩ span loop.index ∧
      span.IsTrue (Loop.flatCode lines start) ∧ span.encloses last = true := by
  obtain ⟨hmem, hcontains⟩ := List.mem_filter.mp h
  obtain ⟨index, span, hspan, rfl⟩ := Loop.exists_of_mem_find hmem
  refine ⟨span, hspan, rfl, (Loop.isTrue_of_mem_spans (List.mem_of_getElem? hspan)).1, ?_⟩
  rw [← Loop.contains_ofSpan ⟨Loop.codeFrom lines start, start⟩ span index, hlast]
  exact hcontains

/-- **The loops around a place start at the first of them.** -/
lemma exists_span_of_enclosing
    (hlast : FlatText.locate ⟨Loop.codeFrom lines start, start⟩ last = ⟨target, column⟩)
    (hloops : Loop.enclosing lines start target (some (column : Int)) = loop :: loops) :
    ∃ span ∈ Loop.spans (Loop.flatCode lines start),
      loop = Loop.ofSpan ⟨Loop.codeFrom lines start, start⟩ span loop.index ∧
      loop.keyword = some (FlatText.locate ⟨Loop.codeFrom lines start, start⟩ span.keyword) ∧
      span.keyword < last ∧ ∀ other ∈ loop :: loops,
        other.IsAround ⟨Loop.codeFrom lines start, start⟩ span.keyword last := by
  have hmost := outermost?_eq_of_enclosing hloops
  rw [← hloops] at hmost ⊢
  obtain ⟨span, hspan, hloop, htrue, hencloses⟩ :=
    exists_span_of_mem_enclosing hlast (Loop.mem_of_outermost? hmost)
  refine ⟨span, List.mem_of_getElem? hspan, hloop, by rw [hloop]; rfl,
    htrue.keyword_lt.trans (LoopSpan.lt_of_encloses htrue hencloses).1, fun other hother => ?_⟩
  obtain ⟨span', hspan', hother', htrue', hencloses'⟩ := exists_span_of_mem_enclosing hlast hother
  rw [hother']
  refine Loop.isAround_ofSpan htrue' ?_ hencloses'
  rcases Nat.lt_or_eq_of_le (Loop.index_le_of_outermost? hmost hother) with hlt | heq
  · exact (htrue.keyword_lt.trans (Loop.parenClose_lt_of_lt hlt hspan hspan')).le
  · rw [heq, hspan', Option.some.injEq] at hspan
    rw [hspan]

/-- **The two statements around a statement inside loops are two edits of the lines.** -/
theorem exists_edits_of_enclosing (config : Config) (shown : Variable)
    (hend : Statement.endAt config.maxStatementLines lines target = .ok (some ⟨target, column⟩))
    (hloops : Loop.enclosing lines start target (some (column : Int)) = loop :: loops) :
    ∃ (d a : Edit) (k : Nat), loop.keyword = some ⟨loop.headerLine, k⟩ ∧
      insert config lines target shown (loop :: loops) =
        .ok (Edit.apply [d, a] lines, some config.shadow) ∧
      Declares lines loop k (shown.type ++ " " ++ config.shadow ++ ";") d ∧
      Assigns config lines target (config.shadow ++ " = " ++ shown.name ++ ";") a := by
  have hfirst : loop ∈ Loop.enclosing lines start target (some (column : Int)) := by
    rw [hloops]
    exact List.mem_cons_self
  have hfound := (List.mem_filter.mp hfirst).1
  have hlies := Loop.liesIn_of_mem_find hfound
  obtain ⟨⟨line, k⟩, hkeyword, rfl, hplace⟩ := (Loop.isMarked_of_mem_find hfound).keyword
  obtain ⟨source, hsource, hlong⟩ := hplace.exists_line
  -- the keyword is in front of the `;`
  obtain ⟨n, code, -, -, -, -, hlast⟩ := exists_offset_of_endAt hend
    (hlies.headerLine.1.trans (Loop.headerLine_le_of_mem_enclosing hfirst))
  obtain ⟨span, -, -, hlocate, hbefore, -⟩ := exists_span_of_enclosing hlast hloops
  have hinFront := Position.isBefore_iff.mp ((FlatText.isBefore_locate
    ⟨Loop.codeFrom lines start, start⟩ span.keyword _).trans (decide_eq_true hbefore))
  rw [← Option.some.inj (hkeyword.symm.trans hlocate), hlast] at hinFront
  obtain ⟨code, hcode, -⟩ := Statement.exists_semicolon_of_endAt hend
  obtain ⟨l, hl, -⟩ := Comment.exists_source hcode
  obtain ⟨d, a, hinsert, hd, ha⟩ := exists_edits_of_insert config shown
    (outermost?_eq_of_enclosing hloops) hlies hkeyword hsource hlong.le hl
    (hinFront.imp_right fun h => ⟨h.1, fun column' hend' => by
      rw [hend] at hend'
      obtain rfl : column = column' := by simpa using hend'
      exact h.2.le⟩)
  exact ⟨d, a, k, hkeyword, hinsert, hd, ha⟩

end Enclosing

/-- **A value is carried out of the loops around a statement by two texts.**  The declaration stands
right in front of the outermost loop, behind a brace if that loop is the body of another statement,
and the assignment stands right behind the statement; in both places nothing but blanks comes
between.  The declaration is in front of all loops around the statement, and the assignment is in
their bodies. -/
theorem insert_eq_of_enclosing {lines : List Text} {start target column : Nat} {shown : Variable}
    {loop : Loop} {loops : List Loop} (hclosed : Comment.AreClosed lines)
    (hname : Text.isIdent shown.name = true) (htype : Text.isIdent shown.type = true)
    (hend : Statement.endAt ({} : Config).maxStatementLines lines target =
      .ok (some ⟨target, column⟩))
    (hloops : Loop.enclosing lines start target (some (column : Int)) = loop :: loops) :
    ∃ (d a : Edit) (x g y z : Text),
      insert {} lines target shown (loop :: loops) =
        .ok (Edit.apply [d, a] lines, some "_dbgShadow".toList) ∧
      Loop.flatCode lines start = x ++ (g ++ (y ++ ';' :: z)) ∧
      Loop.flatCode (Edit.apply [d, a] lines) start =
        x ++ (d.fragment ++ (g ++ (y ++ ';' :: (a.fragment ++ z)))) ∧
      Text.isBlankOnly g = true ∧
      loop.keyword = some (FlatText.locate ⟨Loop.codeFrom lines start, start⟩ (x ++ g).length) ∧
      FlatText.locate ⟨Loop.codeFrom lines start, start⟩ (x ++ (g ++ y)).length = ⟨target, column⟩ ∧
      (∃ front back, d.fragment = front ++ ((shown.type ++ " _dbgShadow;") ++ back) ∧
        Text.isBlankOnly back = true ∧
        if loop.bareBody then front = "\x7b " else Text.isBlankOnly front = true) ∧
      (∃ front, a.fragment = front ++ ("_dbgShadow = " ++ shown.name ++ ";") ∧
        Text.isBlankOnly front = true) ∧
      ∀ other ∈ loop :: loops, other.IsAround ⟨Loop.codeFrom lines start, start⟩ (x ++ g).length
        (x ++ (g ++ y)).length := by
  have hfirst : loop ∈ Loop.enclosing lines start target (some (column : Int)) := by
    rw [hloops]
    exact List.mem_cons_self
  have hlies := Loop.liesIn_of_mem_find (List.mem_filter.mp hfirst).1
  obtain ⟨n, code, rfl, hcode, hsemi, htext, hlast⟩ := exists_offset_of_endAt hend
    (hlies.headerLine.1.trans (Loop.headerLine_le_of_mem_enclosing hfirst))
  obtain ⟨span, hspan, hloop, hlocate, hbefore, haround⟩ := exists_span_of_enclosing hlast hloops
  obtain ⟨d, a, k, hkeyword, hinsert, hd, ha⟩ := exists_edits_of_enclosing {} shown hend hloops
  -- the two edits in the flat code
  have hdeclares : Cap.Declares lines start span
      (shown.type ++ " " ++ ({} : Config).shadow ++ ";") d := by
    rw [hloop] at hd
    refine hd.toCap hclosed hspan ?_ (isStatement_declaration htype)
    rw [← Option.some.inj (hkeyword.symm.trans hlocate)]
  have hassigns := ha.standsBehind hclosed (isStatement_assignment hname) hcode hsemi hend
  have hrank : d.rank ≠ 2 := by
    rcases hdeclares.rank with ⟨hrank, -⟩ | ⟨hrank, -⟩ <;> rw [hrank] <;> decide
  have hflat := flatCode_apply_pair hclosed hrank hassigns.rank
    (by simpa using ⟨hdeclares.placed, hassigns.placed⟩)
    (by simpa using ⟨hdeclares.fits, hassigns.fits⟩)
  obtain ⟨x, g, y, z, hsplit, hx, hg, hy, hgap⟩ := exists_split hdeclares.le hbefore.le htext
  refine ⟨d, a, x, g, y, z, hinsert, hsplit, ?_, ?_, ?_, ?_, ?_, ?_, ?_⟩
  · have hd' : d.flat (Loop.codeFrom lines start) start = (x.length, d.fragment) :=
      Prod.ext hx.symm (d.flat_snd _ _)
    have ha' : a.flat (Loop.codeFrom lines start) start =
        (x.length + (g ++ (y ++ [';'])).length, a.fragment) := by
      refine Prod.ext ?_ (a.flat_snd _ _)
      rw [hassigns.offset, ← hy]
      simp [Nat.add_assoc]
    have hpair := Edit.weave_pair x (g ++ (y ++ [';'])) z d.fragment a.fragment
    rw [hflat, hsplit, hd', ha']
    simpa using hpair
  · refine Text.isBlankOnly_iff.mpr fun c hc => ?_
    obtain ⟨i, hlow, hhigh, hi⟩ := hgap c hc
    exact hdeclares.blanks i hlow hhigh c hi
  · rw [hg, hlocate]
  · rw [hy, hlast]
  · obtain ⟨front, back, htext, hback, hfront⟩ := hdeclares.text
    rw [d.flat_snd] at htext
    rw [hloop]
    refine ⟨front, back, ?_, hback, hfront⟩
    rw [htext, List.append_assoc shown.type, List.append_assoc shown.type]
    rfl
  · obtain ⟨front, htext, hfront⟩ := hassigns.text
    exact ⟨front, (a.flat_snd _ _).symm.trans htext, hfront⟩
  · rw [hg, hy]
    exact haround

/-- A loop without braces in the loop that is the body of a condition, with more code behind the
statement. -/
def conditionalLoops : List Text :=
  ["float f(float x) \x7b", "  if (x > 0.0) for (int i = 0; i < 4; i++) \x7b",
    "    while (x < 9.0) // grow", "      x += 1.0; x *= 2.0; \x7d", "  return x;", "\x7d"]

/-- The shadow is declared in a block of its own around both loops. -/
theorem insert_eq_of_enclosing_conditional :
    ∃ loop loops, Loop.enclosing conditionalLoops 0 3 (some 14) = loop :: loops ∧ loops.length = 1 ∧
      ∃ d a : Edit, insert {} conditionalLoops 3 ⟨"x", "float"⟩ (loop :: loops) =
          .ok (Edit.apply [d, a] conditionalLoops, some "_dbgShadow".toList) ∧
        (∃ back, d.fragment = "\x7b ".toList ++ ("float _dbgShadow;".toList ++ back) ∧
          Text.isBlankOnly back = true) ∧
        ∃ front, a.fragment = front ++ "_dbgShadow = x;".toList ∧
          Text.isBlankOnly front = true := by
  obtain ⟨loop, loops, hloops⟩ := List.exists_cons_of_ne_nil
    (by decide +kernel : Loop.enclosing conditionalLoops 0 3 (some 14) ≠ [])
  have hlength : (Loop.enclosing conditionalLoops 0 3 (some 14)).length = 2 := by decide +kernel
  have hbare : (Loop.enclosing conditionalLoops 0 3 (some 14)).head?.map Loop.bareBody =
      some true := by
    decide +kernel
  rw [hloops] at hlength hbare
  obtain ⟨d, a, -, -, -, -, hinsert, -, -, -, -, -, hd, ha, -⟩ :=
    @insert_eq_of_enclosing conditionalLoops 0 3 14 ⟨"x", "float"⟩ loop loops (by decide +kernel)
      (by decide +kernel) (by decide +kernel) (eq_ok_of_toOption (by decide +kernel)) hloops
  obtain ⟨front, back, htext, hback, hfront⟩ := hd
  rw [if_pos (Option.some.inj hbare)] at hfront
  exact ⟨loop, loops, hloops, Nat.succ.inj hlength, d, a, hinsert,
    ⟨back, by rw [htext, hfront]; rfl, hback⟩, ha⟩

end Shadow

end ShaderProbe
