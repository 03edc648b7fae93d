import Mathlib
import ShaderProbe.Proofs.EditBraces
import ShaderProbe.Proofs.Preserved

/-!
# Counting the braces of emitted lines

The text that a variant adds to a shader is solid: it holds neither braces nor comment marks, and
none arise where it meets other text (`Comment.isSolid`).  This file counts what such text does to
the blocks and comments of a source.

* A line in which one solid text is exchanged for another counts as before (`Comment.CountsAs`), so
  a renamed header and a captured `return` change no count.
* The lines that show a value, and a synthesized entry point as a whole, leave no block and no
  comment open (`Comment.HasBraces`).
-/

namespace ShaderProbe

namespace Comment

/-! ### Solid texts -/

/-- The character is in no comment mark. -/
def isBland (c : Char) : Bool := c != '/' && c != '*'

/-- The text holds neither braces nor comment marks, and no mark arises at its ends when it is put
between other texts. -/
def isSolid (t : Text) : Bool :=
  isMarkFree t && Text.isFreeOf ['{', '}'] t && t.head?.any isBland && t.getLast?.any isBland

variable {s t w w' : Text}

/-- A solid text is quiet. -/
lemma isQuiet_of_isSolid (h : isSolid t = true) : IsQuiet t := by
  simp only [isSolid, Bool.and_eq_true] at h
  exact ⟨h.1.1.1, h.1.1.2⟩

/-- A solid text can be put next to code. -/
lemma isInset_of_isSolid (h : isSolid t = true) : IsInset t := by
  simp only [isSolid, Bool.and_eq_true, Option.any_eq_true] at h
  obtain ⟨⟨⟨hfree, -⟩, c, hc, hhead⟩, d, hd, hlast⟩ := h
  refine ⟨hfree, fun x hx => ?_, fun x hx => ?_⟩
  · obtain rfl : c = x := Option.some.inj (hc.symm.trans hx)
    simpa [isBland] using hhead
  · obtain rfl : d = x := Option.some.inj (hd.symm.trans hx)
    simpa [isBland] using hlast

/-- A solid text is not empty. -/
lemma ne_nil_of_isSolid (h : isSolid t = true) : t ≠ [] := by
  rintro rfl
  exact absurd h (by decide)

/-- A quiet text is solid if its ends are in no mark. -/
lemma isSolid_of_isQuiet (h : IsQuiet t) (hne : t ≠ []) (hhead : ∀ c ∈ t.head?, isBland c = true)
    (hlast : ∀ c ∈ t.getLast?, isBland c = true) : isSolid t = true := by
  have hfirst := List.head?_eq_some_head hne
  have hfinal := List.getLast?_eq_some_getLast hne
  simp only [isSolid, Bool.and_eq_true, h.isMarkFree, h.isFreeOfBraces, true_and]
  rw [hfirst, hfinal]
  exact ⟨hhead _ hfirst, hlast _ hfinal⟩

/-- A text of harmless characters is solid. -/
lemma isSolid_of_forall (hne : t ≠ []) (h : ∀ c ∈ t, c ∉ ['/', '*', '{', '}']) :
    isSolid t = true := by
  have hbland : ∀ c ∈ t, isBland c = true := by
    intro c hc
    have := h c hc
    simp_all [isBland]
  refine isSolid_of_isQuiet (isQuiet_of_not_mem ?_ ?_ ?_) hne
    (fun c hc => hbland c (List.mem_of_head? hc)) fun c hc => hbland c (List.mem_of_getLast? hc)
  all_goals exact fun hc => h _ hc (by decide)

/-- An identifier is solid. -/
lemma isSolid_of_isIdent (h : Text.isIdent t = true) : isSolid t = true := by
  refine isSolid_of_forall ?_ fun c hc hmem => ?_
  · rintro rfl
    exact absurd h (by decide)
  · have hword := Text.isWordChar_of_isIdent h c hc
    simp only [List.mem_cons, List.not_mem_nil, or_false] at hmem
    rcases hmem with rfl | rfl | rfl | rfl <;> exact absurd hword (by decide)

/-- No mark arises where another text is followed by a solid one. -/
lemma seam_append_of_isSolid (h : isSolid w = true) (s t : Text) : Seam s (w ++ t) := by
  obtain ⟨c, rest, rfl⟩ := List.exists_cons_of_ne_nil (ne_nil_of_isSolid h)
  obtain ⟨hslash, hstar⟩ := (isInset_of_isSolid h).head c rfl
  exact seam_of_head rfl hslash hstar

/-- A quiet text and a solid one make a quiet text. -/
lemma IsQuiet.append_isSolid (hs : IsQuiet s) (ht : isSolid t = true) : IsQuiet (s ++ t) :=
  hs.append (isQuiet_of_isSolid ht) (by simpa using seam_append_of_isSolid ht s [])

/-- A solid text and a quiet one make a quiet text. -/
lemma IsQuiet.isSolid_append (ht : IsQuiet t) (hs : isSolid s = true) : IsQuiet (s ++ t) :=
  (isQuiet_of_isSolid hs).append ht ((isInset_of_isSolid hs).seam t)

/-- Solid texts make a solid text. -/
lemma isSolid_append (hs : isSolid s = true) (ht : isSolid t = true) : isSolid (s ++ t) = true := by
  have hinset := (isInset_of_isSolid hs).append (isInset_of_isSolid ht)
  refine isSolid_of_isQuiet ((isQuiet_of_isSolid hs).append_isSolid ht) ?_ (fun c hc => ?_)
    fun c hc => ?_
  · exact List.append_ne_nil_of_left_ne_nil (ne_nil_of_isSolid hs) t
  · simpa [isBland] using hinset.head c hc
  · simpa [isBland] using hinset.last c hc

/-! ### Lines that count alike -/

/-- The second line opens as many blocks as the first one, and leaves a block comment open if the
first one does. -/
def CountsAs (l l' : Text) : Prop := ∀ inBlock,
  Text.braceDelta (blankLine inBlock l').1 = Text.braceDelta (blankLine inBlock l).1 ∧
    (blankLine inBlock l').2 = (blankLine inBlock l).2

/-- A line counts as itself. -/
lemma CountsAs.refl (l : Text) : CountsAs l l := fun _ => ⟨rfl, rfl⟩

/-- Counting alike is handed on. -/
lemma CountsAs.trans {l l' l'' : Text} (h : CountsAs l l') (h' : CountsAs l' l'') :
    CountsAs l l'' := fun inBlock =>
  ⟨(h' inBlock).1.trans (h inBlock).1, (h' inBlock).2.trans (h inBlock).2⟩

/-- A solid text does not count. -/
lemma blankLine_around (hw : isSolid w = true) (s t : Text) (inBlock : Bool) :
    Text.braceDelta (blankLine inBlock (s ++ (w ++ t))).1 =
        Text.braceDelta (blankLine inBlock s).1 +
          (if hasLineComment inBlock s then 0
            else Text.braceDelta (blankLine (blankLine inBlock s).2 t).1) ∧
      (blankLine inBlock (s ++ (w ++ t))).2 =
        if hasLineComment inBlock s then (blankLine inBlock s).2
        else (blankLine (blankLine inBlock s).2 t).2 := by
  have hquiet := isQuiet_of_isSolid hw
  rw [blankLine_append inBlock s (w ++ t) (seam_append_of_isSolid hw s t)]
  cases hasLineComment inBlock s with
  | true => simp
  | false =>
    generalize (blankLine inBlock s).2 = inside
    obtain ⟨hbraces, hstate⟩ := hquiet.blankLine inside
    rw [blankLine_append inside w t ((isInset_of_isSolid hw).seam t),
      hasLineComment_of_isMarkFree hquiet.isMarkFree]
    simp [Text.braceDelta_append, hbraces, hstate]

/-- **A line in which a solid text is exchanged for another one counts as before.** -/
lemma countsAs_exchange (hw : isSolid w = true) (hw' : isSolid w' = true) (s t : Text) :
    CountsAs (s ++ (w ++ t)) (s ++ (w' ++ t)) := by
  intro inBlock
  obtain ⟨hbraces, hstate⟩ := blankLine_around hw s t inBlock
  obtain ⟨hbraces', hstate'⟩ := blankLine_around hw' s t inBlock
  exact ⟨hbraces'.trans hbraces.symm, hstate'.trans hstate.symm⟩

/-- Lines that count alike one by one count alike together. -/
lemma braces_of_forall₂ {ls ls' : List Text} (h : List.Forall₂ CountsAs ls ls') (inBlock : Bool) :
    Text.bracesOf (blankFrom inBlock ls') = Text.bracesOf (blankFrom inBlock ls) ∧
      isOpenAfter inBlock ls' = isOpenAfter inBlock ls := by
  induction h generalizing inBlock with
  | nil => exact ⟨rfl, rfl⟩
  | cons hline _ ih =>
    obtain ⟨hbraces, hstate⟩ := hline inBlock
    rw [blankFrom, blankFrom, isOpenAfter, isOpenAfter, Text.bracesOf_cons, Text.bracesOf_cons,
      hbraces, hstate, (ih _).1, (ih _).2]
    exact ⟨rfl, rfl⟩

/-- One line is exchanged for a line that counts alike. -/
lemma forall₂_modify {f : Text → Text} (hf : ∀ l, CountsAs l (f l)) (ls : List Text) (n : Nat) :
    List.Forall₂ CountsAs ls (ls.modify n f) := by
  induction ls generalizing n with
  | nil => cases n <;> exact .nil
  | cons l ls ih =>
    cases n with
    | zero => exact .cons (hf l) (List.forall₂_same.mpr fun x _ => .refl x)
    | succ n => exact .cons (.refl l) (ih n)

/-! ### Lines that leave no comment open -/

/-- The lines open `n` blocks in all, and no block comment is open behind them. -/
structure HasBraces (ls : List Text) (n : Int) : Prop where
  braces : Text.bracesOf (blankFrom false ls) = n
  closed : isOpenAfter false ls = false

namespace HasBraces

variable {ls ls' : List Text} {m n : Int}

/-- Braces add up. -/
lemma append (h : HasBraces ls m) (h' : HasBraces ls' n) : HasBraces (ls ++ ls') (m + n) := by
  constructor
  · rw [blankFrom_append, h.closed, Text.bracesOf_append, h.braces, h'.braces]
  · rw [isOpenAfter_append, h.closed, h'.closed]

/-- Quiet lines hold no braces. -/
lemma of_isQuiet (h : ∀ l ∈ ls, IsQuiet l) : HasBraces ls 0 :=
  ⟨(braces_of_isQuiet h false).1, (braces_of_isQuiet h false).2⟩

/-- Lines without braces hold no braces in all. -/
lemma of_forall (h : ∀ l ∈ ls, HasBraces [l] 0) : HasBraces ls 0 := by
  induction ls with
  | nil => exact ⟨rfl, rfl⟩
  | cons l ls ih =>
    have hrest := ih fun x hx => h x (List.mem_cons_of_mem l hx)
    simpa using (h l List.mem_cons_self).append hrest

/-- Every closing brace closes a block. -/
lemma replicate (n : Nat) : HasBraces (List.replicate n ['}']) (-(n : Int)) := by
  constructor
  · rw [Balance.bracesOf_blankFrom_replicate, if_neg (by simp)]
  · rw [Balance.isOpenAfter_replicate]

/-- Only the code counts in front of a comment that runs to the end of the line. -/
lemma commented (hs : isSolid s = true) (comment : Text) :
    HasBraces [s ++ " //".toList ++ comment] 0 := by
  have hspace : isSolid (s ++ [' ']) = true := isSolid_append hs (by decide)
  have hline : s ++ " //".toList ++ comment = (s ++ [' ']) ++ '/' :: '/' :: comment := by simp
  have hblank : blankLine false (s ++ " //".toList ++ comment) = (s ++ [' '], false) := by
    rw [hline, (isInset_of_isSolid hspace).blankLine_append, blankLine_line ⟨rfl, rfl⟩,
      List.append_nil]
  have hdelta := (isQuiet_of_isSolid hspace).braceDelta
  constructor
  · rw [blankFrom, hblank, blankFrom, Text.bracesOf_cons, hdelta]
    rfl
  · rw [isOpenAfter, hblank]
    rfl

end HasBraces

end Comment

/-! ### Lines that show a value -/

namespace Visualization

variable {output value s t : Text}

/-- A character that is no brace stays in a template. -/
lemma expand_cons {c : Char} (hopen : c ≠ '{') (hclose : c ≠ '}') (t : Text) :
    expand output value (c :: t) = c :: expand output value t := by
  rw [expand]
  all_goals simp_all

/-- A text without braces stays in a template. -/
lemma expand_append (hs : Text.isFreeOf ['{', '}'] s = true) (t : Text) :
    expand output value (s ++ t) = s ++ expand output value t := by
  induction s with
  | nil => rfl
  | cons c s ih =>
    simp only [Text.isFreeOf, List.all_cons, Bool.and_eq_true] at hs
    have hc : c ≠ '{' ∧ c ≠ '}' := by simpa using hs.1
    rw [List.cons_append, expand_cons hc.1 hc.2, ih hs.2, List.cons_append]

/-- A template that only names the output. -/
lemma expand_output (hs : Text.isFreeOf ['{', '}'] s = true) :
    expand output value ("\x7bout\x7d".toList ++ s) = output ++ s := by
  have hout : expand output value ("\x7bout\x7d".toList ++ s) = output ++ expand output value s := rfl
  have hrest : expand output value (s ++ []) = s ++ expand output value [] := expand_append hs []
  rw [hout]
  simpa [expand] using hrest

/-- A template that names the output and the value. -/
lemma expand_value (hs : Text.isFreeOf ['{', '}'] s = true)
    (ht : Text.isFreeOf ['{', '}'] t = true) :
    expand output value ("\x7bout\x7d".toList ++ (s ++ ("\x7bv\x7d".toList ++ t))) =
      output ++ (s ++ (value ++ t)) := by
  have hout : expand output value ("\x7bout\x7d".toList ++ (s ++ ("\x7bv\x7d".toList ++ t))) =
      output ++ expand output value (s ++ ("\x7bv\x7d".toList ++ t)) := rfl
  have hvalue : expand output value ("\x7bv\x7d".toList ++ t) = value ++ expand output value t := rfl
  have hrest : expand output value (t ++ []) = t ++ expand output value [] := expand_append ht []
  rw [hout, expand_append hs, hvalue]
  simpa [expand] using hrest

/-- The expression of ones that a value is compared with. -/
lemma isSolid_one {width : Nat} (hwidth : width ∈ [1, 2, 3]) :
    Comment.isSolid (if width = 1 then "1.0".toList else
      "vec".toList ++ Text.ofNat width ++ "(1.0)".toList) = true := by
  simp only [List.mem_cons, List.not_mem_nil, or_false] at hwidth
  rcases hwidth with rfl | rfl | rfl <;> decide

/-- A normalized value is solid. -/
lemma isSolid_normalization (mode : Normalization) {width : Nat} (hwidth : width ∈ [1, 2, 3])
    (hvalue : Comment.isSolid value = true) : Comment.isSolid (mode.apply width value) = true := by
  have hone := isSolid_one hwidth
  cases mode with
  | off => exact hvalue
  | soft =>
    unfold Normalization.apply
    refine Comment.isSolid_append (Comment.isSolid_append (Comment.isSolid_append
      (Comment.isSolid_append (Comment.isSolid_append (Comment.isSolid_append ?_ hvalue) ?_)
        hvalue) ?_) hone) ?_
    all_goals decide
  | magnitude =>
    unfold Normalization.apply
    refine Comment.isSolid_append (Comment.isSolid_append (Comment.isSolid_append
      (Comment.isSolid_append (Comment.isSolid_append (Comment.isSolid_append ?_ hvalue) ?_)
        hvalue) ?_) hone) ?_
    all_goals decide

/-- A statement that writes a solid text to the output. -/
lemma isSolid_expand_output (houtput : Comment.isSolid output = true)
    (hs : Comment.isSolid s = true) :
    Comment.isSolid (expand output value ("\x7bout\x7d".toList ++ s)) = true := by
  rw [expand_output (Comment.isQuiet_of_isSolid hs).isFreeOfBraces]
  exact Comment.isSolid_append houtput hs

/-- A statement that writes the value to the output. -/
lemma isSolid_expand_value (houtput : Comment.isSolid output = true)
    (hvalue : Comment.isSolid value = true) (hs : Comment.isSolid s = true)
    (ht : Comment.isSolid t = true) :
    Comment.isSolid (expand output value
      ("\x7bout\x7d".toList ++ (s ++ ("\x7bv\x7d".toList ++ t)))) = true := by
  rw [expand_value (Comment.isQuiet_of_isSolid hs).isFreeOfBraces
    (Comment.isQuiet_of_isSolid ht).isFreeOfBraces]
  exact Comment.isSolid_append houtput
    (Comment.isSolid_append hs (Comment.isSolid_append hvalue ht))

/-- The statement of a color rule is solid. -/
lemma isSolid_rule (kind : GlslType) (houtput : Comment.isSolid output = true)
    (hvalue : Comment.isSolid value = true) :
    Comment.isSolid (expand output value (ColorRule.ofType kind).template) = true := by
  have hnamed : ∀ {s t : Text}, Comment.isSolid s = true → Comment.isSolid t = true →
      Comment.isSolid (expand output value
        ("\x7bout\x7d".toList ++ (s ++ ("\x7bv\x7d".toList ++ t)))) = true :=
    fun hs ht => isSolid_expand_value houtput hvalue hs ht
  cases kind with
  | float => exact @hnamed " = vec4(vec3(" "), 1.0);" (by decide) (by decide)
  | vec2 => exact @hnamed " = vec4(" ", 0.0, 1.0);" (by decide) (by decide)
  | vec3 => exact @hnamed " = vec4(" ", 1.0);" (by decide) (by decide)
  | vec4 => exact @hnamed " = " ";" (by decide) (by decide)
  | mat2 => exact @hnamed " = vec4(" "[0], 0.0, 1.0);" (by decide) (by decide)
  | mat3 => exact @hnamed " = vec4(" "[0], 1.0);" (by decide) (by decide)
  | mat4 => exact @hnamed " = vec4(" "[0].xyz, 1.0);" (by decide) (by decide)
  | _ =>
    exact isSolid_expand_output houtput
      (by decide : Comment.isSolid " = vec4(1.0, 0.0, 1.0, 1.0);".toList = true)

/-- The statement for a normalized value is solid. -/
lemma isSolid_normalizedTemplate (mode : Normalization) (houtput : Comment.isSolid output = true)
    (hvalue : Comment.isSolid value = true) {components : Nat} {template : Text}
    (h : ColorRule.normalizedTemplate? mode value components = some template) :
    Comment.isSolid (expand output value template) = true := by
  have hnamed : ∀ {front back : Text} {width : Nat} {v : Text}, width ∈ [1, 2, 3] →
      Comment.isSolid v = true → Comment.isSolid front = true → Comment.isSolid back = true →
      Comment.isSolid (expand output value
        ("\x7bout\x7d".toList ++ (front ++ mode.apply width v ++ back))) = true :=
    fun hwidth hv hfront hback => isSolid_expand_output houtput <| Comment.isSolid_append
      (Comment.isSolid_append hfront (isSolid_normalization mode hwidth hv)) hback
  unfold ColorRule.normalizedTemplate? at h
  split at h
  · obtain rfl := Option.some.inj h
    exact @hnamed " = vec4(vec3(" "), 1.0);" 1 value (by decide) hvalue (by decide) (by decide)
  · obtain rfl := Option.some.inj h
    exact @hnamed " = vec4(" ", 0.0, 1.0);" 2 value (by decide) hvalue (by decide) (by decide)
  · obtain rfl := Option.some.inj h
    exact @hnamed " = vec4(" ", 1.0);" 3 value (by decide) hvalue (by decide) (by decide)
  · obtain rfl := Option.some.inj h
    exact @hnamed " = vec4(" ", 1.0);" 3 (value ++ ".rgb") (by decide)
      (Comment.isSolid_append hvalue (by decide)) (by decide) (by decide)
  · exact absurd h (by simp)

/-- A number with a fixed number of places is solid. -/
lemma isSolid_fixed (x : Float) : Comment.isSolid (Decimal.fixed 4 x) = true := by
  refine Comment.isSolid_of_forall ?_ fun c hc hmem => ?_
  · unfold Decimal.fixed
    cases Decimal.Value.ofBits x.toBits.toNat with
    | finite negative mantissa exponent => simp [Decimal.Value.toFixed, Decimal.fixedText]
    | infinite negative => cases negative <;> decide
    | notANumber => decide
  · simp only [List.mem_cons, List.not_mem_nil, or_false] at hmem
    rcases hmem with rfl | rfl | rfl | rfl <;>
      exact absurd (Decimal.cases_of_mem_fixed hc) (by decide)

/-- **The lines that show a value leave no block and no comment open.** -/
theorem hasBraces_indented (options : ColorOptions) (type : Text)
    (houtput : output = [] ∨ Comment.isSolid output = true)
    (hvalue : Comment.isSolid value = true) :
    Comment.HasBraces (indented {} options output type value) 0 := by
  have hindent : ∀ {t : Text}, Comment.isSolid t = true →
      Comment.isSolid (({} : Config).indent ++ t) = true := fun ht =>
    Comment.isSolid_append (by decide) ht
  have hsolid : Comment.isSolid (if output.isEmpty then ({} : Config).output else output) = true := by
    rcases houtput with rfl | houtput
    · decide
    · rw [if_neg (by simpa using Comment.ne_nil_of_isSolid houtput)]
      exact houtput
  unfold indented
  generalize (if output.isEmpty then ({} : Config).output else output) = output at hsolid
  refine .of_forall fun l hl => ?_
  obtain ⟨statement, hstatement, rfl⟩ := List.mem_map.mp hl
  have hcases : statement = expand output value (templateFor options type value).1 ++
      " // Debug: ".toList ++ (templateFor options type value).2 ∨
      statement ∈ (options.stepEdge.map fun edge =>
        stepStatement output edge ++ " // Debug: step threshold".toList).toList :=
    List.mem_cons.mp hstatement
  rcases hcases with rfl | hstep
  · have htemplate : Comment.isSolid (expand output value (templateFor options type value).1) =
        true := by
      unfold templateFor
      dsimp only
      split
      · rename_i template htemplate
        split at htemplate
        · exact absurd htemplate (by simp)
        · exact isSolid_normalizedTemplate _ hsolid hvalue htemplate
      · exact isSolid_rule _ hsolid hvalue
    have hline := Comment.HasBraces.commented (hindent htemplate)
      (" Debug: ".toList ++ (templateFor options type value).2)
    simpa using hline
  · obtain ⟨edge, -, rfl⟩ := Option.map_eq_some_iff.mp (Option.mem_toList.mp hstep)
    have hthreshold : Comment.isSolid (stepStatement output edge) = true := by
      unfold stepStatement
      exact Comment.isSolid_append (Comment.isSolid_append (Comment.isSolid_append
        (Comment.isSolid_append (Comment.isSolid_append hsolid (by decide)) (isSolid_fixed edge))
          (by decide)) hsolid) (by decide)
    have hline := Comment.HasBraces.commented (hindent hthreshold) " Debug: step threshold"
    simpa using hline

end Visualization

/-! ### Synthesized calls -/

namespace CallArguments

/-- The name of a local is solid. -/
lemma isSolid_storage (position : Nat) :
    Comment.isSolid (({} : Config).storageStem ++ Text.ofNat position) = true := by
  refine Comment.isSolid_of_forall (List.cons_ne_nil _ _) fun c hc hmem => ?_
  have hcases : c ∈ ({} : Config).storageStem ∨ c.isDigit = true :=
    (List.mem_append.mp hc).imp_right fun hdigit =>
      Nat.isDigit_of_mem_toDigits (by decide) (by decide) hdigit
  simp only [List.mem_cons, List.not_mem_nil, or_false] at hmem
  rcases hmem with rfl | rfl | rfl | rfl <;> exact absurd hcases (by decide)

/-- An argument and the declaration of its local are quiet. -/
lemma isQuiet_argument {parameter : Parameter} (htype : Comment.isSolid parameter.type = true)
    {value : Option Text} (hvalue : ∀ v ∈ value, Comment.IsQuiet v) (position : Nat) :
    Comment.IsQuiet (argument {} position parameter value).text ∧
      ∀ storage ∈ (argument {} position parameter value).storage, Comment.IsQuiet storage := by
  have hname := isSolid_storage position
  have hdeclared : Comment.isSolid
      (parameter.type ++ " ".toList ++ (({} : Config).storageStem ++ Text.ofNat position)) = true :=
    Comment.isSolid_append (Comment.isSolid_append htype (by decide)) hname
  unfold argument
  dsimp only
  split
  · refine ⟨Comment.isQuiet_of_isSolid hname, fun storage h => ?_⟩
    obtain rfl := Option.some.inj h
    exact Comment.isQuiet_of_isSolid (Comment.isSolid_append hdeclared (by decide))
  · rename_i value
    have hown := hvalue value rfl
    split
    · refine ⟨Comment.isQuiet_of_isSolid hname, fun storage h => ?_⟩
      obtain rfl := Option.some.inj h
      have hfront := Comment.isSolid_append hdeclared
        (by decide : Comment.isSolid " = ".toList = true)
      exact (hown.isSolid_append hfront).append_isSolid (by decide)
    · exact ⟨hown, fun storage h => absurd h (by simp)⟩

/-- The arguments of a call and the declarations of their locals are quiet. -/
lemma isQuiet_argumentsFrom {overrides : Overrides} (hoverrides : AreQuiet overrides)
    {parameters : List Parameter} (hparameters : ∀ p ∈ parameters, p.IsPlain)
    (htypes : ∀ p ∈ parameters, Comment.isSolid p.type = true) (position visible : Nat) :
    ∀ a ∈ argumentsFrom {} overrides position visible parameters, Comment.IsQuiet a.text ∧
      ∀ storage ∈ a.storage, Comment.IsQuiet storage := by
  induction parameters generalizing position visible with
  | nil => exact fun a ha => absurd ha List.not_mem_nil
  | cons parameter parameters ih =>
    intro a ha
    rcases List.mem_cons.mp ha with rfl | ha
    · exact isQuiet_argument (htypes parameter List.mem_cons_self)
        (isQuiet_of_valueOf hoverrides (hparameters parameter List.mem_cons_self) visible) position
    · exact ih (fun p hp => hparameters p (List.mem_cons_of_mem _ hp))
        (fun p hp => htypes p (List.mem_cons_of_mem _ hp)) _ _ a ha

end CallArguments

namespace Variant

/-- **A synthesized entry point leaves no block and no comment open.** -/
theorem hasBraces_callingEntryPoint {settings : Settings} {callee type : Text}
    {parameters : List Parameter} (hoverrides : CallArguments.AreQuiet settings.overrides)
    (hparameters : ∀ p ∈ parameters, p.IsPlain)
    (htypes : ∀ p ∈ parameters, Comment.isSolid p.type = true)
    (hcallee : Comment.isSolid callee = true) (htype : Comment.isSolid type = true) :
    Comment.HasBraces (callingEntryPoint {} settings callee parameters type) 0 := by
  have harguments := CallArguments.isQuiet_argumentsFrom hoverrides hparameters htypes 0 0
  have hsetup : ∀ l ∈ (CallArguments.of {} parameters settings.overrides).setup,
      Comment.IsQuiet l := by
    intro l hl
    simp only [CallArguments.of, CallArguments.coordinates, List.mem_append] at hl
    rcases hl with (hl | hl) | hl
    · split at hl
      · rw [List.mem_singleton.mp hl]
        exact ⟨by decide, by decide⟩
      · exact absurd hl List.not_mem_nil
    · split at hl
      · rw [List.mem_singleton.mp hl]
        exact ⟨by decide, by decide⟩
      · exact absurd hl List.not_mem_nil
    · obtain ⟨a, ha, hstorage⟩ := List.mem_filterMap.mp hl
      exact (harguments a ha).2 l hstorage
  have hargs : Comment.IsQuiet (CallArguments.of {} parameters settings.overrides).text := by
    refine Comment.isQuiet_intercalate fun t ht => ?_
    obtain ⟨a, ha, rfl⟩ := List.mem_map.mp ht
    exact (harguments a ha).1
  have hcall : Comment.IsQuiet
      (type ++ " ".toList ++ ({} : Config).result ++ " = ".toList ++ callee ++
      "(".toList ++ (CallArguments.of {} parameters settings.overrides).text ++ ");".toList) := by
    have hfront : Comment.isSolid (type ++ " ".toList ++ ({} : Config).result ++ " = ".toList ++
        callee ++ "(".toList) = true :=
      Comment.isSolid_append (Comment.isSolid_append (Comment.isSolid_append
        (Comment.isSolid_append (Comment.isSolid_append htype (by decide)) (by decide))
          (by decide)) hcallee) (by decide)
    exact (hargs.isSolid_append hfront).append_isSolid (by decide)
  have hbody : Comment.HasBraces (((CallArguments.of {} parameters settings.overrides).setup ++
      [type ++ " ".toList ++ ({} : Config).result ++ " = ".toList ++ callee ++ "(".toList ++
        (CallArguments.of {} parameters settings.overrides).text ++ ");".toList]).map
          (({} : Config).indent ++ ·)) 0 := by
    refine .of_isQuiet fun l hl => ?_
    obtain ⟨statement, hstatement, rfl⟩ := List.mem_map.mp hl
    refine Comment.IsQuiet.isSolid_append ?_ (by decide)
    rcases List.mem_append.mp hstatement with hstatement | hstatement
    · exact hsetup statement hstatement
    · rw [List.mem_singleton.mp hstatement]
      exact hcall
  have hshown := Visualization.hasBraces_indented settings.options type (.inl rfl)
    (by decide : Comment.isSolid ({} : Config).result = true)
  have hheader : Comment.HasBraces [({} : Config).entryHeader] 1 := ⟨by decide, by decide⟩
  exact ((hheader.append hbody).append hshown).append (Comment.HasBraces.replicate 1)

/-- **A renamed header counts as before.** -/
theorem countsAs_renameHeader {type name : Text} (line : Text)
    (htype : Comment.isSolid type = true) (hname : Comment.isSolid name = true) :
    Comment.CountsAs line (renameHeader line type name) := by
  unfold renameHeader
  split
  · exact .refl line
  · rename_i header hheader
    obtain ⟨hident, hident'⟩ := Header.isIdent_of_read? hheader
    have hfirst := Comment.countsAs_exchange (Comment.isSolid_of_isIdent hident') htype header.lead
      (header.gap ++ (header.name ++ (header.tail ++ header.rest)))
    have hsecond := Comment.countsAs_exchange (Comment.isSolid_of_isIdent hident) hname
      (header.lead ++ (type ++ header.gap)) (header.tail ++ header.rest)
    rw [← Header.text_of_read? hheader]
    simp only [Header.text, List.append_assoc] at hfirst hsecond ⊢
    exact hfirst.trans hsecond

/-- Capturing a returned value keeps the lines in front of the statement. -/
lemma take_of_captureReturn {lines working : List Text} {line : Nat} {shown : Variable}
    {s : Statement} (hcapture : IsCapturable lines line shown)
    (hfind : Statement.find ({} : Config).maxStatementLines (Comment.strip lines) line =
      .ok (some s))
    (h : captureReturn {} lines line shown = .ok working) :
    working.take s.startLine = lines.take s.startLine := by
  rcases cases_of_captureReturn hcapture h with rfl | ⟨returned, hreturned, rfl⟩
  · rfl
  · have hstart : returned.startLine = s.startLine := by
      rw [ReturnStatement.find_of_find hfind] at hreturned
      obtain ⟨expression, -, rfl⟩ := Option.map_eq_some_iff.mp (Except.ok.inj hreturned)
      rfl
    refine List.ext_getElem? fun n => ?_
    rw [hstart, List.getElem?_take, List.getElem?_take]
    split
    · rename_i hn
      simp [hn.ne']
    · rfl

/-- **A captured `return` counts as before**, and the lines in front of its statement stay. -/
theorem forall₂_of_captureReturn {lines working : List Text} {line : Nat} {shown : Variable}
    {s : Statement} (hshown : shown.IsPlain) (htype : Comment.isSolid shown.type = true)
    (hcapture : IsCapturable lines line shown)
    (hfind : Statement.find ({} : Config).maxStatementLines (Comment.strip lines) line =
      .ok (some s))
    (h : captureReturn {} lines line shown = .ok working) :
    List.Forall₂ Comment.CountsAs lines working ∧
      working.take s.startLine = lines.take s.startLine := by
  refine ⟨?_, take_of_captureReturn hcapture hfind h⟩
  rcases cases_of_captureReturn hcapture h with rfl | ⟨returned, -, rfl⟩
  · exact List.forall₂_same.mpr fun l _ => .refl l
  · have hnew : Comment.isSolid (shown.type ++ " ".toList ++ shown.name ++ " =".toList) = true :=
      Comment.isSolid_append (Comment.isSolid_append (Comment.isSolid_append htype (by decide))
        (Comment.isSolid_of_isIdent hshown.name)) (by decide)
    have hexchange : ∀ l, Comment.CountsAs l
        (Text.replaceWord "return" (shown.type ++ " ".toList ++ shown.name ++ " =".toList) l) := by
      intro l
      unfold Text.replaceWord
      split
      · rename_i front rest hsplit
        have hword : Comment.isSolid "return".toList = true := by decide
        have hcounts := Comment.countsAs_exchange hword hnew front rest
        rwa [Text.append_of_splitAtWordFrom hsplit, ← List.append_assoc] at hcounts
      · exact .refl l
    exact Comment.forall₂_modify hexchange lines returned.startLine

end Variant

end ShaderProbe
