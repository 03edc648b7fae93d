import Mathlib
import ShaderProbe.Proofs.Stretch
import ShaderProbe.Proofs.TypeScope

/-!
# Brackets that match

A bracket is closed by the first closing one at which as many have been closed as opened.  What
stands between the two keeps the bracket open and closes all that it opens itself
(`Text.closingFrom_eq_some_iff`), and a bracket that is not closed is kept open by all that follows
(`Text.closingFrom_eq_none_iff`).  For braces this is said with `Text.KeepsOpen`, for parentheses
with `Text.isBalanced`.

The place of a bracket cuts the code in two (`Position.Cuts`), and the places of the offsets of a
flat text do so where the offsets cut the text (`FlatText.cuts_locate`).
-/

namespace ShaderProbe

namespace Text

variable {opening closing : Char} {d : Int} {t u : Text} {n : Nat}

/-- At the bracket that closes the depth is gone. -/
lemma count_of_closingFrom (hne : opening ≠ closing)
    (h : closingFrom opening closing d t = some n) :
    d + (t.take n).count opening - (t.take n).count closing = 1 := by
  induction t generalizing d n with
  | nil => exact absurd h (by simp [closingFrom])
  | cons c t ih =>
    rw [closingFrom] at h
    split at h
    · rename_i hopen
      subst hopen
      obtain ⟨m, hm, rfl⟩ := Option.map_eq_some_iff.mp h
      have := ih hm
      rw [List.take_succ_cons, List.count_cons_self, List.count_cons_of_ne hne]
      push_cast
      omega
    · rename_i hopen
      split at h
      · rename_i hclose
        subst hclose
        split at h
        · rename_i hone
          obtain rfl := Option.some.inj h
          simp [hone]
        · obtain ⟨m, hm, rfl⟩ := Option.map_eq_some_iff.mp h
          have := ih hm
          rw [List.take_succ_cons, List.count_cons_self, List.count_cons_of_ne hopen]
          push_cast
          omega
      · rename_i hclose
        obtain ⟨m, hm, rfl⟩ := Option.map_eq_some_iff.mp h
        rw [List.take_succ_cons, List.count_cons_of_ne hopen, List.count_cons_of_ne hclose]
        exact ih hm

/-- The place of a bracket that closes lies in the text. -/
lemma lt_length_of_closingFrom (h : closingFrom opening closing d t = some n) : n < t.length := by
  obtain ⟨a, u, rfl, rfl, -⟩ := exists_of_closingFrom h
  rw [List.length_append, List.length_cons]
  omega

/-- **A bracket is not closed exactly if every front of the text keeps it open.** -/
lemma closingFrom_eq_none_iff (hne : opening ≠ closing) (hd : 1 ≤ d) :
    closingFrom opening closing d t = none ↔
      ∀ front, front <+: t → 0 < d + front.count opening - front.count closing := by
  constructor
  · rintro h front ⟨rest, rfl⟩
    by_contra hle
    obtain ⟨m, hm⟩ := exists_closingFrom hne hd (t := front) (by omega)
    rw [closingFrom_append_of_some hm] at h
    exact absurd h (by simp)
  · intro h
    cases hclose : closingFrom opening closing d t with
    | none => rfl
    | some m =>
      -- the front with the closing bracket closes everything
      obtain ⟨a, u, rfl, rfl, -⟩ := exists_of_closingFrom hclose
      have hcount := count_of_closingFrom hne hclose
      rw [List.take_left' rfl] at hcount
      have hfront := h (a ++ [closing]) ⟨u, by simp⟩
      rw [List.count_append, List.count_append, List.count_singleton_self,
        List.count_singleton, if_neg (by simpa using hne.symm)] at hfront
      push_cast at hfront
      omega

/-- **A bracket is closed by the first bracket at which the depth is gone.** -/
lemma closingFrom_eq_some_iff (hne : opening ≠ closing) (hd : 1 ≤ d) :
    closingFrom opening closing d t = some n ↔
      ∃ body rest, t = body ++ closing :: rest ∧ n = body.length ∧
        (∀ front, front <+: body → 0 < d + front.count opening - front.count closing) ∧
        d + body.count opening - body.count closing = 1 := by
  constructor
  · intro h
    obtain ⟨body, rest, rfl, rfl, hshort⟩ := exists_of_closingFrom h
    have hcount := count_of_closingFrom hne h
    rw [List.take_left' rfl] at hcount
    refine ⟨body, rest, rfl, rfl, ?_, hcount⟩
    -- a bracket that closes inside the front would be the first one
    refine (closingFrom_eq_none_iff hne hd).mp ?_
    cases hclose : closingFrom opening closing d body with
    | none => rfl
    | some m =>
      have hlt := lt_length_of_closingFrom hclose
      rw [closingFrom_append_of_some hclose, Option.some.injEq] at hshort
      omega
  · rintro ⟨body, rest, rfl, rfl, hfront, hcount⟩
    exact closingFrom_append hne body rest d hfront hcount

/-! ### Braces and parentheses -/

/-- A brace is closed behind a text that keeps it open and closes all that it opens. -/
lemma closingBrace?_eq_some_iff :
    closingBrace? ('{' :: u) = some n ↔
      ∃ body rest, u = body ++ '}' :: rest ∧ n = body.length + 1 ∧ KeepsOpen body ∧
        braceDelta body = 0 := by
  have hdelta : ∀ t : Text, (1 : Int) + t.count '{' - t.count '}' = 1 + braceDelta t := by
    intro t
    rw [braceDelta]
    ring
  rw [closingBrace?, closingFrom, if_pos rfl, zero_add, Option.map_eq_some_iff]
  constructor
  · rintro ⟨m, hm, rfl⟩
    obtain ⟨body, rest, hu, rfl, hfront, hcount⟩ :=
      (closingFrom_eq_some_iff (by decide) le_rfl).mp hm
    refine ⟨body, rest, hu, rfl, fun front hf => ?_, ?_⟩
    · have := hfront front hf
      rw [hdelta] at this
      omega
    · rw [hdelta] at hcount
      omega
  · rintro ⟨body, rest, hu, rfl, hopen, hcount⟩
    refine ⟨body.length, (closingFrom_eq_some_iff (by decide) le_rfl).mpr
      ⟨body, rest, hu, rfl, fun front hf => ?_, ?_⟩, rfl⟩
    · have := hopen front hf
      rw [hdelta]
      omega
    · rw [hdelta]
      omega

/-- A brace is not closed exactly if what follows keeps it open. -/
lemma closingBrace?_eq_none_iff : closingBrace? ('{' :: u) = none ↔ KeepsOpen u := by
  rw [closingBrace?, closingFrom, if_pos rfl, zero_add, Option.map_eq_none_iff,
    closingFrom_eq_none_iff (by decide) le_rfl]
  refine forall_congr' fun front => imp_congr_right fun _ => ?_
  rw [braceDelta]
  omega

/-- A parenthesis is closed behind a balanced text. -/
lemma closingParen?_eq_some_iff :
    closingParen? ('(' :: u) = some n ↔
      ∃ group rest, u = group ++ ')' :: rest ∧ n = group.length + 1 ∧ isBalanced group = true := by
  rw [closingParen?, closingFrom, if_pos rfl, zero_add, Option.map_eq_some_iff]
  constructor
  · rintro ⟨m, hm, rfl⟩
    obtain ⟨group, rest, hu, rfl, hfront, hcount⟩ :=
      (closingFrom_eq_some_iff (by decide) le_rfl).mp hm
    refine ⟨group, rest, hu, rfl, isBalanced_iff.mpr ⟨by omega, fun front hf => ?_⟩⟩
    have := hfront front hf
    omega
  · rintro ⟨group, rest, hu, rfl, hbalanced⟩
    obtain ⟨hcount, hfront⟩ := isBalanced_iff.mp hbalanced
    refine ⟨group.length, (closingFrom_eq_some_iff (by decide) le_rfl).mpr
      ⟨group, rest, hu, rfl, fun front hf => ?_, by omega⟩, rfl⟩
    have := hfront front hf
    omega

end Text

/-! ### Places of the code -/

/-- The code from a line on is cut at a place: `front` stands in front of the place, and `back` is
what is read from the place on. -/
def Position.Cuts (code : List Text) (start : Nat) (place : Position) (front back : Text) : Prop :=
  start ≤ place.line ∧ ∃ l, code[place.line]? = some l ∧ place.column ≤ l.length ∧
    front = Text.ofLines ((code.take place.line).drop start ++ [l.take place.column]) ∧
    back = Text.ofLines (l.drop place.column :: code.drop (place.line + 1))

/-- The first line of some lines is cut on its own. -/
lemma Text.drop_ofLines_cons {l : Text} {column : Nat} (h : column ≤ l.length) (ls : List Text) :
    (ofLines (l :: ls)).drop column = ofLines (l.drop column :: ls) := by
  cases ls with
  | nil => rw [ofLines_singleton, ofLines_singleton]
  | cons l' ls =>
    rw [ofLines_cons_cons, ofLines_cons_cons, List.drop_append_of_le_length h]

/-- **The place of a character of a flat text cuts the code where the character is.** -/
lemma FlatText.cuts_locate {code : List Text} {start o : Nat} {c : Char}
    (hc : (Text.ofLines (code.drop start))[o]? = some c) (hink : isBlank c = false) :
    ((⟨code.drop start, start⟩ : FlatText).locate o).Cuts code start
      ((Text.ofLines (code.drop start)).take o) ((Text.ofLines (code.drop start)).drop o) := by
  obtain ⟨n, l, column, hl, hget, rfl, hlocate⟩ := exists_locate_of_ink hc hink start
  have hcolumn : column ≤ l.length := (List.getElem?_eq_some_iff.mp hget).1.le
  have hline : code[start + n]? = some l := by rw [← List.getElem?_drop, hl]
  obtain ⟨htake, hdrop⟩ := take_drop_ofLines hl hcolumn
  have hrest : (code.drop start).drop n = l :: code.drop (start + n + 1) := by
    obtain ⟨hlt, hget⟩ := List.getElem?_eq_some_iff.mp hline
    rw [List.drop_drop, List.drop_eq_getElem_cons hlt, hget]
  rw [hlocate]
  refine ⟨Nat.le_add_right _ _, l, hline, hcolumn, ?_, ?_⟩
  · rw [htake, List.drop_take, Nat.add_sub_cancel_left]
  · rw [← List.drop_drop, hdrop, hrest, Text.drop_ofLines_cons hcolumn]

end ShaderProbe
