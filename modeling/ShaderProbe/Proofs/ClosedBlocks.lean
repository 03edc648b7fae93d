import Mathlib
import ShaderProbe.Proofs.CommentReading

/-!
# Closing exactly what is open

Closing the open blocks of lines fails exactly if the code closes more blocks than it opens, and
otherwise adds one closing brace for every block that is open (`Balance.close_iff_netBraces`).  The
added braces are code unless a block comment is open at the end of the lines.
-/

namespace ShaderProbe

/-- A block comment is open at the end of the lines. -/
def Comment.EndsOpen (ls : List Text) : Prop := ∃ o, Reads (stream ls) o true

/-- The flag that is followed over the lines says whether a block comment is open at their end. -/
lemma Comment.endsOpen_iff {ls : List Text} : EndsOpen ls ↔ isOpenAfter false ls = true := by
  have hread := reads_stream ls
  constructor
  · rintro ⟨o, ho⟩
    exact (hread.unique ho).2
  · intro hopen
    rw [hopen] at hread
    exact ⟨_, hread⟩

namespace Balance

variable {lines : List Text} {start : Nat}

/-- The opening braces minus the closing braces of the code from a line on. -/
def netBraces (lines : List Text) (start : Nat) : Int :=
  (((Comment.strip lines).drop start).flatten.count '{' : Int) -
    ((Comment.strip lines).drop start).flatten.count '}'

/-- The blocks that the code leaves open are counted by its braces. -/
lemma openBlocks_eq_netBraces (lines : List Text) (start : Nat) :
    openBlocks lines start = netBraces lines start := by
  have hflatten : ∀ code : List Text, Text.bracesOf code = Text.braceDelta code.flatten := by
    intro code
    induction code with
    | nil => rfl
    | cons l ls ih => rw [Text.bracesOf_cons, ih, List.flatten_cons, Text.braceDelta_append]
  exact hflatten _

/-- Closing fails exactly if the code closes more blocks than it opens. -/
lemma close_eq_error_iff {e : Error} :
    close lines start = .error e ↔ netBraces lines start < 0 ∧
      e = .unbalancedBraces (netBraces lines start).natAbs start := by
  rw [close, openBlocks_eq_netBraces]
  split
  · rename_i hdepth
    simp only [Except.error.injEq, hdepth, true_and]
    exact eq_comm
  · rename_i hdepth
    simp [hdepth]

/-- Closing adds one closing brace for every block that is open. -/
lemma close_of_netBraces {d : Nat} (h : netBraces lines start = d) :
    close lines start = .ok (lines ++ List.replicate d ['}']) :=
  close_eq_ok_iff.mpr ⟨d, by rw [openBlocks_eq_netBraces, h], rfl⟩

/-- The closing braces that are added close all blocks, unless they lie in a block comment. -/
lemma netBraces_of_close {d : Nat} (h : netBraces lines start = d) :
    netBraces (lines ++ List.replicate d ['}']) start =
      if Comment.isOpenAfter false lines then (d : Int) else 0 := by
  obtain ⟨n, hresult, hopen⟩ := openBlocks_of_close (close_of_netBraces h)
  obtain rfl : d = n := by
    have hlength := congrArg List.length hresult
    simpa using hlength
  rw [← openBlocks_eq_netBraces, hopen, Comment.isOpenAfter_append, isOpenAfter_replicate]

/-- **Closing is exact.**  It is refused, with the line that it counts from, exactly if the code
from there on closes more blocks than it opens.  Otherwise it adds one closing brace for each of the
`d` blocks that are open.  Then no block is open exactly if there was none or no block comment is
open at the end of the lines, and in the latter case closing again adds nothing. -/
theorem close_iff_netBraces (lines : List Text) (start : Nat) :
    (∀ e, close lines start = .error e ↔ netBraces lines start < 0 ∧
      e = .unbalancedBraces (netBraces lines start).natAbs start) ∧
    ∀ d : Nat, netBraces lines start = d →
      close lines start = .ok (lines ++ List.replicate d ['}']) ∧
      (netBraces (lines ++ List.replicate d ['}']) start = 0 ↔
        d = 0 ∨ ¬Comment.EndsOpen lines) ∧
      (¬Comment.EndsOpen lines →
        close (lines ++ List.replicate d ['}']) start =
          .ok (lines ++ List.replicate d ['}'])) := by
  refine ⟨fun e => close_eq_error_iff, fun d hd => ⟨close_of_netBraces hd, ?_, fun hclosed => ?_⟩⟩
  · rw [netBraces_of_close hd, Comment.endsOpen_iff]
    split
    · rename_i hopen
      simp [hopen]
    · rename_i hopen
      simp [hopen]
  · rw [Comment.endsOpen_iff] at hclosed
    have hnone := netBraces_of_close hd
    rw [if_neg hclosed] at hnone
    simpa using close_of_netBraces (d := 0) hnone

/-- Two blocks are open from line 1 on, behind a line that closes one and behind a comment with
braces in it; the two added braces close them. -/
theorem close_iff_netBraces_two :
    let lines : List Text := ["\x7d \x7b", "void f() \x7b /* \x7d",
      "\x7d */ if (a) \x7b", "  b = 1.0; // \x7d"]
    netBraces lines 1 = 2 ∧ ¬Comment.EndsOpen lines ∧
      close lines 1 = .ok (lines ++ [['}'], ['}']]) ∧
      netBraces (lines ++ [['}'], ['}']]) 1 = 0 ∧
      close (lines ++ [['}'], ['}']]) 1 = .ok (lines ++ [['}'], ['}']]) := by
  intro lines
  have hnet : netBraces lines 1 = (2 : Nat) := by decide
  have hclosed : ¬Comment.EndsOpen lines := by
    rw [Comment.endsOpen_iff]
    decide
  obtain ⟨hclose, hbalanced, hagain⟩ := (close_iff_netBraces lines 1).2 2 hnet
  exact ⟨hnet, hclosed, hclose, hbalanced.mpr (.inr hclosed), hagain hclosed⟩

end Balance

end ShaderProbe
