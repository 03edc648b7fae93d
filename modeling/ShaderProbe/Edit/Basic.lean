import ShaderProbe.Text.Basic

/-!
# Edits

An edit puts new text into lines and takes nothing away.  A list of edits is applied at once: every
edit refers to the lines as they are before any of them.  Edits at one place appear in the order of
the list.
-/

namespace ShaderProbe

/-- A text that is put into lines. -/
inductive Edit where
  /-- A line of its own in front of a line. -/
  | lineBefore (line : Nat) (text : Text)
  /-- A line of its own after a line. -/
  | lineAfter (line : Nat) (text : Text)
  /-- A text in front of the character at a column of a line. -/
  | inline (line column : Nat) (text : Text)
  deriving DecidableEq

namespace Edit

/-- The line that the edit puts in front of a line. -/
def before? (line : Nat) : Edit → Option Text
  | lineBefore place text => if place = line then some text else none
  | _ => none

/-- The line that the edit puts after a line. -/
def after? (line : Nat) : Edit → Option Text
  | lineAfter place text => if place = line then some text else none
  | _ => none

/-- Column and text of an edit inside a line. -/
def inside? (line : Nat) : Edit → Option (Nat × Text)
  | inline place column text => if place = line then some (column, text) else none
  | _ => none

/-- A line from a column on, with texts put in front of its columns.  Texts for columns past the end
come at the end. -/
def weave (inserts : List (Nat × Text)) (column : Nat) : Text → Text
  | [] => ((inserts.filter fun insert => column ≤ insert.1).map Prod.snd).flatten
  | c :: t =>
    ((inserts.filter fun insert => insert.1 = column).map Prod.snd).flatten ++
      c :: weave inserts (column + 1) t

/-- The lines that a line becomes. -/
def applyLine (edits : List Edit) (line : Nat) (text : Text) : List Text :=
  edits.filterMap (before? line) ++ weave (edits.filterMap (inside? line)) 0 text ::
    edits.filterMap (after? line)

/-- The lines after the edits. -/
def apply (edits : List Edit) (lines : List Text) : List Text :=
  (lines.mapIdx fun line text => applyLine edits line text).flatten

@[simp] theorem weave_nil (column : Nat) (t : Text) : weave [] column t = t := by
  induction t generalizing column with
  | nil => rfl
  | cons c t ih => simp [weave, ih]

/-- Without edits the lines stay as they are. -/
@[simp] theorem apply_nil (lines : List Text) : apply [] lines = lines := by
  have h : ∀ line text, applyLine [] line text = [text] := by simp [applyLine]
  simp only [apply, h]
  induction lines with
  | nil => rfl
  | cons l ls ih => simpa using ih

end Edit

end ShaderProbe
