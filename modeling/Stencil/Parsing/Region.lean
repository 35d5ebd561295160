import Stencil.Parsing.Reading
import Stencil.Text.Split

/-!
# Opaque regions

Comments and quoted blocks: nothing inside them is read, and they end at the first occurrence of
their closing mark.
-/

namespace Stencil

namespace Cursor

/-- Moves behind the first occurrence of `mark` and gives what stands before it. -/
def splitAt? (mark : List Char) (c : Cursor) :
    Option (List Char × { r : Cursor // r.size ≤ c.size }) :=
  match h : Text.splitAt? mark c.remaining with
  | none => none
  | some (inside, after) =>
      some (inside, ⟨⟨c.resource, after, c.line + newlines (inside ++ mark)⟩, by
        have whole := congrArg List.length (Text.append_of_splitAt? h)
        rw [List.length_append, List.length_append] at whole
        change after.length ≤ c.remaining.length
        omega⟩)

def finish (c : Cursor) : Cursor :=
  ⟨c.resource, [], c.line + newlines c.remaining⟩

theorem size_finish_le (c : Cursor) : c.finish.size ≤ c.size :=
  Nat.zero_le _

/-- Moves behind the first occurrence of `mark`, or to the end if there is none. -/
def skipPast (mark : List Char) (c : Cursor) : Cursor :=
  match c.splitAt? mark with
  | some (_, r) => r.1
  | none => c.finish

theorem size_skipPast_le (mark : List Char) (c : Cursor) : (c.skipPast mark).size ≤ c.size := by
  rw [skipPast]
  split
  · next r _ => exact r.2
  · exact c.size_finish_le

end Cursor

end Stencil
