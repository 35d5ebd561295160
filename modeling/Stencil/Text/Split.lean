/-!
# Splitting at a mark

A text is split at the first occurrence of a mark: what stands before it, the mark and what
stands behind it make up the whole text.
-/

namespace Stencil
namespace Text

def afterMark? : (mark cs : List Char) → Option (List Char)
  | [], cs => some cs
  | _ :: _, [] => none
  | x :: mark, y :: rest => if x = y then afterMark? mark rest else none

/-- What stands before the first occurrence of `mark`, and what stands behind it. -/
def splitAt? (mark : List Char) : List Char → Option (List Char × List Char)
  | [] => none
  | x :: rest =>
      match afterMark? mark (x :: rest) with
      | some after => some ([], after)
      | none => (splitAt? mark rest).map fun (inside, after) => (x :: inside, after)

theorem append_of_afterMark? {mark cs after : List Char}
    (h : afterMark? mark cs = some after) : mark ++ after = cs := by
  induction mark generalizing cs with
  | nil =>
      cases h
      rfl
  | cons x mark ih =>
      cases cs with
      | nil => cases h
      | cons y rest =>
          rw [afterMark?] at h
          split at h
          · next same => rw [same, List.cons_append, ih h]
          · cases h

theorem append_of_splitAt? {mark cs inside after : List Char}
    (h : splitAt? mark cs = some (inside, after)) : inside ++ (mark ++ after) = cs := by
  induction cs generalizing inside with
  | nil => cases h
  | cons x rest ih =>
      rw [splitAt?] at h
      split at h
      · next found eq =>
          cases h
          rw [List.nil_append, append_of_afterMark? eq]
      · obtain ⟨parts, split, eq⟩ := Option.map_eq_some_iff.mp h
        cases eq
        rw [List.cons_append, ih split]

end Text

end Stencil
