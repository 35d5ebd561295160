import Stencil.Value.Basic

/-!
# Host values

How the values of a host program become template values.  Integer types that fit into 64 signed
bits convert without loss, and an absent value becomes null.
-/

namespace Stencil

class ToValue (α : Type) where
  toValue : α → Value

export ToValue (toValue)

instance : ToValue Value := ⟨id⟩

instance : ToValue Bool := ⟨.bool⟩

instance : ToValue String := ⟨.str⟩

instance : ToValue Int64 := ⟨.int⟩

instance : ToValue Int32 := ⟨fun n => .int n.toInt64⟩

instance : ToValue UInt32 := ⟨fun n => .int (Int64.ofNat n.toNat)⟩

instance : ToValue UInt8 := ⟨fun n => .int (Int64.ofNat n.toNat)⟩

instance [ToValue α] : ToValue (Option α) where
  toValue
    | some a => toValue a
    | none => .null

instance [ToValue α] : ToValue (List α) where
  toValue items := .list (items.map toValue)

/-- Entries become a map; of equal keys the last one counts. -/
def Value.ofPairs [ToValue α] (pairs : List (String × α)) : Value :=
  .ofEntries (pairs.map fun pair => (pair.1, toValue pair.2))

instance [ToValue α] : ToValue (Dictionary α) where
  toValue dictionary := .ofPairs dictionary.entries

end Stencil
