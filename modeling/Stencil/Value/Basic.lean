import Stencil.Dictionary
import Stencil.Integer

/-!
# Values

What a template computes with.  The entries of a map are meant to be in increasing order of their
keys; `ofEntries` is the way to build one.  Two values are the same when they have the same shape
and the same parts.
-/

namespace Stencil

inductive Value where
  | null
  | bool (value : Bool)
  | int (value : Int64)
  | str (value : String)
  | list (items : List Value)
  | map (entries : List (String × Value))
deriving Inhabited

inductive Kind where
  | null
  | boolean
  | integer
  | string
  | list
  | map
deriving DecidableEq, Repr

namespace Kind

def text : Kind → String
  | null => "null"
  | boolean => "boolean"
  | integer => "integer"
  | string => "string"
  | list => "list"
  | map => "map"

end Kind

namespace Value

def ofEntries (entries : List (String × Value)) : Value :=
  map (Entries.ofList entries)

def kind : Value → Kind
  | null => .null
  | bool _ => .boolean
  | int _ => .integer
  | str _ => .string
  | list _ => .list
  | map _ => .map

/-- Only null and false count as false. -/
def isTrue : Value → Bool
  | null => false
  | bool value => value
  | _ => true

def isNull : Value → Bool
  | null => true
  | _ => false

def int? : Value → Option Int64
  | int value => some value
  | _ => none

/-!
## Order of keys
-/

mutual

/-- Every map inside has its keys in increasing order. -/
def WellFormed : Value → Prop
  | list items => AllWellFormed items
  | map entries => Entries.Sorted entries ∧ EntriesWellFormed entries
  | _ => True

def AllWellFormed : List Value → Prop
  | [] => True
  | item :: rest => WellFormed item ∧ AllWellFormed rest

def EntriesWellFormed : List (String × Value) → Prop
  | [] => True
  | (_, value) :: rest => WellFormed value ∧ EntriesWellFormed rest

end

/-!
## Sameness
-/

mutual

def same : Value → Value → Bool
  | null, null => true
  | bool a, bool b => a == b
  | int a, int b => a == b
  | str a, str b => a == b
  | list xs, list ys => sameItems xs ys
  | map xs, map ys => sameEntries xs ys
  | _, _ => false

def sameItems : List Value → List Value → Bool
  | [], [] => true
  | x :: xs, y :: ys => same x y && sameItems xs ys
  | _, _ => false

def sameEntries : List (String × Value) → List (String × Value) → Bool
  | [], [] => true
  | (k, x) :: xs, (l, y) :: ys => k == l && same x y && sameEntries xs ys
  | _, _ => false

end

mutual

theorem eq_of_same (x y : Value) (h : same x y = true) : x = y := by
  cases x with
  | null =>
      cases y with
      | null => rfl
      | _ => cases h
  | bool a =>
      cases y with
      | bool b => exact congrArg bool (eq_of_beq h)
      | _ => cases h
  | int a =>
      cases y with
      | int b => exact congrArg int (eq_of_beq h)
      | _ => cases h
  | str a =>
      cases y with
      | str b => exact congrArg str (eq_of_beq h)
      | _ => cases h
  | list xs =>
      cases y with
      | list ys => exact congrArg list (eq_of_sameItems xs ys h)
      | _ => cases h
  | map xs =>
      cases y with
      | map ys => exact congrArg map (eq_of_sameEntries xs ys h)
      | _ => cases h

theorem eq_of_sameItems (xs ys : List Value) (h : sameItems xs ys = true) : xs = ys := by
  cases xs with
  | nil =>
      cases ys with
      | nil => rfl
      | cons y ys => cases h
  | cons x xs =>
      cases ys with
      | nil => cases h
      | cons y ys =>
          have ⟨head, tail⟩ := (Bool.and_eq_true _ _).mp h
          rw [eq_of_same x y head, eq_of_sameItems xs ys tail]

theorem eq_of_sameEntries (xs ys : List (String × Value)) (h : sameEntries xs ys = true) :
    xs = ys := by
  cases xs with
  | nil =>
      cases ys with
      | nil => rfl
      | cons y ys => cases h
  | cons x xs =>
      cases ys with
      | nil => cases h
      | cons y ys =>
          obtain ⟨k, x⟩ := x
          obtain ⟨l, y⟩ := y
          have ⟨front, tail⟩ := (Bool.and_eq_true _ _).mp h
          have ⟨keys, values⟩ := (Bool.and_eq_true _ _).mp front
          rw [eq_of_beq keys, eq_of_same x y values, eq_of_sameEntries xs ys tail]

end

mutual

theorem same_self (x : Value) : same x x = true := by
  cases x with
  | null => rfl
  | bool a => exact beq_self_eq_true a
  | int a => exact beq_self_eq_true a
  | str a => exact beq_self_eq_true a
  | list xs => exact sameItems_self xs
  | map xs => exact sameEntries_self xs

theorem sameItems_self (xs : List Value) : sameItems xs xs = true := by
  cases xs with
  | nil => rfl
  | cons x xs => exact (Bool.and_eq_true _ _).mpr ⟨same_self x, sameItems_self xs⟩

theorem sameEntries_self (xs : List (String × Value)) : sameEntries xs xs = true := by
  cases xs with
  | nil => rfl
  | cons x xs =>
      obtain ⟨k, x⟩ := x
      exact (Bool.and_eq_true _ _).mpr
        ⟨(Bool.and_eq_true _ _).mpr ⟨beq_self_eq_true k, same_self x⟩, sameEntries_self xs⟩

end

theorem same_iff {x y : Value} : same x y = true ↔ x = y :=
  ⟨eq_of_same x y, fun h => h ▸ same_self x⟩

instance : DecidableEq Value := fun _ _ =>
  decidable_of_iff _ same_iff

end Value

end Stencil
