import Stencil.Value.Basic

/-!
# Methods

The methods that values have.  A method is found by its name among those that accept the kind of
the receiver; null has none.
-/

namespace Stencil

inductive Method where
  | size
  | isEmpty
  | get
  | contains
  | containsKey
  | keySet
  | values
  | length
  | toUpperCase
  | toLowerCase
  | trim
  | toString
deriving DecidableEq, Repr

namespace Method

def all : List Method :=
  [size, isEmpty, get, contains, containsKey, keySet, values, length, toUpperCase, toLowerCase,
    trim, toString]

def name : Method → String
  | size => "size"
  | isEmpty => "isEmpty"
  | get => "get"
  | contains => "contains"
  | containsKey => "containsKey"
  | keySet => "keySet"
  | values => "values"
  | length => "length"
  | toUpperCase => "toUpperCase"
  | toLowerCase => "toLowerCase"
  | trim => "trim"
  | toString => "toString"

def arity : Method → Nat
  | get | contains | containsKey => 1
  | _ => 0

def accepts : Method → Kind → Bool
  | size, .list | size, .map => true
  | isEmpty, .list | isEmpty, .map | isEmpty, .string => true
  | get, .list | get, .map => true
  | contains, .list => true
  | containsKey, .map | keySet, .map | values, .map => true
  | length, .string | toUpperCase, .string | toLowerCase, .string | trim, .string => true
  | toString, kind => kind ≠ .null
  | _, _ => false

def find? (receiver : Kind) (name : String) : Option Method :=
  all.find? fun method => method.name = name && method.accepts receiver

theorem mem_all (method : Method) : method ∈ all := by
  cases method <;> decide

theorem name_injective {a b : Method} (h : a.name = b.name) : a = b := by
  revert h
  cases a <;> cases b <;> decide

theorem find?_eq_some_iff {receiver : Kind} {name : String} {method : Method} :
    find? receiver name = some method ↔ method.name = name ∧ method.accepts receiver = true := by
  constructor
  · intro h
    have found := List.find?_some h
    rw [Bool.and_eq_true, decide_eq_true_eq] at found
    exact found
  · rintro ⟨same, accepted⟩
    cases h : find? receiver name with
    | none =>
        have missed := List.find?_eq_none.mp h method (mem_all method)
        rw [Bool.and_eq_true, decide_eq_true_eq] at missed
        exact absurd ⟨same, accepted⟩ missed
    | some other =>
        have found := List.find?_some h
        rw [Bool.and_eq_true, decide_eq_true_eq] at found
        exact congrArg some (name_injective (found.1.trans same.symm))

theorem accepts_null (method : Method) : method.accepts .null = false := by
  cases method <;> rfl

end Method

end Stencil
