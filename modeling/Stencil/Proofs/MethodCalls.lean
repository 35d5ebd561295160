import Stencil.Value.Access

/-!
# Method calls

A call goes through three tables: which methods a kind of values has, how many arguments a method
takes, and what it does with a receiver and its arguments.  They fit together, so a call that is
found and has the right number of arguments always comes to something, and only an access by index
can still fail then.
-/

namespace Stencil
namespace Value

/-!
## Dispatch
-/

/-- The call has a case and the argument that the case asks for, and unless it is an access by index
it gives a value. -/
structure Settles (receiver : Value) (method : Method) (args : List Value) : Prop where
  dispatch_eq : dispatch receiver method args = .outcome (invoke receiver method args)
  exists_value : method ≠ .get -> ∃ value, invoke receiver method args = .ok value

variable {receiver : Value} {method : Method} {args : List Value}

theorem settles_of_accepts (haccepts : method.accepts receiver.kind = true)
    (hlength : args.length = method.arity) : Settles receiver method args := by
  cases receiver with
  | null =>
      rw [kind, Method.accepts_null] at haccepts
      cases haccepts
  | bool value =>
      cases method with
      | toString =>
          cases List.length_eq_zero_iff.mp hlength
          exact ⟨rfl, fun _ => ⟨_, rfl⟩⟩
      | _ => cases haccepts
  | int value =>
      cases method with
      | toString =>
          cases List.length_eq_zero_iff.mp hlength
          exact ⟨rfl, fun _ => ⟨_, rfl⟩⟩
      | _ => cases haccepts
  | str value =>
      cases method with
      | isEmpty | length | toUpperCase | toLowerCase | trim | toString =>
          cases List.length_eq_zero_iff.mp hlength
          exact ⟨rfl, fun _ => ⟨_, rfl⟩⟩
      | _ => cases haccepts
  | list items =>
      cases method with
      | size | isEmpty | toString =>
          cases List.length_eq_zero_iff.mp hlength
          exact ⟨rfl, fun _ => ⟨_, rfl⟩⟩
      | contains =>
          rcases List.length_eq_one_iff.mp hlength with ⟨value, rfl⟩
          exact ⟨rfl, fun _ => ⟨_, rfl⟩⟩
      | get =>
          rcases List.length_eq_one_iff.mp hlength with ⟨key, rfl⟩
          exact ⟨rfl, fun hget => absurd rfl hget⟩
      | _ => cases haccepts
  | map entries =>
      cases method with
      | size | isEmpty | keySet | values | toString =>
          cases List.length_eq_zero_iff.mp hlength
          exact ⟨rfl, fun _ => ⟨_, rfl⟩⟩
      | containsKey =>
          rcases List.length_eq_one_iff.mp hlength with ⟨key, rfl⟩
          exact ⟨rfl, fun _ => ⟨_, rfl⟩⟩
      | get =>
          rcases List.length_eq_one_iff.mp hlength with ⟨key, rfl⟩
          exact ⟨rfl, fun hget => absurd rfl hget⟩
      | _ => cases haccepts

end Value

/-!
## Causes
-/

/-- Whether the call itself is to blame, and not the values that it is made with. -/
def EvalError.BlamesCall : EvalError → Prop
  | noSuchMethod _ _ | wrongArgumentCount _ _ => True
  | _ => False

namespace Value

variable {receiver target key : Value} {method : Method} {name : String} {args : List Value}
  {cause : EvalError}

theorem not_blamesCall_of_item {items : List Value} {place : Int64}
    (h : item items place = .error cause) : ¬ cause.BlamesCall := by
  rw [item] at h
  split at h
  · split at h
    · cases h
    · cases h
      exact id
  · cases h
    exact id

theorem not_blamesCall_of_index (h : index target key = .error cause) : ¬ cause.BlamesCall := by
  cases target with
  | list items =>
      cases key with
      | int place => exact not_blamesCall_of_item h
      | _ =>
          cases h
          exact id
  | map entries => cases h
  | _ =>
      cases h
      exact id

theorem Settles.not_blamesCall (hsettles : Settles receiver method args)
    (hlength : args.length = method.arity) (h : invoke receiver method args = .error cause) :
    ¬ cause.BlamesCall := by
  by_cases hget : method = .get
  · subst hget
    rcases List.length_eq_one_iff.mp hlength with ⟨key, rfl⟩
    exact not_blamesCall_of_index h
  · rcases hsettles.exists_value hget with ⟨value, hvalue⟩
    rw [hvalue] at h
    cases h

/-!
## Calls by name
-/

theorem call_of_none (h : Method.find? receiver.kind name = none) :
    call receiver name args = .error (.noSuchMethod name receiver.kind) := by
  rw [call, h]

theorem call_of_ne (h : Method.find? receiver.kind name = some method)
    (hlength : args.length ≠ method.arity) :
    call receiver name args = .error (.wrongArgumentCount method args.length) := by
  rw [call, h]
  exact if_neg hlength

theorem call_of_eq (h : Method.find? receiver.kind name = some method)
    (hlength : args.length = method.arity) :
    call receiver name args = invoke receiver method args := by
  rw [call, h]
  exact if_pos hlength

theorem call_method (haccepts : method.accepts receiver.kind = true)
    (hlength : args.length = method.arity) :
    call receiver method.name args = invoke receiver method args :=
  call_of_eq (Method.find?_eq_some_iff.mpr ⟨rfl, haccepts⟩) hlength

theorem blamesCall_call (h : call receiver name args = .error cause) (hblames : cause.BlamesCall) :
    (Method.find? receiver.kind name = none ∧ cause = .noSuchMethod name receiver.kind)
    ∨ ∃ method, Method.find? receiver.kind name = some method ∧ args.length ≠ method.arity
      ∧ cause = .wrongArgumentCount method args.length := by
  cases hfind : Method.find? receiver.kind name with
  | none =>
      rw [call_of_none hfind] at h
      exact Or.inl ⟨rfl, (Except.error.inj h).symm⟩
  | some method =>
      by_cases hlength : args.length = method.arity
      · have hsettles := settles_of_accepts (Method.find?_eq_some_iff.mp hfind).2 hlength
        rw [call_of_eq hfind hlength] at h
        exact absurd hblames (hsettles.not_blamesCall hlength h)
      · rw [call_of_ne hfind hlength] at h
        exact Or.inr ⟨method, rfl, hlength, (Except.error.inj h).symm⟩

/-- A call is refused because no method is found or because the number of arguments is wrong, each
with the names and numbers that it was made with.  Any other call is decided by a case that finds
its argument; it succeeds, or it is an access by index and fails as that one does. -/
theorem call_outcomes (receiver : Value) (name : String) (args : List Value) :
    (∀ other kind, call receiver name args = .error (.noSuchMethod other kind)
      ↔ Method.find? receiver.kind name = none ∧ other = name ∧ kind = receiver.kind)
    ∧ (∀ method count, call receiver name args = .error (.wrongArgumentCount method count)
      ↔ Method.find? receiver.kind name = some method ∧ args.length ≠ method.arity
        ∧ count = args.length)
    ∧ ∀ method, Method.find? receiver.kind name = some method ->
      method.name = name
      ∧ (args.length = method.arity ->
        dispatch receiver method args = .outcome (call receiver name args)
        ∧ (method ≠ .get -> ∃ value, call receiver name args = .ok value)
        ∧ (method = .get -> ∃ key, args = [key]
          ∧ call receiver name args = index receiver key)) := by
  refine ⟨?_, ?_, ?_⟩
  · intro other kind
    constructor
    · intro h
      rcases blamesCall_call h trivial with ⟨hfind, heq⟩ | ⟨method, _, _, heq⟩
      · cases heq
        exact ⟨hfind, rfl, rfl⟩
      · cases heq
    · rintro ⟨hfind, rfl, rfl⟩
      exact call_of_none hfind
  · intro method count
    constructor
    · intro h
      rcases blamesCall_call h trivial with ⟨_, heq⟩ | ⟨method, hfind, hlength, heq⟩
      · cases heq
      · cases heq
        exact ⟨hfind, hlength, rfl⟩
    · rintro ⟨hfind, hlength, rfl⟩
      exact call_of_ne hfind hlength
  · intro method hfind
    rcases Method.find?_eq_some_iff.mp hfind with ⟨hname, haccepts⟩
    refine ⟨hname, ?_⟩
    intro hlength
    have hsettles := settles_of_accepts haccepts hlength
    rw [call_of_eq hfind hlength]
    refine ⟨hsettles.dispatch_eq, hsettles.exists_value, ?_⟩
    rintro rfl
    rcases List.length_eq_one_iff.mp hlength with ⟨key, rfl⟩
    exact ⟨key, rfl, rfl⟩

end Value
end Stencil
