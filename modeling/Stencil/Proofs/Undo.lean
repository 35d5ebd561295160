import Mathlib.Logic.Function.Basic
import Stencil.Context

/-!
# What the saved bindings mean

A list of saved bindings is a way to get back from what the names are bound to now to what they
were bound to before.  Names are looked up through functions here, so that bringing a binding back
is an update of a function.
-/

namespace Stencil
namespace Context

def savedNames (recent : List SavedBinding) : List String :=
  recent.map SavedBinding.name

/-- Brings the bindings back, the first one of the list first. -/
def undo (recent : List SavedBinding) (lookup : String → Option Value) :
    String → Option Value :=
  recent.foldl (fun found binding => Function.update found binding.name binding.previous) lookup

variable {lookup : String → Option Value} {recent older : List SavedBinding} {name : String}
  {value : Option Value}

theorem undo_cons (binding : SavedBinding) (recent : List SavedBinding)
    (lookup : String → Option Value) :
    undo (binding :: recent) lookup
      = undo recent (Function.update lookup binding.name binding.previous) :=
  rfl

theorem undo_of_not_mem (h : name ∉ savedNames recent) : undo recent lookup name = lookup name := by
  induction recent generalizing lookup with
  | nil => rfl
  | cons binding recent ih =>
      rw [savedNames, List.map_cons, List.mem_cons, not_or] at h
      rw [undo_cons, ih h.2, Function.update_of_ne h.1]

theorem undo_update_of_mem (h : name ∈ savedNames recent) :
    undo recent (Function.update lookup name value) = undo recent lookup := by
  induction recent generalizing lookup with
  | nil => cases h
  | cons binding recent ih =>
      rw [undo_cons, undo_cons]
      by_cases hname : binding.name = name
      · rw [hname, Function.update_idem]
      · rw [savedNames, List.map_cons, List.mem_cons] at h
        have hrecent := h.resolve_left fun same => hname same.symm
        rw [Function.update_comm fun same => hname same.symm]
        exact ih hrecent

theorem undo_update_of_not_mem (h : name ∉ savedNames recent) :
    undo recent (Function.update lookup name value)
      = Function.update (undo recent lookup) name value := by
  induction recent generalizing lookup with
  | nil => rfl
  | cons binding recent ih =>
      rw [savedNames, List.map_cons, List.mem_cons, not_or] at h
      rw [undo_cons, undo_cons, Function.update_comm h.1]
      exact ih h.2

theorem undo_congr {other : String → Option Value}
    (h : name ∉ savedNames recent -> lookup name = other name) :
    undo recent lookup name = undo recent other name := by
  induction recent generalizing lookup other with
  | nil => exact h List.not_mem_nil
  | cons binding recent ih =>
      rw [undo_cons, undo_cons]
      refine ih fun hrecent => ?_
      by_cases hname : name = binding.name
      · rw [hname, Function.update_self, Function.update_self]
      · rw [Function.update_of_ne hname, Function.update_of_ne hname]
        refine h ?_
        rw [savedNames, List.map_cons, List.mem_cons, not_or]
        exact ⟨hname, hrecent⟩

/-!
## Contexts
-/

theorem get?_set_eq (context : Context) (name : String) (value : Value) :
    (context.set name value).get? = Function.update context.get? name (some value) := by
  funext other
  rw [get?_set, Function.update_apply]
  simp only [eq_comm]

theorem get?_shadow_eq (context : Context) (mark : Nat) (name : String) (value : Value) :
    (context.shadow mark name value).get? = Function.update context.get? name (some value) := by
  funext other
  rw [get?_shadow, Function.update_apply]
  simp only [eq_comm]

theorem get?_foldl_restore (recent : List SavedBinding) (bindings : Dictionary Value) :
    (recent.foldl SavedBinding.restore bindings).get? = undo recent bindings.get? := by
  induction recent generalizing bindings with
  | nil => rfl
  | cons binding recent ih =>
      have hbinding : (binding.restore bindings).get?
          = Function.update bindings.get? binding.name binding.previous := by
        funext other
        rw [get?_restore_binding, Function.update_apply]
        simp only [eq_comm]
      rw [List.foldl_cons, ih, hbinding, undo_cons]

section

variable {context : Context} (hsaved : context.saved = recent ++ older)

include hsaved

theorem savedSince_eq : context.savedSince older.length = recent := by
  rw [savedSince, hsaved, List.length_append, Nat.add_sub_cancel, List.take_left]

theorem get?_restore : (context.restore older.length).get? = undo recent context.get? := by
  funext other
  rw [get?, restore, savedSince_eq hsaved, get?_foldl_restore]
  rfl

theorem saved_restore : (context.restore older.length).saved = older := by
  rw [restore, hsaved, List.length_append, Nat.add_sub_cancel, List.drop_left]

theorem exists_saved_shadow (name : String) (value : Value) :
    ∃ recent', (context.shadow older.length name value).saved = recent' ++ older
      ∧ (∀ other, other ∈ savedNames recent' ↔ other = name ∨ other ∈ savedNames recent)
      ∧ undo recent' (context.shadow older.length name value).get?
        = undo recent context.get? := by
  have hany : (context.savedSince older.length).any (fun binding => binding.name = name) = true
      ↔ name ∈ savedNames recent := by
    rw [savedSince_eq hsaved, List.any_eq_true, savedNames, List.mem_map]
    simp only [decide_eq_true_eq]
  rw [get?_shadow_eq]
  by_cases hname : name ∈ savedNames recent
  · refine ⟨recent, ?_, fun other => ⟨Or.inr, ?_⟩, undo_update_of_mem hname⟩
    · rw [shadow, if_pos (hany.mpr hname), saved_set, hsaved]
    · rintro (rfl | hother)
      · exact hname
      · exact hother
  · refine ⟨⟨name, context.get? name⟩ :: recent, ?_, fun other => List.mem_cons, ?_⟩
    · rw [shadow, if_neg fun hsome => hname (hany.mp hsome), hsaved]
      rfl
    · rw [undo_cons, Function.update_idem, Function.update_eq_self]

end

end Context
end Stencil
