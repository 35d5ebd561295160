import Mathlib.Data.Finset.Card
import Mathlib.Data.List.Infix
import Stencil.Proofs.Undo

/-!
# Scopes

A context is one flat dictionary with an undo stack.  What it stands for is a stack of scopes, each
with bindings of its own.  This module runs both side by side and shows that they cannot be told
apart.
-/

namespace Stencil

/-!
## Stacks of scopes
-/

/-- Bindings of scopes inside each other, the innermost first, over the global ones. -/
inductive Scopes where
  | outermost (bindings : Dictionary Value)
  | inner (bindings : Dictionary Value) (outer : Scopes)

namespace Scopes

def get? (name : String) : Scopes → Option Value
  | outermost bindings => bindings.get? name
  | inner bindings outer => (bindings.get? name).or (outer.get? name)

/-- Changes the innermost binding, and binds globally what has none. -/
def set (name : String) (value : Value) : Scopes → Scopes
  | outermost bindings => outermost (bindings.insert name value)
  | inner bindings outer =>
      if (bindings.get? name).isSome then inner (bindings.insert name value) outer
      else inner bindings (outer.set name value)

def names : Scopes → Finset String
  | outermost bindings => (Entries.keys bindings.entries).toFinset
  | inner bindings outer => (Entries.keys bindings.entries).toFinset ∪ outer.names

end Scopes

/-!
## Steps

A scope is closed by the same mark that it was opened with, and only the innermost open scope binds
names.
-/

inductive ScopeStep where
  | opening
  | bind (name : String) (value : Value)
  | set (name : String) (value : Value)
  | closing

namespace ScopeStep

/-- Steps that bind in open scopes, and close open scopes, if `depth` scopes are open before. -/
def Nested : Nat → List ScopeStep → Prop
  | _, [] => True
  | depth, opening :: rest => Nested (depth + 1) rest
  | depth, bind _ _ :: rest => 0 < depth ∧ Nested depth rest
  | depth, set _ _ :: rest => Nested depth rest
  | 0, closing :: _ => False
  | depth + 1, closing :: rest => Nested depth rest

theorem Nested.of_before {depth : Nat} {before steps : List ScopeStep} (h : Nested depth steps)
    (hbefore : before <+: steps) : Nested depth before := by
  rcases hbefore with ⟨after, rfl⟩
  induction before generalizing depth with
  | nil => exact trivial
  | cons step before ih =>
      cases step with
      | opening => exact ih h
      | bind name value => exact ⟨h.1, ih h.2⟩
      | set name value => exact ih h
      | closing =>
          cases depth with
          | zero => exact absurd h id
          | succ depth => exact ih h

end ScopeStep

namespace Scopes

def step? : ScopeStep → Scopes → Option Scopes
  | .opening, scopes => some (inner .empty scopes)
  | .bind name value, inner bindings outer => some (inner (bindings.insert name value) outer)
  | .set name value, scopes => some (scopes.set name value)
  | .closing, inner _ outer => some outer
  | _, outermost _ => none

def run? (steps : List ScopeStep) (scopes : Scopes) : Option Scopes :=
  steps.foldlM (fun scopes step => scopes.step? step) scopes

end Scopes

/-- A context together with the marks of its open scopes, the innermost first. -/
structure ScopedContext where
  context : Context
  marks : List Nat

namespace ScopedContext

def step? : ScopeStep → ScopedContext → Option ScopedContext
  | .opening, ⟨context, marks⟩ => some ⟨context, context.mark :: marks⟩
  | .bind name value, ⟨context, mark :: marks⟩ =>
      some ⟨context.shadow mark name value, mark :: marks⟩
  | .set name value, ⟨context, marks⟩ => some ⟨context.set name value, marks⟩
  | .closing, ⟨context, mark :: marks⟩ => some ⟨context.restore mark, marks⟩
  | _, ⟨_, []⟩ => none

def run? (steps : List ScopeStep) (state : ScopedContext) : Option ScopedContext :=
  steps.foldlM (fun state step => state.step? step) state

end ScopedContext

/-!
## The invariant

For each open scope there is a stretch of the undo stack.  It saves exactly the names that the scope
binds, and undoing it gives what the names are bound to outside.
-/

open Context

/-- The names are those that are bound here, and looking them up finds these bindings. -/
structure Covers (names : List String) (bindings : Dictionary Value)
    (lookup : String → Option Value) : Prop where
  mem_iff : ∀ name, name ∈ names ↔ (bindings.get? name).isSome = true
  agrees : ∀ name ∈ names, lookup name = bindings.get? name

namespace Covers

variable {names names' : List String} {bindings : Dictionary Value}
  {lookup : String → Option Value} {name : String}

theorem empty (lookup : String → Option Value) : Covers [] .empty lookup where
  mem_iff := fun _ => iff_of_false List.not_mem_nil Bool.false_ne_true
  agrees := List.forall_mem_nil _

theorem insert (h : Covers names bindings lookup) (value : Value)
    (hnames : ∀ other, other ∈ names' ↔ other = name ∨ other ∈ names) :
    Covers names' (bindings.insert name value)
      (Function.update lookup name (some value)) where
  mem_iff := by
    intro other
    rw [hnames, h.mem_iff, Dictionary.get?_insert]
    by_cases hname : other = name
    · rw [if_pos hname.symm]
      exact iff_of_true (Or.inl hname) rfl
    · rw [if_neg fun same => hname same.symm]
      exact or_iff_right hname
  agrees := by
    intro other hother
    rw [Function.update_apply, Dictionary.get?_insert]
    by_cases hname : other = name
    · rw [if_pos hname, if_pos hname.symm]
    · rw [if_neg hname, if_neg fun same => hname same.symm,
        h.agrees other (((hnames other).mp hother).resolve_left hname)]

theorem update (h : Covers names bindings lookup) (hname : name ∉ names)
    (value : Option Value) : Covers names bindings (Function.update lookup name value) where
  mem_iff := h.mem_iff
  agrees := by
    intro other hother
    have hne : other ≠ name := by
      rintro rfl
      exact hname hother
    rw [Function.update_of_ne hne, h.agrees other hother]

theorem get?_eq_none (h : Covers names bindings lookup) (hname : name ∉ names) :
    bindings.get? name = none := by
  rw [h.mem_iff, Bool.not_eq_true, Option.isSome_eq_false_iff, Option.isNone_iff_eq_none] at hname
  exact hname

end Covers

theorem mem_iff_of_mem {name : String} {names : List String} (hname : name ∈ names) :
    ∀ other, other ∈ names ↔ other = name ∨ other ∈ names := by
  intro other
  refine ⟨Or.inr, ?_⟩
  rintro (rfl | hother)
  · exact hname
  · exact hother

inductive Mirrors (bottom : List SavedBinding) :
    Scopes → List Nat → (String → Option Value) → List SavedBinding → Prop where
  | outermost {bindings : Dictionary Value} {lookup : String → Option Value} :
      (∀ name, lookup name = bindings.get? name) ->
      Mirrors bottom (.outermost bindings) [] lookup bottom
  | inner {bindings : Dictionary Value} {outer : Scopes} {marks : List Nat}
      {lookup : String → Option Value} {recent older : List SavedBinding} :
      Covers (savedNames recent) bindings lookup ->
      Mirrors bottom outer marks (undo recent lookup) older ->
      Mirrors bottom (.inner bindings outer) (older.length :: marks) lookup (recent ++ older)

namespace Mirrors

variable {bottom saved : List SavedBinding} {scopes : Scopes} {marks : List Nat}
  {lookup : String → Option Value}

theorem get? (h : Mirrors bottom scopes marks lookup saved) (name : String) :
    lookup name = scopes.get? name := by
  induction h with
  | outermost hlookup => exact hlookup name
  | @inner bindings outer marks lookup recent older hcovers _ ih =>
      rw [Scopes.get?]
      by_cases hname : name ∈ savedNames recent
      · rw [hcovers.agrees name hname, Option.or_of_isSome ((hcovers.mem_iff name).mp hname)]
      · rw [hcovers.get?_eq_none hname, Option.none_or, ← ih, undo_of_not_mem hname]

theorem marks_le (h : Mirrors bottom scopes marks lookup saved) :
    ∀ mark ∈ marks, mark ≤ saved.length := by
  induction h with
  | outermost _ => exact List.forall_mem_nil _
  | @inner _ _ _ _ recent older _ _ ih =>
      intro mark hmark
      have holder : older.length ≤ (recent ++ older).length := by
        rw [List.length_append]
        exact Nat.le_add_left _ _
      rcases List.mem_cons.mp hmark with rfl | hmark
      · exact holder
      · exact Nat.le_trans (ih mark hmark) holder

theorem saved_eq (h : Mirrors bottom scopes [] lookup saved) : saved = bottom := by
  cases h with
  | outermost _ => rfl

theorem opening (h : Mirrors bottom scopes marks lookup saved) :
    Mirrors bottom (.inner .empty scopes) (saved.length :: marks) lookup saved :=
  @inner bottom _ _ _ _ [] saved (Covers.empty lookup) h

theorem set (h : Mirrors bottom scopes marks lookup saved) (name : String) (value : Value) :
    Mirrors bottom (scopes.set name value) marks (Function.update lookup name (some value))
      saved := by
  induction h with
  | @outermost bindings lookup hlookup =>
      refine outermost fun other => ?_
      rw [Function.update_apply, Dictionary.get?_insert, hlookup]
      simp only [eq_comm]
  | @inner bindings outer marks lookup recent older hcovers h ih =>
      rw [Scopes.set]
      by_cases hname : name ∈ savedNames recent
      · rw [if_pos ((hcovers.mem_iff name).mp hname)]
        refine inner (hcovers.insert value (mem_iff_of_mem hname)) ?_
        rw [undo_update_of_mem hname]
        exact h
      · rw [if_neg fun hsome => hname ((hcovers.mem_iff name).mpr hsome)]
        refine inner (hcovers.update hname _) ?_
        rw [undo_update_of_not_mem hname]
        exact ih

end Mirrors

/-!
## One step
-/

def ScopedContext.StandsFor (bottom : List SavedBinding) (state : ScopedContext)
    (scopes : Scopes) : Prop :=
  Mirrors bottom scopes state.marks state.context.get? state.context.saved

namespace Mirrors

variable {bottom : List SavedBinding} {bindings : Dictionary Value} {outer : Scopes}
  {marks : List Nat} {mark : Nat} {context : Context}

theorem bind
    (h : Mirrors bottom (.inner bindings outer) (mark :: marks) context.get? context.saved)
    (name : String) (value : Value) :
    Mirrors bottom (.inner (bindings.insert name value) outer) (mark :: marks)
      (context.shadow mark name value).get? (context.shadow mark name value).saved := by
  generalize hlookup : context.get? = lookup at h
  generalize hsaved : context.saved = saved at h
  cases h with
  | @inner _ _ _ _ recent older hcovers h =>
      rcases exists_saved_shadow hsaved name value with ⟨recent', hsaved', hnames, hundo⟩
      rw [hlookup] at hundo
      rw [hsaved']
      refine .inner ?_ ?_
      · rw [get?_shadow_eq, hlookup]
        exact hcovers.insert value hnames
      · rw [hundo]
        exact h

theorem closing
    (h : Mirrors bottom (.inner bindings outer) (mark :: marks) context.get? context.saved) :
    Mirrors bottom outer marks (context.restore mark).get? (context.restore mark).saved := by
  generalize hlookup : context.get? = lookup at h
  generalize hsaved : context.saved = saved at h
  cases h with
  | inner _ h =>
      rw [get?_restore hsaved, saved_restore hsaved, hlookup]
      exact h

end Mirrors

namespace ScopedContext

variable {bottom : List SavedBinding} {state : ScopedContext} {scopes : Scopes}

theorem StandsFor.step (h : state.StandsFor bottom scopes) {step : ScopeStep}
    {rest : List ScopeStep} (hnested : ScopeStep.Nested state.marks.length (step :: rest)) :
    ∃ state' scopes', state.step? step = some state' ∧ scopes.step? step = some scopes'
      ∧ state'.StandsFor bottom scopes' ∧ ScopeStep.Nested state'.marks.length rest := by
  rcases state with ⟨context, marks⟩
  cases step with
  | opening => exact ⟨_, _, rfl, rfl, Mirrors.opening h, hnested⟩
  | set name value =>
      refine ⟨⟨context.set name value, marks⟩, scopes.set name value, rfl, ?_, ?_, hnested⟩
      · cases scopes <;> rfl
      · rw [StandsFor, get?_set_eq]
        exact Mirrors.set h name value
  | bind name value =>
      cases marks with
      | nil => exact absurd hnested.1 (Nat.lt_irrefl 0)
      | cons mark marks =>
          cases scopes with
          | outermost bindings => cases h
          | inner bindings outer =>
              exact ⟨_, _, rfl, rfl, Mirrors.bind h name value, hnested.2⟩
  | closing =>
      cases marks with
      | nil => exact absurd hnested id
      | cons mark marks =>
          cases scopes with
          | outermost bindings => cases h
          | inner bindings outer => exact ⟨_, _, rfl, rfl, Mirrors.closing h, hnested⟩

/-!
## Whole runs
-/

theorem StandsFor.run (h : state.StandsFor bottom scopes) {steps : List ScopeStep}
    (hnested : ScopeStep.Nested state.marks.length steps) :
    ∃ state' scopes', state.run? steps = some state' ∧ scopes.run? steps = some scopes'
      ∧ state'.StandsFor bottom scopes' := by
  induction steps generalizing state scopes with
  | nil => exact ⟨state, scopes, rfl, rfl, h⟩
  | cons step rest ih =>
      rcases h.step hnested with ⟨middle, between, hstep, hstep', hmiddle, hrest⟩
      rcases ih hmiddle hrest with ⟨last, outermost, hrun, hrun', hlast⟩
      refine ⟨last, outermost, ?_, ?_, hlast⟩
      · rw [run?, List.foldlM_cons, hstep]
        exact hrun
      · rw [Scopes.run?, List.foldlM_cons, hstep']
        exact hrun'

end ScopedContext

/-!
## Counting names
-/

namespace Dictionary

theorem isSome_get?_iff (dictionary : Dictionary β) (name : String) :
    (dictionary.get? name).isSome = true ↔ name ∈ (Entries.keys dictionary.entries).toFinset :=
  (Entries.find?_isSome_iff name dictionary.entries).trans List.mem_toFinset.symm

theorem size_eq_card (dictionary : Dictionary β) :
    dictionary.size = (Entries.keys dictionary.entries).toFinset.card := by
  have hnodup : (Entries.keys dictionary.entries).Nodup := by
    rw [Entries.keys, List.Nodup, List.pairwise_map]
    refine dictionary.sorted.imp ?_
    intro a b hlt heq
    rw [heq] at hlt
    exact String.lt_irrefl _ hlt
  rw [List.toFinset_card_of_nodup hnodup, Entries.keys, List.length_map, size]

end Dictionary

theorem Scopes.isSome_get?_iff (scopes : Scopes) (name : String) :
    (scopes.get? name).isSome = true ↔ name ∈ scopes.names := by
  induction scopes with
  | outermost bindings => exact bindings.isSome_get?_iff name
  | inner bindings outer ih =>
      rw [get?, names, Option.isSome_or, Bool.or_eq_true, Finset.mem_union,
        bindings.isSome_get?_iff name, ih]

namespace ScopedContext

theorem StandsFor.size_eq {bottom : List SavedBinding} {state : ScopedContext} {scopes : Scopes}
    (h : state.StandsFor bottom scopes) : state.context.size = scopes.names.card := by
  have hnames : (Entries.keys state.context.bindings.entries).toFinset = scopes.names := by
    ext name
    rw [← Dictionary.isSome_get?_iff, ← scopes.isSome_get?_iff, ← Mirrors.get? h]
    rfl
  rw [Context.size, Dictionary.size_eq_card, hnames]

/-- A flat context with its undo stack cannot be told from a stack of scopes.  The marks of the open
scopes always lie inside the undo stack, and when all scopes are closed the undo stack is back to
what it was. -/
theorem run_refines_scopes (context : Context) (steps : List ScopeStep)
    (hnested : ScopeStep.Nested 0 steps) (before : List ScopeStep) (hbefore : before <+: steps) :
    ∃ state scopes, run? before ⟨context, []⟩ = some state
      ∧ Scopes.run? before (.outermost context.bindings) = some scopes
      ∧ (∀ name, state.context.get? name = scopes.get? name)
      ∧ state.context.size = scopes.names.card
      ∧ (∀ mark ∈ state.marks, mark ≤ state.context.saved.length)
      ∧ (state.marks = [] -> state.context.saved = context.saved) := by
  have hstart : StandsFor context.saved ⟨context, []⟩ (.outermost context.bindings) :=
    .outermost fun _ => rfl
  rcases hstart.run (hnested.of_before hbefore) with ⟨state, scopes, hrun, hrun', hstate⟩
  refine ⟨state, scopes, hrun, hrun', Mirrors.get? hstate, hstate.size_eq,
    Mirrors.marks_le hstate, ?_⟩
  intro hmarks
  rw [StandsFor, hmarks] at hstate
  exact Mirrors.saved_eq hstate

theorem run_refines_scopes_rebound :
    let x : String := "x"
    let steps : List ScopeStep :=
      [.set x .null, .opening, .set x (.bool true), .bind x (.bool false), .opening,
        .set x .null, .bind x (.bool true), .closing, .closing]
    ScopeStep.Nested 0 steps ∧ steps.take 8 <+: steps
      ∧ ∃ state scopes, run? (steps.take 8) ⟨.ofVariables [], []⟩ = some state
        ∧ Scopes.run? (steps.take 8) (.outermost (Context.ofVariables []).bindings) = some scopes
        ∧ (∀ name, state.context.get? name = scopes.get? name)
        ∧ state.context.size = scopes.names.card
        ∧ (∀ mark ∈ state.marks, mark ≤ state.context.saved.length)
        ∧ (state.marks = [] -> state.context.saved = (Context.ofVariables []).saved) := by
  intro x steps
  have hnested : ScopeStep.Nested 0 steps := by
    simp [steps, ScopeStep.Nested]
  have hbefore : steps.take 8 <+: steps := List.take_prefix 8 steps
  exact ⟨hnested, hbefore, run_refines_scopes (.ofVariables []) steps hnested _ hbefore⟩

end ScopedContext

end Stencil
