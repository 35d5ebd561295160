import Mathlib.Data.Finset.Basic
import Stencil.Evaluation.Rendering
import Stencil.Proofs.Undo

/-!
# Effects of rendering

Rendering changes no binding but those of the names that a node assigns, and leaves the undo stack
as it was.  This holds for every way a run can end: an error in the body of a loop closes the scopes
that are open there.
-/

namespace Stencil

/-!
## Assigned names
-/

mutual

/-- The names that rendering may bind for good.  A loop brings its variable and the loop metadata
back. -/
def Node.assigned : Node → Finset String
  | .sequence children _ => Node.assignedAll children
  | .conditional _ thenBranch elseBranch _ => thenBranch.assigned ∪ elseBranch.assigned
  | .forEach name _ body _ => (body.assigned.erase name).erase loopVariable
  | .set name _ _ => {name}
  | .text _ _ => ∅
  | .output _ _ => ∅
  | .comment _ => ∅
  | .macroCall _ _ _ => ∅

def Node.assignedAll : List Node → Finset String
  | [] => ∅
  | node :: rest => node.assigned ∪ Node.assignedAll rest

end

/-!
## Contexts that differ in some names
-/

structure Context.ChangesOnly (names : Finset String) (before after : Context) : Prop where
  get?_eq : ∀ name ∉ names, after.get? name = before.get? name
  saved_eq : after.saved = before.saved

namespace Context.ChangesOnly

variable {names names' : Finset String} {before between after : Context}

theorem refl (names : Finset String) (context : Context) : ChangesOnly names context context where
  get?_eq := fun _ _ => rfl
  saved_eq := rfl

theorem trans (h : ChangesOnly names before between) (h' : ChangesOnly names between after) :
    ChangesOnly names before after where
  get?_eq := fun name hname => (h'.get?_eq name hname).trans (h.get?_eq name hname)
  saved_eq := h'.saved_eq.trans h.saved_eq

theorem mono (h : ChangesOnly names before after) (hsubset : names ⊆ names') :
    ChangesOnly names' before after where
  get?_eq := fun name hname => h.get?_eq name fun hmem => hname (hsubset hmem)
  saved_eq := h.saved_eq

theorem set (context : Context) (name : String) (value : Value) :
    ChangesOnly {name} context (context.set name value) where
  get?_eq := by
    intro other hother
    rw [get?_set, if_neg fun same => hother (Finset.mem_singleton.mpr same.symm)]
  saved_eq := saved_set context name value

end Context.ChangesOnly

/-!
## Runs of a loop body

What a loop binds for a run is undone behind it, and with it everything that the body did to the
same names.
-/

open Context

namespace Session

variable {session after : Session} {name : String} {item metadata : Value}

theorem exists_saved_enter (session : Session) (name : String) (item metadata : Value) :
    ∃ recent, (session.enter session.context.mark name item metadata).context.saved
        = recent ++ session.context.saved
      ∧ (∀ other, other ∈ savedNames recent ↔ other = loopVariable ∨ other = name)
      ∧ undo recent (session.enter session.context.mark name item metadata).context.get?
        = session.context.get? := by
  have hsaved : session.context.saved = [] ++ session.context.saved := rfl
  rcases exists_saved_shadow hsaved name item with ⟨first, hfirst, hnames, hundo⟩
  rcases exists_saved_shadow hfirst loopVariable metadata with ⟨both, hboth, hnames', hundo'⟩
  refine ⟨both, hboth, fun other => ?_, hundo'.trans hundo⟩
  rw [hnames', hnames]
  exact or_congr Iff.rfl (or_iff_left List.not_mem_nil)

theorem changesOnly_leave {names : Finset String}
    (h : ChangesOnly names (session.enter session.context.mark name item metadata).context
      after.context) :
    ChangesOnly ((names.erase name).erase loopVariable) session.context
      (after.leave session.context.mark).context := by
  rcases exists_saved_enter session name item metadata with ⟨recent, hsaved, hnames, hundo⟩
  have hafter : after.context.saved = recent ++ session.context.saved := h.saved_eq.trans hsaved
  refine ⟨fun other hother => ?_, saved_restore hafter⟩
  have hsame : undo recent after.context.get? other = session.context.get? other := by
    rw [← hundo]
    refine undo_congr fun hrecent => h.get?_eq other ?_
    rw [hnames, not_or] at hrecent
    rw [Finset.mem_erase, Finset.mem_erase] at hother
    exact fun hmem => hother ⟨hrecent.1, hrecent.2, hmem⟩
  exact (congrFun (get?_restore hafter) other).trans hsame

end Session

/-!
## Rendering
-/

/-- If every run of the body keeps to its names, the loop keeps to them without its own. -/
theorem changesOnly_renderEach {name : String} {body : Session → Outcome}
    {names : Finset String}
    (hbody : ∀ session, ChangesOnly names session.context (body session).session.context)
    (items : List Value) (index : Nat) (session : Session) :
    ChangesOnly ((names.erase name).erase loopVariable) session.context
      (renderEach name body index items session).session.context := by
  induction items generalizing index session with
  | nil => exact .refl _ _
  | cons item rest ih =>
      have hrun := hbody (session.enter session.context.mark name item
        (loopMetadata index !rest.isEmpty))
      rw [renderEach]
      generalize body (session.enter session.context.mark name item
        (loopMetadata index !rest.isEmpty)) = outcome at hrun ⊢
      rcases outcome with ⟨after, _ | error⟩
      · exact (Session.changesOnly_leave hrun).trans (ih (index + 1) _)
      · exact Session.changesOnly_leave hrun

mutual

theorem Node.changesOnly_render : ∀ (node : Node) (session : Session),
    ChangesOnly node.assigned session.context (node.render session).session.context
  | .sequence children _, session => by
      rw [Node.render, Node.assigned]
      exact Node.changesOnly_renderAll children session
  | .text content _, session => by
      rw [Node.render]
      exact .refl _ _
  | .output expr _, session => by
      rw [Node.render]
      split
      · exact .refl _ _
      · split
        · exact .refl _ _
        · exact .refl _ _
      · exact .refl _ _
  | .conditional condition thenBranch elseBranch _, session => by
      rw [Node.render, Node.assigned]
      split
      · exact .refl _ _
      · exact (Node.changesOnly_render thenBranch session).mono Finset.subset_union_left
      · exact (Node.changesOnly_render elseBranch session).mono Finset.subset_union_right
  | .forEach name collection body _, session => by
      rw [Node.render, Node.assigned]
      split
      · exact .refl _ _
      · split
        · exact .refl _ _
        · next items _ =>
            exact changesOnly_renderEach (Node.changesOnly_render body) items 0 session
  | .set name expr _, session => by
      rw [Node.render, Node.assigned]
      split
      · exact .refl _ _
      · exact .set session.context name _
  | .comment _, session => by
      rw [Node.render]
      exact .refl _ _
  | .macroCall name _ location, session => by
      rw [Node.render]
      exact .refl _ _

theorem Node.changesOnly_renderAll : ∀ (nodes : List Node) (session : Session),
    ChangesOnly (Node.assignedAll nodes) session.context
      (Node.renderAll nodes session).session.context
  | [], session => by
      rw [Node.renderAll]
      exact .refl _ _
  | node :: rest, session => by
      have hnode := (Node.changesOnly_render node session).mono
        (Finset.subset_union_left : node.assigned ⊆ node.assigned ∪ Node.assignedAll rest)
      rw [Node.renderAll, Node.assignedAll]
      split
      · next after heq =>
          rw [heq] at hnode
          exact hnode.trans ((Node.changesOnly_renderAll rest after).mono Finset.subset_union_right)
      · exact hnode

end

namespace Node

/-- However rendering ends, the names that are not assigned are bound as before, and nothing is left
on the undo stack.  A loop brings back its variable and the loop metadata. -/
theorem render_effect (node : Node) (session : Session) :
    (∀ name ∉ node.assigned,
      (node.render session).session.context.get? name = session.context.get? name)
    ∧ (node.render session).session.context.saved = session.context.saved
    ∧ ∀ name collection body location, node = .forEach name collection body location ->
        (node.render session).session.context.get? name = session.context.get? name
        ∧ (node.render session).session.context.get? loopVariable
          = session.context.get? loopVariable := by
  have hframe := changesOnly_render node session
  refine ⟨hframe.get?_eq, hframe.saved_eq, ?_⟩
  rintro name collection body location rfl
  refine ⟨hframe.get?_eq name ?_, hframe.get?_eq loopVariable ?_⟩
  · rw [assigned, Finset.mem_erase, Finset.mem_erase]
    exact fun hmem => hmem.2.1 rfl
  · rw [assigned]
    exact Finset.notMem_erase _ _

end Node

end Stencil
