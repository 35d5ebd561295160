import Stencil.Evaluation.Rendering
import Stencil.Proofs.Outline
import Stencil.Proofs.Spelling

/-!
# Other locations

Locations are only there to blame errors on.  With other locations a tree keeps its form, blank
texts are dropped from it in the same places, and rendering differs in the location of an error
alone.
-/

namespace Stencil

/-!
## Relocated nodes
-/

mutual

def Node.relocate (f : Location → Location) : Node → Node
  | .sequence children location => .sequence (Node.relocateAll f children) (f location)
  | .text content location => .text content (f location)
  | .output expr location => .output (expr.relocate f) (f location)
  | .conditional condition thenBranch elseBranch location =>
      .conditional (condition.relocate f) (thenBranch.relocate f) (elseBranch.relocate f)
        (f location)
  | .forEach name collection body location =>
      .forEach name (collection.relocate f) (body.relocate f) (f location)
  | .set name value location => .set name (value.relocate f) (f location)
  | .comment location => .comment (f location)
  | .macroCall name args location => .macroCall name (Expr.relocateAll f args) (f location)

def Node.relocateAll (f : Location → Location) : List Node → List Node
  | [] => []
  | node :: rest => node.relocate f :: Node.relocateAll f rest

end

def Located.relocate (f : Location → Location) (e : Located ε) : Located ε :=
  ⟨e.cause, f e.location⟩

section

variable {f : Location → Location}

mutual

theorem Expr.relocate_id (hf : ∀ location, f location = location) : ∀ e : Expr, e.relocate f = e
  | .literal value location => by rw [Expr.relocate, hf]
  | .reference ref location => by rw [Expr.relocate, Reference.relocate_id hf ref, hf]
  | .binary op lhs rhs location => by
      rw [Expr.relocate, Expr.relocate_id hf lhs, Expr.relocate_id hf rhs, hf]
  | .not operand location => by rw [Expr.relocate, Expr.relocate_id hf operand, hf]
  | .list items location => by rw [Expr.relocate, Expr.relocateAll_id hf items, hf]
  | .range first last location => by
      rw [Expr.relocate, Expr.relocate_id hf first, Expr.relocate_id hf last, hf]

theorem Reference.relocate_id (hf : ∀ location, f location = location) :
    ∀ ref : Reference, ref.relocate f = ref
  | .plain name silent location => by rw [Reference.relocate, hf]
  | .member lhs name silent location => by
      rw [Reference.relocate, Reference.relocate_id hf lhs, hf]
  | .method lhs name args silent location => by
      rw [Reference.relocate, Reference.relocate_id hf lhs, Expr.relocateAll_id hf args, hf]
  | .index lhs index silent location => by
      rw [Reference.relocate, Reference.relocate_id hf lhs, Expr.relocate_id hf index, hf]

theorem Expr.relocateAll_id (hf : ∀ location, f location = location) :
    ∀ es : List Expr, Expr.relocateAll f es = es
  | [] => by rw [Expr.relocateAll]
  | e :: rest => by
      rw [Expr.relocateAll, Expr.relocate_id hf e, Expr.relocateAll_id hf rest]

end

mutual

theorem Node.relocate_id (hf : ∀ location, f location = location) :
    ∀ node : Node, node.relocate f = node
  | .sequence children location => by
      rw [Node.relocate, Node.relocateAll_id hf children, hf]
  | .text content location => by rw [Node.relocate, hf]
  | .output expr location => by rw [Node.relocate, Expr.relocate_id hf, hf]
  | .conditional condition thenBranch elseBranch location => by
      rw [Node.relocate, Expr.relocate_id hf, Node.relocate_id hf thenBranch,
        Node.relocate_id hf elseBranch, hf]
  | .forEach name collection body location => by
      rw [Node.relocate, Expr.relocate_id hf, Node.relocate_id hf body, hf]
  | .set name value location => by rw [Node.relocate, Expr.relocate_id hf, hf]
  | .comment location => by rw [Node.relocate, hf]
  | .macroCall name args location => by rw [Node.relocate, Expr.relocateAll_id hf, hf]

theorem Node.relocateAll_id (hf : ∀ location, f location = location) :
    ∀ nodes : List Node, Node.relocateAll f nodes = nodes
  | [] => by rw [Node.relocateAll]
  | node :: rest => by
      rw [Node.relocateAll, Node.relocate_id hf node, Node.relocateAll_id hf rest]

end

namespace Node

/-!
## The form of a tree
-/

theorem isSet_relocate (f : Location → Location) (node : Node) :
    (node.relocate f).isSet = node.isSet := by
  cases node <;> rfl

theorem isReference_relocate (f : Location → Location) (node : Node) :
    (node.relocate f).isReference = node.isReference := by
  cases node with
  | output expr location => cases expr <;> rfl
  | _ => rfl

theorem yields_relocate (f : Location → Location) (before space : Node) :
    yields (before.relocate f) (space.relocate f) = yields before space := by
  have hblank : (space.relocate f).isBlank = space.isBlank := by
    cases space <;> rfl
  have hhorizontal : (space.relocate f).isHorizontalBlank = space.isHorizontalBlank := by
    cases space <;> rfl
  have hcomment : (before.relocate f).isComment = before.isComment := by
    cases before <;> rfl
  have hdirective : (before.relocate f).isDirective = before.isDirective := by
    cases before <;> rfl
  rw [yields, yields, isReference_relocate, hblank, hhorizontal, hcomment, hdirective]

theorem dropYielding_relocateAll (f : Location → Location) (nodes : List Node) :
    dropYielding (relocateAll f nodes) = relocateAll f (dropYielding nodes) := by
  induction nodes using dropYielding.induct with
  | case1 before space next rest hdrops ih =>
      have hdrops' : ((next.relocate f).isSet
          && yields (before.relocate f) (space.relocate f)) = true := by
        rw [isSet_relocate, yields_relocate]
        exact hdrops
      rw [dropYielding, if_pos hdrops]
      refine Eq.trans ?_ (congrArg (before.relocate f :: ·) ih)
      exact if_pos hdrops'
  | case2 before space next rest hkeeps ih =>
      have hkeeps' : ¬ ((next.relocate f).isSet
          && yields (before.relocate f) (space.relocate f)) = true := by
        rw [isSet_relocate, yields_relocate]
        exact hkeeps
      rw [dropYielding, if_neg hkeeps]
      refine Eq.trans ?_ (congrArg (before.relocate f :: ·) ih)
      exact if_neg hkeeps'
  | case3 nodes hshort =>
      rcases nodes with _ | ⟨before, _ | ⟨space, _ | ⟨next, rest⟩⟩⟩
      · rfl
      · rfl
      · rfl
      · exact absurd rfl (hshort before space next rest)

mutual

theorem tidy_relocate (f : Location → Location) : ∀ node : Node,
    (node.relocate f).tidy = node.tidy.relocate f
  | sequence children location => by
      rw [relocate, tidy, tidy, relocate, tidyAll_relocateAll f children, dropYielding_relocateAll]
  | text _ _ => rfl
  | output _ _ => rfl
  | conditional condition thenBranch elseBranch location => by
      rw [relocate, tidy, tidy, relocate, tidy_relocate f thenBranch, tidy_relocate f elseBranch]
  | forEach name collection body location => by
      rw [relocate, tidy, tidy, relocate, tidy_relocate f body]
  | set _ _ _ => rfl
  | comment _ => rfl
  | macroCall _ _ _ => rfl

theorem tidyAll_relocateAll (f : Location → Location) : ∀ nodes : List Node,
    tidyAll (relocateAll f nodes) = relocateAll f (tidyAll nodes)
  | [] => rfl
  | node :: rest => by
      rw [relocateAll, tidyAll, tidyAll, relocateAll, tidy_relocate f node,
        tidyAll_relocateAll f rest]

end

mutual

theorem calls_relocate (f : Location → Location) : ∀ node : Node,
    (node.relocate f).calls = node.calls.map (Located.relocate f)
  | sequence children location => by
      rw [relocate, calls, calls, callsAll_relocateAll f children]
  | text _ _ => rfl
  | output _ _ => rfl
  | conditional condition thenBranch elseBranch location => by
      rw [relocate, calls, calls, calls_relocate f thenBranch, calls_relocate f elseBranch,
        List.map_append]
  | forEach name collection body location => by
      rw [relocate, calls, calls, calls_relocate f body]
  | set _ _ _ => rfl
  | comment _ => rfl
  | macroCall _ _ _ => rfl

theorem callsAll_relocateAll (f : Location → Location) : ∀ nodes : List Node,
    callsAll (relocateAll f nodes) = (callsAll nodes).map (Located.relocate f)
  | [] => rfl
  | node :: rest => by
      rw [relocateAll, callsAll, callsAll, calls_relocate f node, callsAll_relocateAll f rest,
        List.map_append]

end

end Node

/-!
## Evaluation
-/

mutual

theorem Expr.text_relocate (f : Location → Location) : ∀ e : Expr, (e.relocate f).text = e.text
  | .literal _ _ => rfl
  | .reference ref _ => by rw [Expr.relocate, Expr.text, Expr.text, Reference.text_relocate f ref]
  | .binary op lhs rhs _ => by
      rw [Expr.relocate, Expr.text, Expr.text, Expr.text_relocate f lhs, Expr.text_relocate f rhs]
  | .not operand _ => by rw [Expr.relocate, Expr.text, Expr.text, Expr.text_relocate f operand]
  | .list items _ => by rw [Expr.relocate, Expr.text, Expr.text, Expr.texts_relocate f items]
  | .range first last _ => by
      rw [Expr.relocate, Expr.text, Expr.text, Expr.text_relocate f first,
        Expr.text_relocate f last]

theorem Reference.text_relocate (f : Location → Location) : ∀ ref : Reference,
    (ref.relocate f).text = ref.text
  | .plain _ _ _ => rfl
  | .member lhs _ _ _ => by
      rw [Reference.relocate, Reference.text, Reference.text, Reference.text_relocate f lhs]
  | .method lhs _ args _ _ => by
      rw [Reference.relocate, Reference.text, Reference.text, Reference.text_relocate f lhs,
        Expr.texts_relocate f args]
  | .index lhs index _ _ => by
      rw [Reference.relocate, Reference.text, Reference.text, Reference.text_relocate f lhs,
        Expr.text_relocate f index]

theorem Expr.texts_relocate (f : Location → Location) : ∀ es : List Expr,
    Expr.texts (Expr.relocateAll f es) = Expr.texts es
  | [] => rfl
  | e :: rest => by
      rw [Expr.relocateAll, Expr.texts, Expr.texts, Expr.text_relocate f e,
        Expr.texts_relocate f rest]

end

section

variable {α β : Type}

abbrev reblame (f : Location → Location) (x : Except (Located EvalError) α) :
    Except (Located EvalError) α :=
  x.mapError (Located.relocate f)

theorem reblame_bind (x : Except (Located EvalError) α)
    (g : α → Except (Located EvalError) β) :
    reblame f (x >>= g) = reblame f x >>= fun a => reblame f (g a) := by
  cases x <;> rfl

theorem locate_relocate (location : Location) (x : Except EvalError α) :
    locate (f location) x = reblame f (locate location x) := by
  cases x <;> rfl

end

theorem Expr.truth_relocate (context : Context) (e : Expr)
    (value : Except (Located EvalError) Value) :
    (e.relocate f).truth context (reblame f value) = reblame f (e.truth context value) := by
  cases e with
  | reference ref location =>
      cases ref with
      | plain => rfl
      | _ => cases value <;> rfl
  | _ => cases value <;> rfl

theorem Expr.bound_relocate (e : Expr) (value : Except (Located EvalError) Value) :
    (e.relocate f).bound (reblame f value) = reblame f (e.bound value) := by
  rw [Expr.bound, Expr.bound, reblame_bind]
  refine congrArg (reblame f value >>= ·) (funext fun found => ?_)
  cases found with
  | int n => rfl
  | _ =>
      rw [Expr.location_relocate]
      rfl

mutual

theorem Expr.evaluate_relocate (context : Context) : ∀ e : Expr,
    (e.relocate f).evaluate context = reblame f (e.evaluate context)
  | .literal value location => by
      rw [Expr.relocate, Expr.evaluate, Expr.evaluate]
      rfl
  | .reference ref location => by
      rw [Expr.relocate, Expr.evaluate, Expr.evaluate, Reference.resolve_relocate context ref]
  | .binary op lhs rhs location => by
      have hlhs := Expr.evaluate_relocate context lhs
      have hrhs := Expr.evaluate_relocate context rhs
      cases op with
      | or =>
          rw [Expr.relocate, Expr.evaluate, Expr.evaluate, hlhs, hrhs, Expr.truth_relocate,
            Expr.truth_relocate, reblame_bind]
          refine congrArg (reblame f _ >>= ·) (funext fun left => ?_)
          cases left with
          | true => rfl
          | false =>
              rw [if_neg Bool.false_ne_true, if_neg Bool.false_ne_true, reblame_bind]
              rfl
      | and =>
          rw [Expr.relocate, Expr.evaluate, Expr.evaluate, hlhs, hrhs, Expr.truth_relocate,
            Expr.truth_relocate, reblame_bind]
          refine congrArg (reblame f _ >>= ·) (funext fun left => ?_)
          cases left with
          | true =>
              rw [if_pos rfl, if_pos rfl, reblame_bind]
              rfl
          | false => rfl
      | _ =>
          rw [Expr.relocate, Expr.evaluate, Expr.evaluate, hlhs, hrhs, reblame_bind]
          · refine congrArg (reblame f _ >>= ·) (funext fun a => ?_)
            rw [reblame_bind]
            refine congrArg (reblame f _ >>= ·) (funext fun b => ?_)
            exact locate_relocate location _
          all_goals rintro ⟨⟩
  | .not operand location => by
      rw [Expr.relocate, Expr.evaluate, Expr.evaluate, Expr.evaluate_relocate context operand,
        Expr.truth_relocate, reblame_bind]
      rfl
  | .list items location => by
      rw [Expr.relocate, Expr.evaluate, Expr.evaluate, Expr.evaluateAll_relocate context items,
        reblame_bind]
      rfl
  | .range first last location => by
      rw [Expr.relocate, Expr.evaluate, Expr.evaluate, Expr.evaluate_relocate context first,
        Expr.evaluate_relocate context last, Expr.bound_relocate, Expr.bound_relocate,
        reblame_bind]
      refine congrArg (reblame f _ >>= ·) (funext fun a => ?_)
      rw [reblame_bind]
      refine congrArg (reblame f _ >>= ·) (funext fun b => ?_)
      exact locate_relocate location _

theorem Reference.resolve_relocate (context : Context) : ∀ ref : Reference,
    (ref.relocate f).resolve context = reblame f (ref.resolve context)
  | .plain name silent location => by
      rw [Reference.relocate, Reference.resolve, Reference.resolve]
      cases context.get? name with
      | some value => rfl
      | none => cases silent <;> rfl
  | .member lhs name silent location => by
      rw [Reference.relocate, Reference.resolve, Reference.resolve,
        Reference.resolve_relocate context lhs, reblame_bind]
      refine congrArg (reblame f _ >>= ·) (funext fun target => ?_)
      split
      · rfl
      · exact locate_relocate location _
  | .method lhs name args silent location => by
      rw [Reference.relocate, Reference.resolve, Reference.resolve,
        Reference.resolve_relocate context lhs, reblame_bind]
      refine congrArg (reblame f _ >>= ·) (funext fun target => ?_)
      split
      · rfl
      · rw [Expr.evaluateAll_relocate context args, reblame_bind]
        refine congrArg (reblame f _ >>= ·) (funext fun values => ?_)
        exact locate_relocate location _
  | .index lhs index silent location => by
      rw [Reference.relocate, Reference.resolve, Reference.resolve,
        Reference.resolve_relocate context lhs, reblame_bind]
      refine congrArg (reblame f _ >>= ·) (funext fun target => ?_)
      split
      · rfl
      · rw [Expr.evaluate_relocate context index, reblame_bind]
        refine congrArg (reblame f _ >>= ·) (funext fun key => ?_)
        exact locate_relocate location _

theorem Expr.evaluateAll_relocate (context : Context) : ∀ es : List Expr,
    Expr.evaluateAll context (Expr.relocateAll f es) = reblame f (Expr.evaluateAll context es)
  | [] => by
      rw [Expr.relocateAll, Expr.evaluateAll]
      rfl
  | e :: rest => by
      rw [Expr.relocateAll, Expr.evaluateAll, Expr.evaluateAll, Expr.evaluate_relocate context e,
        Expr.evaluateAll_relocate context rest, reblame_bind]
      refine congrArg (reblame f _ >>= ·) (funext fun value => ?_)
      rw [reblame_bind]
      rfl

end

theorem Expr.isTrue_relocate (context : Context) (e : Expr) :
    (e.relocate f).isTrue context = reblame f (e.isTrue context) := by
  rw [Expr.isTrue, Expr.isTrue, Expr.evaluate_relocate, Expr.truth_relocate]

/-!
## Rendering
-/

def Outcome.relocate (f : Location → Location) (outcome : Outcome) : Outcome :=
  ⟨outcome.session, outcome.failure?.map (Located.relocate f)⟩

theorem renderEach_relocate {name : String} {body body' : Session → Outcome}
    (hbody : ∀ session, body' session = (body session).relocate f) (items : List Value)
    (index : Nat) (session : Session) :
    renderEach name body' index items session
      = (renderEach name body index items session).relocate f := by
  induction items generalizing index session with
  | nil => rfl
  | cons item rest ih =>
      rw [renderEach, renderEach, hbody]
      rcases body (session.enter session.context.mark name item
        (loopMetadata index !rest.isEmpty)) with ⟨after, _ | error⟩
      · exact ih (index + 1) _
      · rfl

mutual

theorem Node.render_relocate : ∀ (node : Node) (session : Session),
    (node.relocate f).render session = (node.render session).relocate f
  | .sequence children location, session => by
      rw [Node.relocate, Node.render, Node.render, Node.renderAll_relocate children session]
  | .text content location, session => by
      rw [Node.relocate, Node.render, Node.render]
      rfl
  | .output expr location, session => by
      have hsilent : (expr.relocate f).isSilent = expr.isSilent := by
        cases expr with
        | reference ref location => exact Reference.silent_relocate f ref
        | _ => rfl
      rw [Node.relocate, Node.render, Node.render, Expr.evaluate_relocate, hsilent,
        Expr.text_relocate, Expr.location_relocate]
      cases expr.evaluate session.context with
      | error e => rfl
      | ok value =>
          cases value with
          | null => cases expr.isSilent <;> rfl
          | _ => rfl
  | .conditional condition thenBranch elseBranch location, session => by
      rw [Node.relocate, Node.render, Node.render, Expr.isTrue_relocate]
      cases condition.isTrue session.context with
      | error e => rfl
      | ok holds =>
          cases holds with
          | true => exact Node.render_relocate thenBranch session
          | false => exact Node.render_relocate elseBranch session
  | .forEach name collection body location, session => by
      rw [Node.relocate, Node.render, Node.render, Expr.evaluate_relocate,
        Expr.location_relocate]
      cases collection.evaluate session.context with
      | error e => rfl
      | ok value =>
          change (match locate (f collection.location) value.loopItems with
            | .error error => session.fail error
            | .ok items => renderEach name (body.relocate f).render 0 items session) = _
          rw [locate_relocate]
          dsimp only
          cases locate collection.location value.loopItems with
          | error e => rfl
          | ok items => exact renderEach_relocate (Node.render_relocate body) items 0 session
  | .set name expr location, session => by
      rw [Node.relocate, Node.render, Node.render, Expr.evaluate_relocate]
      cases expr.evaluate session.context <;> rfl
  | .comment location, session => by
      rw [Node.relocate, Node.render, Node.render]
      rfl
  | .macroCall name args location, session => by
      rw [Node.relocate, Node.render, Node.render]
      rfl

theorem Node.renderAll_relocate : ∀ (nodes : List Node) (session : Session),
    Node.renderAll (Node.relocateAll f nodes) session
      = (Node.renderAll nodes session).relocate f
  | [], session => by
      rw [Node.relocateAll, Node.renderAll]
      rfl
  | node :: rest, session => by
      rw [Node.relocateAll, Node.renderAll, Node.renderAll, Node.render_relocate node session]
      rcases node.render session with ⟨after, _ | error⟩
      · exact Node.renderAll_relocate rest after
      · rfl

end

end

end Stencil
