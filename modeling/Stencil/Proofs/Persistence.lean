import Stencil.Proofs.Diagnostics
import Stencil.Proofs.Iteration
import Stencil.Proofs.SortedEntries

/-!
# Supplied variables stay bound

Closing a scope can take a variable away: it does where the saved binding says that there was none.
No such binding is ever saved for a variable that the template is started with, so it is bound at
every point of a run, between the runs of loops and inside them, and while a scope is closed.
-/

namespace Stencil

/-!
## Properties of contexts that rendering keeps
-/

/-- A property that no change of a context breaks.  A scope may be closed at any mark. -/
structure Context.Stable (P : Context → Prop) : Prop where
  set : ∀ {context : Context} (name : String) (value : Value), P context ->
    P (context.set name value)
  shadow : ∀ {context : Context} (mark : Nat) (name : String) (value : Value), P context ->
    P (context.shadow mark name value)
  restore : ∀ {context : Context} (mark : Nat), P context -> P (context.restore mark)

open Context

section

variable {P : Context → Prop}

namespace Session

theorem stable_enter (hP : Stable P) {session : Session} (h : P session.context) (mark : Nat)
    (name : String) (item metadata : Value) : P (session.enter mark name item metadata).context :=
  hP.shadow mark loopVariable metadata (hP.shadow mark name item h)

theorem stable_leave (hP : Stable P) {session : Session} (h : P session.context) (mark : Nat) :
    P (session.leave mark).context :=
  hP.restore mark h

end Session

theorem stable_renderEach (hP : Stable P) {name : String} {body : Session → Outcome}
    (hbody : ∀ session, P session.context -> P (body session).session.context)
    (items : List Value) (index : Nat) {session : Session} (h : P session.context) :
    P (renderEach name body index items session).session.context := by
  induction items generalizing index session with
  | nil => exact h
  | cons item rest ih =>
      have hrun := hbody _ (Session.stable_enter hP h session.context.mark name item
        (loopMetadata index !rest.isEmpty))
      have hclosed := Session.stable_leave hP hrun session.context.mark
      rw [renderEach]
      generalize body (session.enter session.context.mark name item
        (loopMetadata index !rest.isEmpty)) = outcome at hclosed ⊢
      rcases outcome with ⟨after, _ | error⟩
      · exact ih (index + 1) hclosed
      · exact hclosed

mutual

theorem Node.stable_render (hP : Stable P) : ∀ (node : Node) {session : Session},
    P session.context -> P (node.render session).session.context
  | .sequence children _, session, h => by
      rw [Node.render]
      exact Node.stable_renderAll hP children h
  | .text content _, session, h => by
      rw [Node.render]
      exact h
  | .output expr _, session, h => by
      rw [Node.render]
      split
      · exact h
      · split
        · exact h
        · exact h
      · exact h
  | .conditional condition thenBranch elseBranch _, session, h => by
      rw [Node.render]
      split
      · exact h
      · exact Node.stable_render hP thenBranch h
      · exact Node.stable_render hP elseBranch h
  | .forEach name collection body _, session, h => by
      rw [Node.render]
      split
      · exact h
      · split
        · exact h
        · exact stable_renderEach hP (fun _ => Node.stable_render hP body) _ 0 h
  | .set name expr _, session, h => by
      rw [Node.render]
      split
      · exact h
      · exact hP.set name _ h
  | .comment _, session, h => by
      rw [Node.render]
      exact h
  | .macroCall name _ location, session, h => by
      rw [Node.render]
      exact h

theorem Node.stable_renderAll (hP : Stable P) : ∀ (nodes : List Node) {session : Session},
    P session.context -> P (Node.renderAll nodes session).session.context
  | [], session, h => by
      rw [Node.renderAll]
      exact h
  | node :: rest, session, h => by
      have hnode := Node.stable_render hP node h
      rw [Node.renderAll]
      split
      · next after heq =>
          rw [heq] at hnode
          exact Node.stable_renderAll hP rest hnode
      · exact hnode

end

end

/-!
## Points of a run
-/

/-- The loop comes from one of its runs to a later one: `index` and `items` are what is left of it
in front of the first, `index'` and `items'` in front of the second. -/
inductive Proceeds (name : String) (body : Session → Outcome) :
    Nat → List Value → Session → Nat → List Value → Session → Prop
  | here {index : Nat} {items : List Value} {session : Session} :
      Proceeds name body index items session index items session
  | next {index index' : Nat} {item : Value} {rest items' : List Value}
      {session after session' : Session} :
      body (session.enter session.context.mark name item (loopMetadata index !rest.isEmpty))
        = after.done ->
      Proceeds name body (index + 1) rest (after.leave session.context.mark) index' items'
        session' ->
      Proceeds name body index (item :: rest) session index' items' session'

/-- A run of the body is due, for the first of the items, with this number and this session. -/
def Node.RunsFrom (name : String) (collection : Expr) (body : Node) (session : Session)
    (index : Nat) (item : Value) (rest : List Value) (before : Session) : Prop :=
  ∃ value items, collection.evaluate session.context = .ok value ∧ value.loopItems = .ok items
    ∧ Proceeds name body.render 0 items session index (item :: rest) before

/-- What rendering a node comes through, inside loops as well.  A run of a loop binds its variable
and then the loop metadata, and when it is over, or has failed, it takes the bindings back one by
one. -/
inductive Node.Meets : Node → Session → Session → Prop
  | start {node : Node} {session : Session} : Meets node session session
  | finish {node : Node} {session : Session} : Meets node session (node.render session).session
  | child {before rest : List Node} {node : Node} {location : Location}
      {session reached point : Session} :
      Node.renderAll before session = reached.done -> Meets node reached point ->
      Meets (.sequence (before ++ node :: rest) location) session point
  | thenBranch {condition : Expr} {thenBranch elseBranch : Node} {location : Location}
      {session point : Session} :
      condition.isTrue session.context = .ok true -> Meets thenBranch session point ->
      Meets (.conditional condition thenBranch elseBranch location) session point
  | elseBranch {condition : Expr} {thenBranch elseBranch : Node} {location : Location}
      {session point : Session} :
      condition.isTrue session.context = .ok false -> Meets elseBranch session point ->
      Meets (.conditional condition thenBranch elseBranch location) session point
  | between {name : String} {collection : Expr} {body : Node} {location : Location} {index : Nat}
      {item : Value} {rest : List Value} {session before : Session} :
      Node.RunsFrom name collection body session index item rest before ->
      Meets (.forEach name collection body location) session before
  | binding {name : String} {collection : Expr} {body : Node} {location : Location} {index : Nat}
      {item : Value} {rest : List Value} {session before : Session} :
      Node.RunsFrom name collection body session index item rest before ->
      Meets (.forEach name collection body location) session
        ⟨before.context.shadow before.context.mark name item, before.output⟩
  | inside {name : String} {collection : Expr} {body : Node} {location : Location} {index : Nat}
      {item : Value} {rest : List Value} {session before point : Session} :
      Node.RunsFrom name collection body session index item rest before ->
      Meets body (before.enter before.context.mark name item (loopMetadata index !rest.isEmpty))
        point ->
      Meets (.forEach name collection body location) session point
  | closing {name : String} {collection : Expr} {body : Node} {location : Location} {index : Nat}
      {item : Value} {rest : List Value} {session before : Session} {mark : Nat} :
      Node.RunsFrom name collection body session index item rest before ->
      before.context.mark ≤ mark ->
      Meets (.forEach name collection body location) session
        ((body.render (before.enter before.context.mark name item
          (loopMetadata index !rest.isEmpty))).session.leave mark)

section

variable {P : Context → Prop}

theorem Proceeds.stable (hP : Stable P) {name : String} {body : Session → Outcome}
    {index index' : Nat} {items items' : List Value} {session session' : Session}
    (hbody : ∀ session, P session.context -> P (body session).session.context)
    (hruns : Proceeds name body index items session index' items' session')
    (h : P session.context) : P session'.context := by
  induction hruns with
  | here => exact h
  | @next index index' item rest items' session after session' hrun _ ih =>
      -- The next run starts from where this one ended, with its scope closed.
      have hafter := hbody _ (Session.stable_enter hP h session.context.mark name item
        (loopMetadata index !rest.isEmpty))
      rw [hrun] at hafter
      exact ih (Session.stable_leave hP hafter session.context.mark)

namespace Node

theorem RunsFrom.stable (hP : Stable P) {name : String} {collection : Expr} {body : Node}
    {session before : Session} {index : Nat} {item : Value} {rest : List Value}
    (hruns : RunsFrom name collection body session index item rest before)
    (h : P session.context) : P before.context := by
  rcases hruns with ⟨value, items, _, _, hproceeds⟩
  exact hproceeds.stable hP (fun _ => stable_render hP body) h

/-- Whatever no change of a context breaks holds at every point of a run. -/
theorem Meets.stable (hP : Stable P) {node : Node} {session point : Session}
    (hmeets : node.Meets session point) (h : P session.context) : P point.context := by
  induction hmeets with
  | start => exact h
  | @finish node session => exact stable_render hP node h
  | @child before rest node location session reached point hbefore _ ih =>
      have hreached := stable_renderAll hP before h
      rw [hbefore] at hreached
      exact ih hreached
  | thenBranch _ _ ih => exact ih h
  | elseBranch _ _ ih => exact ih h
  | between hruns => exact hruns.stable hP h
  | binding hruns => exact hP.shadow _ _ _ (hruns.stable hP h)
  | inside hruns _ ih => exact ih (Session.stable_enter hP (hruns.stable hP h) _ _ _ _)
  | @closing name collection body location index item rest session before mark hruns _ =>
      have hentered := Session.stable_enter hP (hruns.stable hP h) before.context.mark name item
        (loopMetadata index !rest.isEmpty)
      exact Session.stable_leave hP (stable_render hP body hentered) mark

end Node

end

/-!
## Where rendering fails

The error that ends a run is one that can occur in the context of some point of the run.
-/

theorem exists_failing_run {name : String} {body : Session → Outcome} {e : Located EvalError}
    {items : List Value} {index : Nat} {session : Session}
    (h : (renderEach name body index items session).failure? = some e) :
    ∃ index' item rest before,
      Proceeds name body index items session index' (item :: rest) before
      ∧ (body (before.enter before.context.mark name item
          (loopMetadata index' !rest.isEmpty))).failure? = some e := by
  induction items generalizing index session with
  | nil => cases h
  | cons item rest ih =>
      rw [renderEach] at h
      cases hrun : body (session.enter session.context.mark name item
          (loopMetadata index !rest.isEmpty)) with
      | mk after failure? =>
          rw [hrun] at h
          cases failure? with
          | none =>
              rcases ih h with ⟨index', item', rest', before, hproceeds, hfails⟩
              exact ⟨index', item', rest', before, .next hrun hproceeds, hfails⟩
          | some error =>
              refine ⟨index, item, rest, session, .here, ?_⟩
              rw [hrun]
              exact h

namespace Node

mutual

theorem exists_meets_of_failure : ∀ (node : Node) {session : Session} {e : Located EvalError},
    (node.render session).failure? = some e ->
    ∃ point, node.Meets session point ∧ e.cause.Arises point.context
  | .sequence children _, session, e, h => by
      rw [render] at h
      rcases exists_child_of_failure children h with
        ⟨before, node, rest, reached, point, rfl, hbefore, hmeets, harises⟩
      exact ⟨point, .child hbefore hmeets, harises⟩
  | .text content _, session, e, h => by
      rw [render] at h
      cases h
  | .output expr _, session, e, h => by
      rw [render] at h
      split at h
      · next error heq =>
          cases h
          have hblamed := Expr.blames_evaluate session.context (List.Subset.refl _) e heq
          exact ⟨session, .start, hblamed.arises⟩
      · split at h
        · cases h
        · cases h
          refine ⟨session, .start, fun name hname => ?_⟩
          cases hname
      · cases h
  | .conditional condition thenBranch elseBranch _, session, e, h => by
      rw [render] at h
      split at h
      · next error heq =>
          cases h
          have hblamed := Expr.blames_isTrue session.context (List.Subset.refl _) e heq
          exact ⟨session, .start, hblamed.arises⟩
      · next htrue =>
          rcases exists_meets_of_failure thenBranch h with ⟨point, hmeets, harises⟩
          exact ⟨point, .thenBranch htrue hmeets, harises⟩
      · next hfalse =>
          rcases exists_meets_of_failure elseBranch h with ⟨point, hmeets, harises⟩
          exact ⟨point, .elseBranch hfalse hmeets, harises⟩
  | .forEach name collection body _, session, e, h => by
      rw [render] at h
      split at h
      · next error heq =>
          cases h
          have hblamed := Expr.blames_evaluate session.context (List.Subset.refl _) e heq
          exact ⟨session, .start, hblamed.arises⟩
      · next value hvalue =>
          cases hitems : value.loopItems with
          | error cause =>
              rw [hitems] at h
              cases h
              exact ⟨session, .start, (value.ofValues_loopItems cause hitems).arises _⟩
          | ok items =>
              rw [hitems] at h
              rcases exists_failing_run h with
                ⟨index, item, rest, before, hproceeds, hfails⟩
              rcases exists_meets_of_failure body hfails with ⟨point, hmeets, harises⟩
              exact ⟨point, .inside ⟨value, items, hvalue, hitems, hproceeds⟩ hmeets, harises⟩
  | .set name expr _, session, e, h => by
      rw [render] at h
      split at h
      · next error heq =>
          cases h
          have hblamed := Expr.blames_evaluate session.context (List.Subset.refl _) e heq
          exact ⟨session, .start, hblamed.arises⟩
      · cases h
  | .comment _, session, e, h => by
      rw [render] at h
      cases h
  | .macroCall name _ location, session, e, h => by
      rw [render] at h
      cases h
      refine ⟨session, .start, fun found hfound => ?_⟩
      cases hfound

theorem exists_child_of_failure : ∀ (nodes : List Node) {session : Session}
    {e : Located EvalError}, (renderAll nodes session).failure? = some e ->
    ∃ before node rest reached point, nodes = before ++ node :: rest
      ∧ renderAll before session = reached.done ∧ node.Meets reached point
      ∧ e.cause.Arises point.context
  | [], session, e, h => by
      rw [renderAll] at h
      cases h
  | node :: rest, session, e, h => by
      rw [renderAll] at h
      split at h
      · next after heq =>
          rcases exists_child_of_failure rest h with
            ⟨before, child, behind, reached, point, rfl, hbefore, hmeets, harises⟩
          refine ⟨node :: before, child, behind, reached, point, rfl, ?_, hmeets, harises⟩
          rw [renderAll, heq]
          exact hbefore
      · rcases exists_meets_of_failure node h with ⟨point, hmeets, harises⟩
        refine ⟨[], node, rest, session, point, rfl, ?_, hmeets, harises⟩
        rw [renderAll]

end

end Node

/-!
## Variables that stay bound
-/

namespace Context

/-- The variable is bound, and no saved binding says that it was not. -/
structure Keeps (name : String) (context : Context) : Prop where
  bound : (context.get? name).isSome = true
  saved : ∀ binding ∈ context.saved, binding.name = name -> binding.previous.isSome = true

theorem isSome_update {lookup : String → Option Value} {name other : String}
    {previous : Option Value} (h : (lookup name).isSome = true)
    (hprevious : other = name -> previous.isSome = true) :
    (Function.update lookup other previous name).isSome = true := by
  by_cases hname : name = other
  · rw [hname, Function.update_self]
    exact hprevious hname.symm
  · rw [Function.update_of_ne hname]
    exact h

theorem isSome_undo {recent : List SavedBinding} {lookup : String → Option Value} {name : String}
    (h : (lookup name).isSome = true)
    (hrecent : ∀ binding ∈ recent, binding.name = name -> binding.previous.isSome = true) :
    (undo recent lookup name).isSome = true := by
  induction recent generalizing lookup with
  | nil => exact h
  | cons binding recent ih =>
      rw [List.forall_mem_cons] at hrecent
      rw [undo_cons]
      exact ih (isSome_update h hrecent.1) hrecent.2

theorem stable_keeps (name : String) : Stable (Keeps name) where
  set := by
    intro context other value h
    refine ⟨?_, h.saved⟩
    rw [get?_set_eq]
    exact isSome_update h.bound fun _ => rfl
  shadow := by
    intro context mark other value h
    constructor
    · rw [get?_shadow_eq]
      exact isSome_update h.bound fun _ => rfl
    · rw [shadow]
      split
      · exact h.saved
      · refine List.forall_mem_cons.mpr ⟨?_, h.saved⟩
        -- What is saved is the binding at this point, and there is one.
        rintro rfl
        exact h.bound
  restore := by
    intro context mark h
    have hsince : ∀ binding ∈ context.savedSince mark,
        binding.name = name -> binding.previous.isSome = true :=
      fun binding hbinding => h.saved binding (List.mem_of_mem_take hbinding)
    have hundo : (context.restore mark).get? = undo (context.savedSince mark) context.get? :=
      get?_foldl_restore _ _
    constructor
    · rw [hundo]
      exact isSome_undo h.bound hsince
    · intro binding hbinding
      exact h.saved binding (List.mem_of_mem_drop hbinding)

end Context

theorem Context.keeps_ofVariables {bindings : List (String × Value)} {name : String}
    {value : Value} (h : (name, value) ∈ bindings) : Keeps name (ofVariables bindings) where
  bound := by
    rw [get?_ofVariables, Entries.find?_isSome_iff]
    exact List.mem_map_of_mem (List.mem_reverse.mpr h)
  saved := List.forall_mem_nil _

/-!
## Templates
-/

namespace Template

/-- A variable that a template is started with is bound at every point of the run.  So what a
rendering misses is not among the variables supplied. -/
theorem supplied_stays_bound {resource text : String} {template : Template}
    (h : parse resource text = .ok template) (bindings : List (String × Value)) :
    (∀ point, template.root.Meets (.start (.ofVariables bindings)) point ->
      ∀ entry ∈ bindings, ∃ value, point.context.get? entry.1 = some value)
    ∧ ∀ name location,
      render resource text bindings = .error (.evaluation ⟨.undefinedReference name, location⟩) ->
      ∀ value, (name, value) ∉ bindings := by
  have hbound : ∀ point, template.root.Meets (.start (.ofVariables bindings)) point ->
      ∀ entry ∈ bindings, ∃ value, point.context.get? entry.1 = some value := by
    intro point hpoint entry hentry
    have hkeeps := hpoint.stable (stable_keeps entry.1) (keeps_ofVariables hentry)
    exact Option.isSome_iff_exists.mp hkeeps.bound
  refine ⟨hbound, fun name location herror value hmem => ?_⟩
  have hfails : (template.root.render (.start (.ofVariables bindings))).failure?
      = some ⟨.undefinedReference name, location⟩ := by
    rw [render, h] at herror
    dsimp only at herror
    rw [evaluate, Outcome.result] at herror
    split at herror
    · cases herror
    · next hfound =>
        cases herror
        exact hfound
  rcases Node.exists_meets_of_failure template.root hfails with ⟨point, hpoint, harises⟩
  rcases hbound point hpoint (name, value) hmem with ⟨found, hfound⟩
  have hunbound : point.context.get? name = none := harises name rfl
  rw [hunbound] at hfound
  cases hfound

/-- Both loops take the supplied variable for their own, and the assignment changes it in
between. -/
theorem supplied_stays_bound_reused :
    ∃ template,
      parse "t" "#foreach($x in [1])#set($x = 2)#foreach($x in [3])$x#end#end$y" = .ok template
      ∧ (∀ point, template.root.Meets (.start (.ofVariables [("x", .null)])) point ->
        ∀ entry ∈ [("x", Value.null)], ∃ value, point.context.get? entry.1 = some value)
      ∧ (render "t" "#foreach($x in [1])#set($x = 2)#foreach($x in [3])$x#end#end$y"
          [("x", .null)]).mapError TemplateError.message
        = .error "t:1: undefined reference $y" := by
  have hok : (parse "t"
      "#foreach($x in [1])#set($x = 2)#foreach($x in [3])$x#end#end$y").isOk = true := by
    decide +kernel
  rcases exists_of_isOk hok with ⟨template, h⟩
  refine ⟨template, h, (supplied_stays_bound h _).1, ?_⟩
  decide +kernel

end Template

end Stencil
