import Stencil.Proofs.Iteration

/-!
# Loops over lists in a row

A loop over two lists in a row does what a loop over the first list and then one over the second do.
Only the loop metadata tell the runs apart, so this holds for every body that does not ask for them.
-/

namespace Stencil

namespace Outcome

theorem AgreeOn.andThen {names : Finset String} {outcome other : Outcome}
    {next next' : Session → Outcome} (h : AgreeOn names outcome other)
    (hnext : ∀ session session', session.AgreeOn names session' ->
      (next session).AgreeOn names (next' session')) :
    AgreeOn names (outcome.andThen next) (other.andThen next') := by
  rcases outcome with ⟨session, failure?⟩
  rcases other with ⟨session', failure?'⟩
  have hfailure : failure? = failure?' := h.failure?_eq
  cases hfailure
  cases failure? with
  | none => exact hnext session session' h.session
  | some error => exact h

end Outcome

/-!
## Runs with other metadata
-/

namespace Context

/-- Shadowed with any two values, the name itself is left out. -/
theorem AgreeOn.shadow_apart {names : Finset String} {context other : Context}
    (h : AgreeOn names context other) (mark mark' : Nat) (name : String) (value value' : Value) :
    AgreeOn (names.erase name) (context.shadow mark name value)
      (other.shadow mark' name value') := by
  intro found hfound
  have hname : name ≠ found := (Finset.ne_of_mem_erase hfound).symm
  rw [get?_shadow, get?_shadow, if_neg hname, if_neg hname]
  exact h found (Finset.mem_of_mem_erase hfound)

end Context

namespace Session

/-- What the body of a loop must keep to for the loop itself to keep to `names`. -/
def inBody (name : String) (names : Finset String) : Finset String :=
  (insert name names).erase loopVariable

theorem AgreeOn.enter_apart {names : Finset String} {session other : Session}
    (h : AgreeOn names session other) (name : String) (item metadata metadata' : Value) :
    AgreeOn (inBody name names) (session.enter session.context.mark name item metadata)
      (other.enter other.context.mark name item metadata') :=
  ⟨(h.context.shadow _ _ name item).shadow_apart _ _ loopVariable metadata metadata', h.output_eq⟩

theorem erase_subset_inBody (name : String) (names : Finset String) :
    (names.erase name).erase loopVariable ⊆ inBody name names := by
  apply Finset.erase_subset_erase
  exact (Finset.erase_subset name names).trans (Finset.subset_insert name names)

end Session

section

variable {name : String} {body : Session → Outcome} {names : Finset String}
  (hframe : ∀ session, (body session).session.context.saved = session.context.saved)
  (hbody : ∀ session other, session.AgreeOn (Session.inBody name names) other ->
    (body session).AgreeOn (Session.inBody name names) (body other))

include hframe hbody

theorem agreeOn_run {session other : Session} (h : session.AgreeOn names other)
    (item metadata metadata' : Value) :
    (session.run name body item metadata).AgreeOn names
      (other.run name body item metadata') :=
  h.run (Session.erase_subset_inBody name names) hframe
    (hbody _ _ (h.enter_apart name item metadata metadata'))

theorem agreeOn_renderEach_from (items : List Value) (index index' : Nat)
    {session other : Session} (h : session.AgreeOn names other) :
    (renderEach name body index items session).AgreeOn names
      (renderEach name body index' items other) := by
  induction items generalizing index index' session other with
  | nil => exact h.done
  | cons item rest ih =>
      rw [renderEach_cons, renderEach_cons]
      apply (agreeOn_run hframe hbody h item _ _).andThen
      intro after after' hafter
      exact ih (index + 1) (index' + 1) hafter

theorem agreeOn_renderEach_append (xs ys : List Value) (index index' index'' : Nat)
    {session other : Session} (h : session.AgreeOn names other) :
    (renderEach name body index (xs ++ ys) session).AgreeOn names
      ((renderEach name body index' xs other).andThen (renderEach name body index'' ys)) := by
  induction xs generalizing index index' session other with
  | nil => exact agreeOn_renderEach_from hframe hbody ys index index'' h
  | cons item rest ih =>
      rw [List.cons_append, renderEach_cons, renderEach_cons, Outcome.andThen_assoc]
      apply (agreeOn_run hframe hbody h item _ _).andThen
      intro after after' hafter
      exact ih (index + 1) (index' + 1) hafter

end

/-!
## Nodes
-/

namespace Node

/-- A body that does not ask for the loop metadata cannot tell where the lists meet.  What a run
assigns besides the names of the loop is there for the next run; what it assigns to the loop
variable is not. -/
theorem render_forEach_append {name a b c : String} {body : Node} {session : Session}
    {xs ys : List Value} (silent : String → Bool) (place place' : String → Location)
    (hmentioned : loopVariable ∉ body.mentioned) (hassigned : b ∉ body.assigned)
    (ha : session.context.get? a = some (.list xs))
    (hb : session.context.get? b = some (.list ys))
    (hc : session.context.get? c = some (.list (xs ++ ys))) :
    let loop (list : String) :=
      forEach name (.ofReference (.plain list (silent list) (place list))) body (place' list)
    let whole := (loop c).render session
    let parts := renderAll [loop a, loop b] session
    whole.failure? = parts.failure? ∧ whole.session.output = parts.session.output
      ∧ (∀ found, whole.session.context.get? found = parts.session.context.get? found)
      ∧ ∃ starts, Runs name body.render (xs ++ ys).length 0 (xs ++ ys) session starts whole
        ∧ (∀ i start, starts[i]? = some start ->
          (name ≠ loopVariable -> start.context.get? name = (xs ++ ys)[i]?)
          ∧ (∃ value, start.context.get? loopVariable = some value
            ∧ value.IsLoopMetadata i (xs ++ ys).length)
          ∧ ∀ next, starts[i + 1]? = some next -> ∃ after : Session,
            body.render start = after.done ∧ next.output = after.output
            ∧ ∀ other, other ≠ loopVariable -> other ≠ name ->
              next.context.get? other = after.context.get? other)
        ∧ whole.session.context.get? name = session.context.get? name := by
  intro loop whole parts
  have hframe (start : Session) :
      (body.render start).session.context.saved = start.context.saved :=
    (changesOnly_render body start).saved_eq
  have hloop {list : String} {items : List Value} {start : Session}
      (h : start.context.get? list = some (.list items)) :
      (loop list).render start = renderEach name body.render 0 items start :=
    render_forEach (evaluate_variable h _ _) rfl
  have hwhole : whole = renderEach name body.render 0 (xs ++ ys) session := hloop hc
  have hkept : ((loop a).render session).session.context.get? b = some (.list ys) := by
    have hother : b ∉ (loop a).assigned := by
      rw [assigned]
      exact fun hmem => hassigned (Finset.mem_of_mem_erase (Finset.mem_of_mem_erase hmem))
    exact ((changesOnly_render (loop a) session).get?_eq b hother).trans hb
  have hparts : parts = (renderEach name body.render 0 xs session).andThen
      (renderEach name body.render 0 ys) := by
    rw [← hloop ha]
    have hsecond := (renderAll_singleton (loop b) _).trans (hloop hkept)
    exact (renderAll_cons (loop a) [loop b] session).trans (Outcome.andThen_congr hsecond)
  have hagree (found : String) : whole.AgreeOn (insert found body.mentioned) parts := by
    rw [hwhole, hparts]
    have hbody : body.mentioned ⊆ Session.inBody name (insert found body.mentioned) := by
      intro other hother
      apply Finset.mem_erase_of_ne_of_mem
      · exact fun same => hmentioned (same ▸ hother)
      · exact Finset.mem_insert_of_mem (Finset.mem_insert_of_mem hother)
    apply agreeOn_renderEach_append hframe
    · intro start start' h
      exact agreeOn_render body hbody h
    · exact ⟨fun _ _ => rfl, rfl⟩
  refine ⟨(hagree name).failure?_eq, (hagree name).session.output_eq, ?_, ?_⟩
  · intro found
    exact (hagree found).session.context found (Finset.mem_insert_self found _)
  · have hvalue := evaluate_variable hc (silent c) (place c)
    rcases exists_runs_forEach hvalue rfl with ⟨starts, hstarts⟩
    refine ⟨starts, hstarts, ?_, hstarts.own_eq (Or.inr rfl)⟩
    intro i start hstart
    rcases hstarts.getElem?_start i hstart with ⟨item, hitem, hbound, hmetadata⟩
    rw [Nat.zero_add] at hmetadata
    refine ⟨?_, hmetadata, ?_⟩
    · intro hname
      rw [hitem]
      exact hbound hname
    · intro next hnext
      exact hstarts.carries i hstart hnext

/-- A null in the second list stops the loop over both and the loop over the second one. -/
theorem render_forEach_append_failing :
    let place : Location := ⟨"t", 1⟩
    let item := Expr.ofReference (.plain "x" false place)
    let body := sequence [output item place, set "last" item place] place
    let xs := [Value.int 1, .int 2]
    let ys := [Value.int 3, .null, .int 4]
    let session := Session.start
      (Context.ofVariables [("a", .list xs), ("b", .list ys), ("c", .list (xs ++ ys))])
    let loop (list : String) := forEach "x" (.ofReference (.plain list false place)) body place
    let whole := (loop "c").render session
    let parts := renderAll [loop "a", loop "b"] session
    whole.failure?.isSome = true ∧ whole.session.output = "123"
      ∧ whole.failure? = parts.failure? ∧ whole.session.output = parts.session.output
      ∧ whole.session.context.get? "last" = parts.session.context.get? "last" := by
  intro place item body xs ys session loop whole parts
  have hmentioned : loopVariable ∉ body.mentioned := by
    decide +kernel
  have hassigned : "b" ∉ body.assigned := by
    decide +kernel
  have ha : session.context.get? "a" = some (.list xs) := by
    decide +kernel
  have hb : session.context.get? "b" = some (.list ys) := by
    decide +kernel
  have hc : session.context.get? "c" = some (.list (xs ++ ys)) := by
    decide +kernel
  have hsplit := @render_forEach_append "x" "a" "b" "c" body session xs ys (fun _ => false)
    (fun _ => place) (fun _ => place) hmentioned hassigned ha hb hc
  refine ⟨?_, ?_, hsplit.1, hsplit.2.1, hsplit.2.2.1 "last"⟩
  · decide +kernel
  · decide +kernel

end Node

end Stencil
