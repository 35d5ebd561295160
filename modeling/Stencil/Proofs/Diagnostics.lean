import Stencil.Proofs.NodeExtent
import Stencil.Proofs.Placement
import Stencil.Proofs.Supported

/-!
# Diagnostics point into the template

What is wrong with a template is reported on one of its lines.  Evaluation has no cursor any more:
it blames an error on the location of some part of the tree, and these are lines of the text.  A
variable is reported as undefined only where the context does not bind it.
-/

namespace Stencil

/-!
## Expressions
-/

/-- What evaluation in a context can run into. -/
def EvalError.Arises (context : Context) (e : EvalError) : Prop :=
  ∀ name ∈ e.undefinedName?, context.get? name = none

theorem EvalError.OfValues.arises {e : EvalError} (h : e.OfValues) (context : Context) :
    e.Arises context := by
  intro name hname
  rw [h.defined] at hname
  cases hname

theorem Value.arises_apply (context : Context) (op : Operator) (a b : Value) :
    FailsOnly (EvalError.Arises context) (apply op a b) := by
  by_cases hop : op = .stop ∨ op = .or ∨ op = .and
  · rcases hop with rfl | rfl | rfl
    all_goals
      refine .error fun name hname => ?_
      cases hname
  · rw [not_or, not_or] at hop
    exact (ofValues_apply hop.1 hop.2.1 hop.2.2 a b).imp fun e h => h.arises context

/-- The error lies at one of the locations and can occur in the context. -/
structure Located.BlamedOn (context : Context) (locations : List Location)
    (e : Located EvalError) : Prop where
  location_mem : e.location ∈ locations
  arises : e.cause.Arises context

abbrev Blames (context : Context) (locations : List Location)
    (x : Except (Located EvalError) α) : Prop :=
  FailsOnly (Located.BlamedOn context locations) x

section

variable {locations : List Location} {context : Context}

theorem blames_locate {location : Location} (h : location ∈ locations) {x : Except EvalError α}
    (hx : FailsOnly (EvalError.Arises context) x) :
    Blames context locations (locate location x) := by
  cases x with
  | error cause => exact .error ⟨h, hx cause rfl⟩
  | ok a => exact .ok a

theorem blames_ofValues {location : Location} (h : location ∈ locations) {x : Except EvalError α}
    (hx : FailsOnly EvalError.OfValues x) : Blames context locations (locate location x) :=
  blames_locate h (hx.imp fun _ he => he.arises context)

theorem Expr.blames_truth {expr : Expr} {value : Except (Located EvalError) Value}
    (h : Blames context locations value) :
    Blames context locations (expr.truth context value) := by
  rw [Expr.truth.eq_def]
  split
  · exact .ok _
  · exact h.map

theorem Expr.blames_bound {bound : Expr} {value : Except (Located EvalError) Value}
    (hbound : bound.locations ⊆ locations) (h : Blames context locations value) :
    Blames context locations (bound.bound value) := by
  refine .bind h fun found => ?_
  split
  · exact .ok _
  · refine .error ⟨hbound bound.location_mem_locations, fun name hname => ?_⟩
    cases hname

mutual

theorem Expr.blames_evaluate (context : Context) : ∀ {e : Expr},
    e.locations ⊆ locations -> Blames context locations (e.evaluate context)
  | .literal value _, _ => by
      rw [Expr.evaluate]
      exact .ok _
  | .reference ref _, h => by
      rw [Expr.locations, List.cons_subset] at h
      rw [Expr.evaluate]
      exact Reference.blames_resolve context h.2
  | .binary op lhs rhs location, h => by
      rw [Expr.locations, List.cons_subset, List.append_subset] at h
      have hlhs := Expr.blames_evaluate context h.2.1
      have hrhs := Expr.blames_evaluate context h.2.2
      cases op with
      | or =>
          rw [Expr.evaluate]
          refine .bind (Expr.blames_truth hlhs) fun left => ?_
          split
          · exact .ok _
          · exact .bind (Expr.blames_truth hrhs) fun _ => .ok _
      | and =>
          rw [Expr.evaluate]
          refine .bind (Expr.blames_truth hlhs) fun left => ?_
          split
          · exact .bind (Expr.blames_truth hrhs) fun _ => .ok _
          · exact .ok _
      | _ =>
          rw [Expr.evaluate]
          · exact .bind hlhs fun a => .bind hrhs fun b =>
              blames_locate h.1 (Value.arises_apply context _ a b)
          all_goals rintro ⟨⟩
  | .not operand _, h => by
      rw [Expr.locations, List.cons_subset] at h
      rw [Expr.evaluate]
      exact .bind (Expr.blames_truth (Expr.blames_evaluate context h.2)) fun _ => .ok _
  | .list items _, h => by
      rw [Expr.locations, List.cons_subset] at h
      rw [Expr.evaluate]
      exact .bind (Expr.blames_evaluateAll context h.2) fun _ => .ok _
  | .range first last location, h => by
      rw [Expr.locations, List.cons_subset, List.append_subset] at h
      rw [Expr.evaluate]
      refine .bind (Expr.blames_bound h.2.1 (Expr.blames_evaluate context h.2.1)) fun _ => ?_
      refine .bind (Expr.blames_bound h.2.2 (Expr.blames_evaluate context h.2.2)) fun _ => ?_
      exact blames_ofValues h.1 (Value.ofValues_range _ _)

theorem Reference.blames_resolve (context : Context) : ∀ {ref : Reference},
    ref.locations ⊆ locations -> Blames context locations (ref.resolve context)
  | .plain name silent location, h => by
      rw [Reference.resolve]
      split
      · exact .ok _
      · next hunbound =>
          split
          · exact .ok _
          · refine .error ⟨h List.mem_cons_self, fun found hfound => ?_⟩
            cases hfound
            exact hunbound
  | .member lhs name silent location, h => by
      rw [Reference.locations, List.cons_subset] at h
      rw [Reference.resolve]
      refine .bind (Reference.blames_resolve context h.2) fun target => ?_
      split
      · exact .ok _
      · exact blames_ofValues h.1 (Value.ofValues_member _ _)
  | .method lhs name args silent location, h => by
      rw [Reference.locations, List.cons_subset, List.append_subset] at h
      rw [Reference.resolve]
      refine .bind (Reference.blames_resolve context h.2.1) fun target => ?_
      split
      · exact .ok _
      · refine .bind (Expr.blames_evaluateAll context h.2.2) fun values => ?_
        exact blames_ofValues h.1 (Value.ofValues_call _ _ _)
  | .index lhs index silent location, h => by
      rw [Reference.locations, List.cons_subset, List.append_subset] at h
      rw [Reference.resolve]
      refine .bind (Reference.blames_resolve context h.2.1) fun target => ?_
      split
      · exact .ok _
      · refine .bind (Expr.blames_evaluate context h.2.2) fun key => ?_
        exact blames_ofValues h.1 (Value.ofValues_index _ _)

theorem Expr.blames_evaluateAll (context : Context) : ∀ {es : List Expr},
    Expr.locationsAll es ⊆ locations -> Blames context locations (Expr.evaluateAll context es)
  | [], _ => by
      rw [Expr.evaluateAll]
      exact .ok _
  | e :: rest, h => by
      rw [Expr.locationsAll, List.append_subset] at h
      rw [Expr.evaluateAll]
      refine .bind (Expr.blames_evaluate context h.1) fun value => ?_
      exact .bind (Expr.blames_evaluateAll context h.2) fun values => .ok _

end

theorem Expr.blames_isTrue (context : Context) {e : Expr} (h : e.locations ⊆ locations) :
    Blames context locations (e.isTrue context) :=
  Expr.blames_truth (Expr.blames_evaluate context h)

/-!
## Nodes
-/

abbrev Outcome.Blames (locations : List Location) (outcome : Outcome) : Prop :=
  outcome.FailsOnly fun e => e.location ∈ locations

mutual

theorem Node.blames_render : ∀ {node : Node}, node.locations ⊆ locations ->
    ∀ session, (node.render session).Blames locations
  | .sequence children _, h, session => by
      rw [Node.locations, List.cons_subset] at h
      rw [Node.render]
      exact Node.blames_renderAll h.2 session
  | .text content _, _, session => by
      rw [Node.render]
      exact .done _
  | .output expr _, h, session => by
      rw [Node.locations, List.cons_subset] at h
      rw [Node.render]
      split
      · next error heq =>
          exact .fail _ (Expr.blames_evaluate session.context h.2 error heq).location_mem
      · split
        · exact .done _
        · exact .fail _ (h.2 expr.location_mem_locations)
      · exact .done _
  | .conditional condition thenBranch elseBranch _, h, session => by
      rw [Node.locations, List.cons_subset, List.append_subset, List.append_subset] at h
      rcases h with ⟨_, hcondition, hthen, helse⟩
      rw [Node.render]
      split
      · next error heq =>
          exact .fail _ (Expr.blames_isTrue session.context hcondition error heq).location_mem
      · exact Node.blames_render hthen session
      · exact Node.blames_render helse session
  | .forEach name collection body _, h, session => by
      rw [Node.locations, List.cons_subset, List.append_subset] at h
      rcases h with ⟨_, hcollection, hbody⟩
      rw [Node.render]
      split
      · next error heq =>
          have hblamed := Expr.blames_evaluate session.context hcollection error heq
          exact .fail _ hblamed.location_mem
      · next value _ =>
          split
          · next error heq =>
              have hlocation := hcollection collection.location_mem_locations
              have hblamed : Blames session.context locations
                  (locate collection.location value.loopItems) :=
                blames_ofValues hlocation value.ofValues_loopItems
              exact .fail _ (hblamed error heq).location_mem
          · exact failsOnly_renderEach (Node.blames_render hbody) _ 0 session
  | .set name expr _, h, session => by
      rw [Node.locations, List.cons_subset] at h
      rw [Node.render]
      split
      · next error heq =>
          exact .fail _ (Expr.blames_evaluate session.context h.2 error heq).location_mem
      · exact .done _
  | .comment _, _, session => by
      rw [Node.render]
      exact .done _
  | .macroCall name _ location, h, session => by
      rw [Node.render]
      exact .fail _ (h List.mem_cons_self)

theorem Node.blames_renderAll : ∀ {nodes : List Node}, Node.locationsAll nodes ⊆ locations ->
    ∀ session, (Node.renderAll nodes session).Blames locations
  | [], _, session => by
      rw [Node.renderAll]
      exact .done _
  | node :: rest, h, session => by
      rw [Node.locationsAll, List.append_subset] at h
      have hrun := Node.blames_render h.1 session
      rw [Node.renderAll]
      split
      · next after heq => exact Node.blames_renderAll h.2 after
      · exact hrun

end

end

/-!
## Templates
-/

namespace Template

/-- Whatever goes wrong with a text or with its tree is reported on a line of the text, and the
nodes of the tree are located where they are written. -/
theorem diagnostics_inside (resource text : String) :
    (∀ e, parse resource text = .error e -> e.location.Inside (.ofText resource text))
    ∧ ∀ template, parse resource text = .ok template ->
        (∀ location ∈ template.root.locations, location.Inside (.ofText resource text))
        ∧ (template.root.preorder.map fun entry => entry.2.location.line).Pairwise (· ≤ ·)
        ∧ Node.PlacedAll resource [] template.nodes text.toList []
        ∧ ∀ session e, (template.root.render session).failure? = some e ->
            e.location ∈ template.root.locations := by
  have hinside := parse_inside resource text
  constructor
  · intro e h
    rw [h] at hinside
    exact hinside
  · intro template h
    rw [h] at hinside
    refine ⟨hinside, sorted_lines_of_parse h, placedAll_of_parse h, fun session e he => ?_⟩
    exact Node.blames_render (List.Subset.refl _) session e he

/-- The conditional is not closed in the first text; the second one fails on its third line. -/
theorem diagnostics_inside_branches :
    (∃ e, parse "t" "a\n#if($x)\nb" = .error e ∧ e.location.Inside (.ofText "t" "a\n#if($x)\nb"))
    ∧ ∃ template e, parse "t" "#if($x)\n#elseif(true)\n$y.z#end" = .ok template
      ∧ (template.root.render (.start (.ofVariables []))).failure? = some e
      ∧ (∀ location ∈ template.root.locations,
          location.Inside (.ofText "t" "#if($x)\n#elseif(true)\n$y.z#end"))
      ∧ (template.root.preorder.map fun entry => entry.2.location.line).Pairwise (· ≤ ·)
      ∧ Node.PlacedAll "t" [] template.nodes "#if($x)\n#elseif(true)\n$y.z#end".toList []
      ∧ e.location ∈ template.root.locations := by
  have hrejected : (parse "t" "a\n#if($x)\nb").isOk = false := by
    decide +kernel
  have hfails : ((parse "t" "#if($x)\n#elseif(true)\n$y.z#end").map fun template =>
      (template.root.render (.start (.ofVariables []))).failure?.isSome).toOption = some true := by
    decide +kernel
  constructor
  · cases h : parse "t" "a\n#if($x)\nb" with
    | ok template =>
        rw [h] at hrejected
        cases hrejected
    | error e => exact ⟨e, rfl, (diagnostics_inside "t" "a\n#if($x)\nb").1 e h⟩
  · cases h : parse "t" "#if($x)\n#elseif(true)\n$y.z#end" with
    | error e =>
        rw [h] at hfails
        cases hfails
    | ok template =>
        rw [h] at hfails
        rcases Option.isSome_iff_exists.mp (Option.some.inj hfails) with ⟨e, he⟩
        rcases (diagnostics_inside "t" _).2 template h with ⟨hinside, hsorted, hplaced, hblames⟩
        exact ⟨template, e, rfl, he, hinside, hsorted, hplaced, hblames _ e he⟩

end Template

end Stencil
