import Stencil.Proofs.MethodCalls
import Stencil.Proofs.WellFormed
import Stencil.Rendering

/-!
# Evaluation of well-formed templates

Evaluation has errors for operators without a value and for calls of macros.  They do not occur in
well-formed trees: the stop operator is not part of a chain, the logical operators are evaluated
apart, and no macro is called.
-/

namespace Stencil

def EvalError.isUnsupported : EvalError → Bool
  | unsupportedOperator _ => true
  | unsupportedCall _ => true
  | _ => false

/-- Whatever the error is, if there is one, it has the property. -/
def FailsOnly (p : ε → Prop) (x : Except ε α) : Prop :=
  ∀ e, x = .error e -> p e

namespace FailsOnly

variable {p : ε → Prop}

theorem ok (a : α) : FailsOnly p (.ok a : Except ε α) := by
  intro e h
  cases h

theorem error {e : ε} (he : p e) : FailsOnly p (.error e : Except ε α) := by
  intro found h
  cases h
  exact he

theorem bind {x : Except ε α} {f : α → Except ε β} (hx : FailsOnly p x)
    (hf : ∀ a, FailsOnly p (f a)) : FailsOnly p (x >>= f) := by
  cases x with
  | error e => exact error (hx e rfl)
  | ok a => exact hf a

theorem map {x : Except ε α} {f : α → β} (hx : FailsOnly p x) : FailsOnly p (x.map f) := by
  cases x with
  | error e => exact error (hx e rfl)
  | ok a => exact ok (f a)

theorem imp {q : ε → Prop} {x : Except ε α} (hx : FailsOnly p x) (h : ∀ e, p e -> q e) :
    FailsOnly q x :=
  fun e he => h e (hx e he)

end FailsOnly

def EvalError.Supported (e : EvalError) : Prop :=
  e.isUnsupported = false

abbrev Supported (x : Except (Located EvalError) α) : Prop :=
  FailsOnly (fun e => e.cause.Supported) x

/-!
## Values
-/

def EvalError.undefinedName? : EvalError → Option String
  | undefinedReference name => some name
  | _ => none

/-- What values alone can give rise to: the operation is supported, and no variable is missed. -/
structure EvalError.OfValues (e : EvalError) : Prop where
  supported : e.Supported
  defined : e.undefinedName? = none

namespace Value

theorem ofValues_integers (op : Operator) (lhs rhs : Value) :
    FailsOnly EvalError.OfValues (integers op lhs rhs) := by
  rw [integers.eq_def]
  split
  · exact .ok _
  · exact .error ⟨rfl, rfl⟩
  · exact .error ⟨rfl, rfl⟩

theorem ofValues_exactly (operation : Arithmetic) (n : Option Int64) :
    FailsOnly EvalError.OfValues (exactly operation n) := by
  cases n with
  | none => exact .error ⟨rfl, rfl⟩
  | some n => exact .ok _

theorem ofValues_calculate (operation : Arithmetic) (a b : Int64) :
    FailsOnly EvalError.OfValues (calculate operation a b) := by
  cases operation with
  | addition => exact ofValues_exactly _ _
  | subtraction => exact ofValues_exactly _ _
  | multiplication => exact ofValues_exactly _ _
  | division =>
      rw [calculate]
      split
      · exact .error ⟨rfl, rfl⟩
      · exact ofValues_exactly _ _
  | remainder =>
      rw [calculate]
      split
      · exact .error ⟨rfl, rfl⟩
      · exact ofValues_exactly _ _

theorem ofValues_apply {op : Operator} (hstop : op ≠ .stop) (hor : op ≠ .or) (hand : op ≠ .and)
    (lhs rhs : Value) : FailsOnly EvalError.OfValues (apply op lhs rhs) := by
  cases op with
  | stop => exact absurd rfl hstop
  | or => exact absurd rfl hor
  | and => exact absurd rfl hand
  | equal => exact .ok _
  | notEqual => exact .ok _
  | plus | minus | times | divide | remainder =>
      exact .bind (ofValues_integers _ _ _) fun _ => ofValues_calculate _ _ _
  | less | lessOrEqual | greater | greaterOrEqual =>
      exact .bind (ofValues_integers _ _ _) fun _ => .ok _

theorem ofValues_range (first last : Int64) :
    FailsOnly EvalError.OfValues (range first last) := by
  rw [range]
  split
  · exact .ok _
  · exact .error ⟨rfl, rfl⟩

theorem ofValues_member (target : Value) (name : String) :
    FailsOnly EvalError.OfValues (target.member name) := by
  rw [member.eq_def]
  split
  · exact .ok _
  · exact .error ⟨rfl, rfl⟩

theorem ofValues_item (items : List Value) (index : Int64) :
    FailsOnly EvalError.OfValues (item items index) := by
  rw [item]
  split
  · split
    · exact .ok _
    · exact .error ⟨rfl, rfl⟩
  · exact .error ⟨rfl, rfl⟩

theorem ofValues_index (target key : Value) :
    FailsOnly EvalError.OfValues (target.index key) := by
  rw [index.eq_def]
  split
  · exact ofValues_item _ _
  · exact .error ⟨rfl, rfl⟩
  · exact .ok _
  · exact .error ⟨rfl, rfl⟩

theorem ofValues_call (receiver : Value) (name : String) (args : List Value) :
    FailsOnly EvalError.OfValues (receiver.call name args) := by
  rw [call]
  split
  · exact .error ⟨rfl, rfl⟩
  · next method hfind =>
      split
      · next hlength =>
          by_cases hget : method = .get
          · subst hget
            rcases List.length_eq_one_iff.mp hlength with ⟨key, rfl⟩
            exact ofValues_index receiver key
          · have haccepts := (Method.find?_eq_some_iff.mp hfind).2
            rcases (settles_of_accepts haccepts hlength).exists_value hget with ⟨value, hvalue⟩
            rw [hvalue]
            exact .ok value
      · exact .error ⟨rfl, rfl⟩

theorem ofValues_loopItems (value : Value) : FailsOnly EvalError.OfValues value.loopItems := by
  rw [loopItems.eq_def]
  split
  · exact .ok _
  · exact .ok _
  · exact .ok _
  · exact .error ⟨rfl, rfl⟩

end Value

/-!
## Expressions
-/

theorem supported_locate {x : Except EvalError α} (h : FailsOnly EvalError.OfValues x)
    (location : Location) : Supported (locate location x) := by
  cases x with
  | error cause => exact .error (h cause rfl).supported
  | ok a => exact .ok a

theorem Expr.supported_truth {context : Context} {expr : Expr}
    {value : Except (Located EvalError) Value} (h : Supported value) :
    Supported (expr.truth context value) := by
  rw [Expr.truth.eq_def]
  split
  · exact .ok _
  · exact h.map

theorem Expr.supported_bound {bound : Expr} {value : Except (Located EvalError) Value}
    (h : Supported value) : Supported (bound.bound value) := by
  refine .bind h fun found => ?_
  split
  · exact .ok _
  · exact .error rfl

mutual

theorem Expr.supported_evaluate (context : Context) : ∀ {e : Expr} {nullAllowed : Bool},
    e.WellFormed nullAllowed -> Supported (e.evaluate context)
  | .literal value _, _, _ => by
      rw [Expr.evaluate]
      exact .ok _
  | .reference ref _, _, h => by
      rw [Expr.evaluate]
      exact Reference.supported_resolve context h
  | .binary op lhs rhs location, _, ⟨hop, hlhs, hrhs⟩ => by
      have hlhs := Expr.supported_evaluate context hlhs
      have hrhs := Expr.supported_evaluate context hrhs
      cases op with
      | stop => exact absurd rfl hop
      | or =>
          rw [Expr.evaluate]
          refine .bind (Expr.supported_truth hlhs) fun left => ?_
          split
          · exact .ok _
          · exact .bind (Expr.supported_truth hrhs) fun _ => .ok _
      | and =>
          rw [Expr.evaluate]
          refine .bind (Expr.supported_truth hlhs) fun left => ?_
          split
          · exact .bind (Expr.supported_truth hrhs) fun _ => .ok _
          · exact .ok _
      | _ =>
          rw [Expr.evaluate]
          · refine .bind hlhs fun a => .bind hrhs fun b => ?_
            exact supported_locate (Value.ofValues_apply (by decide) (by decide) (by decide) a b) _
          all_goals rintro ⟨⟩
  | .not operand _, _, h => by
      rw [Expr.evaluate]
      exact .bind (Expr.supported_truth (Expr.supported_evaluate context h)) fun _ => .ok _
  | .list items _, _, h => by
      rw [Expr.evaluate]
      exact .bind (Expr.supported_evaluateAll context h) fun _ => .ok _
  | .range first last location, _, ⟨⟨_, hfirst⟩, _, hlast⟩ => by
      rw [Expr.evaluate]
      refine .bind (Expr.supported_bound (Expr.supported_evaluate context hfirst)) fun _ => ?_
      refine .bind (Expr.supported_bound (Expr.supported_evaluate context hlast)) fun _ => ?_
      exact supported_locate (Value.ofValues_range _ _) location

theorem Reference.supported_resolve (context : Context) : ∀ {ref : Reference},
    ref.WellFormed -> Supported (ref.resolve context)
  | .plain name silent location, _ => by
      rw [Reference.resolve]
      split
      · exact .ok _
      · split
        · exact .ok _
        · exact .error rfl
  | .member lhs name silent location, ⟨hlhs, _⟩ => by
      rw [Reference.resolve]
      refine .bind (Reference.supported_resolve context hlhs) fun target => ?_
      split
      · exact .ok _
      · exact supported_locate (Value.ofValues_member _ _) location
  | .method lhs name args silent location, ⟨hlhs, _, _, hargs⟩ => by
      rw [Reference.resolve]
      refine .bind (Reference.supported_resolve context hlhs) fun target => ?_
      split
      · exact .ok _
      · refine .bind (Expr.supported_evaluateAll context hargs) fun values => ?_
        exact supported_locate (Value.ofValues_call _ _ _) location
  | .index lhs index silent location, ⟨hlhs, _, _, hindex⟩ => by
      rw [Reference.resolve]
      refine .bind (Reference.supported_resolve context hlhs) fun target => ?_
      split
      · exact .ok _
      · refine .bind (Expr.supported_evaluate context hindex) fun key => ?_
        exact supported_locate (Value.ofValues_index _ _) location

theorem Expr.supported_evaluateAll (context : Context) : ∀ {es : List Expr} {nullAllowed : Bool},
    Expr.Primaries nullAllowed es -> Supported (Expr.evaluateAll context es)
  | [], _, _ => by
      rw [Expr.evaluateAll]
      exact .ok _
  | e :: rest, _, ⟨⟨_, he⟩, hrest⟩ => by
      rw [Expr.evaluateAll]
      refine .bind (Expr.supported_evaluate context he) fun value => ?_
      exact .bind (Expr.supported_evaluateAll context hrest) fun values => .ok _

end

/-!
## Nodes
-/

namespace Outcome

def FailsOnly (p : Located EvalError → Prop) (outcome : Outcome) : Prop :=
  ∀ e ∈ outcome.failure?, p e

def Supported (outcome : Outcome) : Prop :=
  ∀ e ∈ outcome.failure?, e.cause.Supported

variable {p : Located EvalError → Prop}

theorem FailsOnly.done (session : Session) : session.done.FailsOnly p := by
  intro e h
  cases h

theorem FailsOnly.fail {e : Located EvalError} (session : Session) (h : p e) :
    (session.fail e).FailsOnly p := by
  intro found hfound
  cases hfound
  exact h

end Outcome

theorem failsOnly_renderEach {p : Located EvalError → Prop} {name : String}
    {body : Session → Outcome} (hbody : ∀ session, (body session).FailsOnly p)
    (items : List Value) (index : Nat) (session : Session) :
    (renderEach name body index items session).FailsOnly p := by
  induction items generalizing index session with
  | nil => exact .done session
  | cons item rest ih =>
      have hrun := hbody (session.enter session.context.mark name item
        (loopMetadata index !rest.isEmpty))
      rw [renderEach]
      split
      · exact ih (index + 1) _
      · next after error heq =>
          rw [heq] at hrun
          exact .fail _ (hrun error rfl)

mutual

theorem Node.supported_render : ∀ {node : Node}, node.WellFormed ->
    ∀ session, (node.render session).Supported
  | .sequence children _, h, session => by
      rw [Node.render]
      exact Node.supported_renderAll h session
  | .text content _, _, session => by
      rw [Node.render]
      exact Outcome.FailsOnly.done _
  | .output expr _, ⟨ref, hexpr, href⟩, session => by
      have heval : Supported (expr.evaluate session.context) := by
        rw [hexpr]
        exact @Expr.supported_evaluate session.context (.ofReference ref) false href
      rw [Node.render]
      split
      · next error heq => exact Outcome.FailsOnly.fail _ (heval error heq)
      · split
        · exact Outcome.FailsOnly.done _
        · exact Outcome.FailsOnly.fail _ rfl
      · exact Outcome.FailsOnly.done _
  | .conditional condition thenBranch elseBranch _, ⟨hcondition, ⟨_, hthen⟩, _, helse⟩,
      session => by
      rw [Node.render]
      split
      · next error heq =>
          refine Outcome.FailsOnly.fail _ ?_
          exact Expr.supported_truth (Expr.supported_evaluate session.context hcondition) error heq
      · exact Node.supported_render hthen session
      · exact Node.supported_render helse session
  | .forEach name collection body _, ⟨_, hcollection, _, hbody⟩, session => by
      rw [Node.render]
      split
      · next error heq =>
          refine Outcome.FailsOnly.fail _ ?_
          exact Expr.supported_evaluate session.context hcollection error heq
      · next value _ =>
          split
          · next error heq =>
              refine Outcome.FailsOnly.fail _ ?_
              exact supported_locate (Value.ofValues_loopItems value) _ error heq
          · exact failsOnly_renderEach (Node.supported_render hbody) _ 0 session
  | .set name expr _, ⟨_, hvalue⟩, session => by
      rw [Node.render]
      split
      · next error heq =>
          refine Outcome.FailsOnly.fail _ ?_
          exact Expr.supported_evaluate session.context hvalue error heq
      · exact Outcome.FailsOnly.done _
  | .comment _, _, session => by
      rw [Node.render]
      exact Outcome.FailsOnly.done _

theorem Node.supported_renderAll : ∀ {nodes : List Node}, Node.WellFormedAll nodes ->
    ∀ session, (Node.renderAll nodes session).Supported
  | [], _, session => by
      rw [Node.renderAll]
      exact Outcome.FailsOnly.done _
  | node :: rest, ⟨⟨_, hnode⟩, hrest⟩, session => by
      have hrun := Node.supported_render hnode session
      rw [Node.renderAll]
      split
      · next after heq => exact Node.supported_renderAll hrest after
      · exact hrun

end

/-!
## Templates
-/

namespace Template

/-- A parsed template is well formed, and what it does not support does not occur in it. -/
theorem wellFormed_parse {resource text : String} {template : Template}
    (h : parse resource text = .ok template) :
    template.root.isSequence = true ∧ template.root.WellFormed
      ∧ ∀ bindings error, template.evaluate bindings = .error error ->
          error.cause.isUnsupported = false := by
  have hwf : template.root.WellFormed := wellFormed_of_parse h
  refine ⟨rfl, hwf, fun bindings error herror => ?_⟩
  have hrender := Node.supported_render hwf (.start (.ofVariables bindings))
  rw [evaluate, Outcome.result] at herror
  split at herror
  · cases herror
  · next found hfound =>
      cases herror
      exact hrender error hfound

theorem wellFormed_parse_nested :
    ∃ template,
      parse "t" "#foreach($i in [1..$n])#if($i == 1)x#elseif(!$i)$a.get(null)#end#end"
        = .ok template
      ∧ template.root.isSequence = true ∧ template.root.WellFormed
      ∧ ∀ bindings error, template.evaluate bindings = .error error ->
          error.cause.isUnsupported = false := by
  have hok : (parse "t"
      "#foreach($i in [1..$n])#if($i == 1)x#elseif(!$i)$a.get(null)#end#end").isOk = true := by
    decide +kernel
  rcases exists_of_isOk hok with ⟨template, h⟩
  exact ⟨template, h, wellFormed_parse h⟩

end Template

end Stencil
