import Stencil.Proofs.Effects

/-!
# What a template mentions

Rendering looks at no variable but those that the references of a node start from.  Two contexts
that bind these alike give the same output and the same error, and still bind them alike afterwards,
whatever else they hold.
-/

namespace Stencil

/-!
## Mentioned names
-/

mutual

def Expr.mentioned : Expr → Finset String
  | .literal _ _ => ∅
  | .reference ref _ => ref.mentioned
  | .binary _ lhs rhs _ => lhs.mentioned ∪ rhs.mentioned
  | .not operand _ => operand.mentioned
  | .list items _ => Expr.mentionedAll items
  | .range first last _ => first.mentioned ∪ last.mentioned

def Reference.mentioned : Reference → Finset String
  | .plain name _ _ => {name}
  | .member lhs _ _ _ => lhs.mentioned
  | .method lhs _ args _ _ => lhs.mentioned ∪ Expr.mentionedAll args
  | .index lhs index _ _ => lhs.mentioned ∪ index.mentioned

def Expr.mentionedAll : List Expr → Finset String
  | [] => ∅
  | e :: rest => e.mentioned ∪ Expr.mentionedAll rest

end

mutual

/-- A name that is only assigned, or bound by a loop, is not mentioned by that. -/
def Node.mentioned : Node → Finset String
  | .sequence children _ => Node.mentionedAll children
  | .text _ _ => ∅
  | .output expr _ => expr.mentioned
  | .conditional condition thenBranch elseBranch _ =>
      condition.mentioned ∪ (thenBranch.mentioned ∪ elseBranch.mentioned)
  | .forEach _ collection body _ => collection.mentioned ∪ body.mentioned
  | .set _ value _ => value.mentioned
  | .comment _ => ∅
  | .macroCall _ args _ => Expr.mentionedAll args

def Node.mentionedAll : List Node → Finset String
  | [] => ∅
  | node :: rest => node.mentioned ∪ Node.mentionedAll rest

end

/-!
## Contexts that bind names alike
-/

namespace Context

/-- Each of the names has the same value in both contexts, or is undefined in both. -/
def AgreeOn (names : Finset String) (context other : Context) : Prop :=
  ∀ name ∈ names, context.get? name = other.get? name

namespace AgreeOn

variable {names names' : Finset String} {context other : Context}

theorem mono (h : AgreeOn names context other) (hsubset : names' ⊆ names) :
    AgreeOn names' context other := by
  intro name hname
  exact h name (hsubset hname)

theorem left (h : AgreeOn (names ∪ names') context other) : AgreeOn names context other :=
  h.mono Finset.subset_union_left

theorem right (h : AgreeOn (names ∪ names') context other) : AgreeOn names' context other :=
  h.mono Finset.subset_union_right

theorem set (h : AgreeOn names context other) (name : String) (value : Value) :
    AgreeOn names (context.set name value) (other.set name value) := by
  intro found hfound
  rw [get?_set, get?_set, h found hfound]

theorem shadow (h : AgreeOn names context other) (mark mark' : Nat) (name : String)
    (value : Value) :
    AgreeOn (insert name names) (context.shadow mark name value)
      (other.shadow mark' name value) := by
  intro found hfound
  rw [get?_shadow, get?_shadow]
  by_cases hname : name = found
  · rw [if_pos hname, if_pos hname]
  · rw [if_neg hname, if_neg hname]
    refine h found ?_
    exact (Finset.mem_insert.mp hfound).resolve_left fun same => hname same.symm

end AgreeOn

end Context

open Context

/-!
## Evaluation
-/

section

variable {context other : Context}

theorem Expr.truth_congr (e : Expr) (h : AgreeOn e.mentioned context other)
    (value : Except (Located EvalError) Value) :
    e.truth context value = e.truth other value := by
  cases e with
  | reference ref location =>
      cases ref with
      | plain name silent location =>
          have hname := h name (Finset.mem_singleton_self name)
          rw [Expr.truth, Expr.truth, hname]
      | _ => rfl
  | _ => rfl

mutual

theorem Expr.evaluate_congr : ∀ e : Expr, AgreeOn e.mentioned context other ->
    e.evaluate context = e.evaluate other
  | .literal _ _, _ => by
      rw [Expr.evaluate, Expr.evaluate]
  | .reference ref _, h => by
      rw [Expr.evaluate, Expr.evaluate, Reference.resolve_congr ref h]
  | .binary op lhs rhs _, h => by
      have hlhs := Expr.evaluate_congr lhs h.left
      have hrhs := Expr.evaluate_congr rhs h.right
      have hleft := Expr.truth_congr lhs h.left
      have hright := Expr.truth_congr rhs h.right
      cases op with
      | or => rw [Expr.evaluate, Expr.evaluate, hlhs, hrhs, hleft, hright]
      | and => rw [Expr.evaluate, Expr.evaluate, hlhs, hrhs, hleft, hright]
      | _ =>
          rw [Expr.evaluate, Expr.evaluate, hlhs, hrhs]
          all_goals rintro ⟨⟩
  | .not operand _, h => by
      rw [Expr.evaluate, Expr.evaluate, Expr.evaluate_congr operand h, Expr.truth_congr operand h]
  | .list items _, h => by
      rw [Expr.evaluate, Expr.evaluate, Expr.evaluateAll_congr items h]
  | .range first last _, h => by
      rw [Expr.evaluate, Expr.evaluate, Expr.evaluate_congr first h.left,
        Expr.evaluate_congr last h.right]

theorem Reference.resolve_congr : ∀ ref : Reference, AgreeOn ref.mentioned context other ->
    ref.resolve context = ref.resolve other
  | .plain name _ _, h => by
      rw [Reference.resolve, Reference.resolve, h name (Finset.mem_singleton_self name)]
  | .member lhs _ _ _, h => by
      rw [Reference.resolve, Reference.resolve, Reference.resolve_congr lhs h]
  | .method lhs _ args _ _, h => by
      rw [Reference.resolve, Reference.resolve, Reference.resolve_congr lhs h.left,
        Expr.evaluateAll_congr args h.right]
  | .index lhs index _ _, h => by
      rw [Reference.resolve, Reference.resolve, Reference.resolve_congr lhs h.left,
        Expr.evaluate_congr index h.right]

theorem Expr.evaluateAll_congr : ∀ es : List Expr, AgreeOn (Expr.mentionedAll es) context other ->
    Expr.evaluateAll context es = Expr.evaluateAll other es
  | [], _ => by
      rw [Expr.evaluateAll, Expr.evaluateAll]
  | e :: rest, h => by
      rw [Expr.evaluateAll, Expr.evaluateAll, Expr.evaluate_congr e h.left,
        Expr.evaluateAll_congr rest h.right]

end

theorem Expr.isTrue_congr (e : Expr) (h : AgreeOn e.mentioned context other) :
    e.isTrue context = e.isTrue other := by
  rw [Expr.isTrue, Expr.isTrue, Expr.evaluate_congr e h, Expr.truth_congr e h]

end

/-!
## Runs side by side
-/

/-- Nothing tells the two sessions apart but bindings of other names. -/
structure Session.AgreeOn (names : Finset String) (session other : Session) : Prop where
  context : session.context.AgreeOn names other.context
  output_eq : session.output = other.output

structure Outcome.AgreeOn (names : Finset String) (outcome other : Outcome) : Prop where
  session : outcome.session.AgreeOn names other.session
  failure?_eq : outcome.failure? = other.failure?

namespace Session

variable {names : Finset String} {session other after after' : Session}

theorem AgreeOn.done (h : AgreeOn names session other) :
    Outcome.AgreeOn names session.done other.done :=
  ⟨h, rfl⟩

theorem AgreeOn.fail (h : AgreeOn names session other) (error : Located EvalError) :
    Outcome.AgreeOn names (session.fail error) (other.fail error) :=
  ⟨h, rfl⟩

theorem AgreeOn.write (h : AgreeOn names session other) (text : String) :
    AgreeOn names (session.write text) (other.write text) :=
  ⟨h.context, congrArg (· ++ text) h.output_eq⟩

theorem AgreeOn.writeValue (h : AgreeOn names session other) (value : Value) :
    AgreeOn names (session.writeValue value) (other.writeValue value) :=
  ⟨h.context, congrArg value.write h.output_eq⟩

theorem AgreeOn.assign (h : AgreeOn names session other) (name : String) (value : Value) :
    AgreeOn names (session.assign name value) (other.assign name value) :=
  ⟨h.context.set name value, h.output_eq⟩

/-!
## Loops

In the body also the variable of the loop and the loop metadata are bound alike.  Behind it these
two are bound as in front of it, and the body decides about all others.
-/

theorem AgreeOn.enter (h : AgreeOn names session other) (name : String) (item metadata : Value) :
    AgreeOn (insert loopVariable (insert name names))
      (session.enter session.context.mark name item metadata)
      (other.enter other.context.mark name item metadata) :=
  ⟨(h.context.shadow _ _ name item).shadow _ _ loopVariable metadata, h.output_eq⟩

theorem get?_leave {name : String} {item metadata : Value}
    (hsaved : after.context.saved
      = (session.enter session.context.mark name item metadata).context.saved)
    (found : String) :
    (after.leave session.context.mark).context.get? found
      = if found = loopVariable ∨ found = name then session.context.get? found
        else after.context.get? found := by
  rcases exists_saved_enter session name item metadata with ⟨recent, hrecent, hnames, hundo⟩
  have hleave : (after.leave session.context.mark).context.get? found
      = undo recent after.context.get? found :=
    congrFun (get?_restore (hsaved.trans hrecent)) found
  rw [hleave]
  split
  · next hbound =>
      rw [← hundo]
      exact undo_congr fun hnot => absurd ((hnames found).mpr hbound) hnot
  · next hother =>
      exact undo_of_not_mem fun hmem => hother ((hnames found).mp hmem)

/-- The bodies need not agree on the two names of the loop, nor do their metadata. -/
theorem AgreeOn.leave {name : String} {item metadata metadata' : Value}
    (hbefore : AgreeOn names session other)
    (hafter : AgreeOn ((names.erase name).erase loopVariable) after after')
    (hsaved : after.context.saved
      = (session.enter session.context.mark name item metadata).context.saved)
    (hsaved' : after'.context.saved
      = (other.enter other.context.mark name item metadata').context.saved) :
    AgreeOn names (after.leave session.context.mark) (after'.leave other.context.mark) := by
  constructor
  · intro found hfound
    rw [get?_leave hsaved, get?_leave hsaved']
    split
    · exact hbefore.context found hfound
    · next hother =>
        rw [not_or] at hother
        apply hafter.context found
        exact Finset.mem_erase_of_ne_of_mem hother.1
          (Finset.mem_erase_of_ne_of_mem hother.2 hfound)
  · exact hafter.output_eq

def run (session : Session) (name : String) (body : Session → Outcome) (item metadata : Value) :
    Outcome :=
  let outcome := body (session.enter session.context.mark name item metadata)
  ⟨outcome.session.leave session.context.mark, outcome.failure?⟩

theorem AgreeOn.run {name : String} {body : Session → Outcome} {inner : Finset String}
    {item metadata metadata' : Value} (h : AgreeOn names session other)
    (hinner : (names.erase name).erase loopVariable ⊆ inner)
    (hframe : ∀ session, (body session).session.context.saved = session.context.saved)
    (hbody : (body (session.enter session.context.mark name item metadata)).AgreeOn inner
      (body (other.enter other.context.mark name item metadata'))) :
    (session.run name body item metadata).AgreeOn names
      (other.run name body item metadata') :=
  ⟨h.leave ⟨hbody.session.context.mono hinner, hbody.session.output_eq⟩ (hframe _) (hframe _),
    hbody.failure?_eq⟩

end Session

open Session

theorem agreeOn_renderEach {name : String} {body : Session → Outcome} {names : Finset String}
    (hframe : ∀ session, (body session).session.context.saved = session.context.saved)
    (hbody : ∀ session other,
      session.AgreeOn (insert loopVariable (insert name names)) other ->
      (body session).AgreeOn (insert loopVariable (insert name names)) (body other))
    (items : List Value) (index : Nat) {session other : Session}
    (h : session.AgreeOn names other) :
    (renderEach name body index items session).AgreeOn names
      (renderEach name body index items other) := by
  have hinner : (names.erase name).erase loopVariable
      ⊆ insert loopVariable (insert name names) := by
    intro found hfound
    exact Finset.mem_insert_of_mem
      (Finset.mem_insert_of_mem (Finset.mem_of_mem_erase (Finset.mem_of_mem_erase hfound)))
  induction items generalizing index session other with
  | nil => exact h.done
  | cons item rest ih =>
      let metadata := loopMetadata index !rest.isEmpty
      have hrun := h.run hinner hframe (hbody _ _ (h.enter name item metadata))
      have hleave := hrun.session
      have hfailure := hrun.failure?_eq
      unfold run at hleave hfailure
      rw [renderEach, renderEach]
      generalize body (session.enter session.context.mark name item metadata) = outcome
        at hleave hfailure ⊢
      generalize body (other.enter other.context.mark name item metadata) = outcome'
        at hleave hfailure ⊢
      rcases outcome with ⟨after, failure?⟩
      rcases outcome' with ⟨after', failure?'⟩
      cases hfailure
      cases failure? with
      | none => exact ih (index + 1) hleave
      | some error => exact hleave.fail error

/-!
## Nodes
-/

mutual

/-- The induction is over all sets of names, since a loop adds two of them for its body. -/
theorem Node.agreeOn_render : ∀ (node : Node) {names : Finset String} {session other : Session},
    node.mentioned ⊆ names -> session.AgreeOn names other ->
    (node.render session).AgreeOn names (node.render other)
  | .sequence children _, _, _, _, hnames, h => by
      rw [Node.render, Node.render]
      exact Node.agreeOn_renderAll children hnames h
  | .text content _, _, _, _, _, h => by
      rw [Node.render, Node.render]
      exact (h.write content).done
  | .output expr _, _, _, _, hnames, h => by
      rw [Node.render, Node.render, Expr.evaluate_congr expr (h.context.mono hnames)]
      split
      · exact h.fail _
      · split
        · exact h.done
        · exact h.fail _
      · exact (h.writeValue _).done
  | .conditional condition thenBranch elseBranch _, _, _, _, hnames, h => by
      rw [Node.mentioned, Finset.union_subset_iff, Finset.union_subset_iff] at hnames
      rw [Node.render, Node.render, Expr.isTrue_congr condition (h.context.mono hnames.1)]
      split
      · exact h.fail _
      · exact Node.agreeOn_render thenBranch hnames.2.1 h
      · exact Node.agreeOn_render elseBranch hnames.2.2 h
  | .forEach name collection body _, names, _, _, hnames, h => by
      rw [Node.mentioned, Finset.union_subset_iff] at hnames
      have hbody : body.mentioned ⊆ insert loopVariable (insert name names) := by
        intro found hfound
        exact Finset.mem_insert_of_mem (Finset.mem_insert_of_mem (hnames.2 hfound))
      rw [Node.render, Node.render, Expr.evaluate_congr collection (h.context.mono hnames.1)]
      split
      · exact h.fail _
      · split
        · exact h.fail _
        · next items _ =>
            refine agreeOn_renderEach (fun run => (Node.changesOnly_render body run).saved_eq) ?_
              items 0 h
            intro run run' hrun
            exact Node.agreeOn_render body hbody hrun
  | .set name expr _, _, _, _, hnames, h => by
      rw [Node.render, Node.render, Expr.evaluate_congr expr (h.context.mono hnames)]
      split
      · exact h.fail _
      · exact (h.assign name _).done
  | .comment _, _, _, _, _, h => by
      rw [Node.render, Node.render]
      exact h.done
  | .macroCall name _ location, _, _, _, _, h => by
      rw [Node.render, Node.render]
      exact h.fail _

theorem Node.agreeOn_renderAll :
    ∀ (nodes : List Node) {names : Finset String} {session other : Session},
    Node.mentionedAll nodes ⊆ names -> session.AgreeOn names other ->
    (Node.renderAll nodes session).AgreeOn names (Node.renderAll nodes other)
  | [], _, _, _, _, h => by
      rw [Node.renderAll, Node.renderAll]
      exact h.done
  | node :: rest, _, session, other, hnames, h => by
      rw [Node.mentionedAll, Finset.union_subset_iff] at hnames
      have hnode := Node.agreeOn_render node hnames.1 h
      rw [Node.renderAll, Node.renderAll]
      generalize node.render session = outcome at hnode ⊢
      generalize node.render other = outcome' at hnode ⊢
      rcases outcome with ⟨after, failure?⟩
      rcases outcome' with ⟨after', failure?'⟩
      have hfailure : failure? = failure?' := hnode.failure?_eq
      cases hfailure
      cases failure? with
      | none => exact Node.agreeOn_renderAll rest hnames.2 hnode.session
      | some error => exact hnode

end

namespace Node

/-- Variables that a node does not mention have no influence on rendering it. -/
theorem render_congr (node : Node) {context other : Context} (output : String)
    (h : context.AgreeOn node.mentioned other) :
    let outcome := node.render ⟨context, output⟩
    let outcome' := node.render ⟨other, output⟩
    outcome.failure? = outcome'.failure?
      ∧ outcome.session.output = outcome'.session.output
      ∧ outcome.session.context.AgreeOn node.mentioned outcome'.session.context := by
  have hstart : Session.AgreeOn node.mentioned ⟨context, output⟩ ⟨other, output⟩ := ⟨h, rfl⟩
  have hrun := agreeOn_render node (Finset.Subset.refl _) hstart
  exact ⟨hrun.failure?_eq, hrun.session.output_eq, hrun.session.context⟩

/-- A loop that reads `$items`, `$i` and `$y`, assigns `x`, and is started with and without it. -/
theorem render_congr_loop :
    ∃ (node : Node) (context other : Context), node.mentioned = {"items", "i", "y"}
      ∧ context.get? "x" ≠ other.get? "x"
      ∧ context.AgreeOn node.mentioned other
      ∧ let outcome := node.render ⟨context, "["⟩
        let outcome' := node.render ⟨other, "["⟩
        outcome.failure? = outcome'.failure?
          ∧ outcome.session.output = outcome'.session.output
          ∧ outcome.session.context.AgreeOn node.mentioned outcome'.session.context := by
  let place : Location := ⟨"t", 1⟩
  let plain (name : String) : Expr := .reference (.plain name false place) place
  let body := Node.sequence [output (plain "i") place, set "x" (plain "y") place] place
  let node := forEach "i" (plain "items") body place
  let shared := [("items", Value.list [.int 1, .null]), ("y", .int 2)]
  let context := Context.ofVariables (("x", .int 3) :: shared)
  let other := Context.ofVariables shared
  have hmentioned : node.mentioned = {"items", "i", "y"} := by
    decide +kernel
  have hagree : context.AgreeOn node.mentioned other := by
    rw [hmentioned]
    intro name hname
    rw [Finset.mem_insert, Finset.mem_insert, Finset.mem_singleton] at hname
    rcases hname with rfl | rfl | rfl
    · rfl
    · rfl
    · rfl
  refine ⟨node, context, other, hmentioned, ?_, hagree, render_congr node "[" hagree⟩
  rintro ⟨⟩

end Node

end Stencil
