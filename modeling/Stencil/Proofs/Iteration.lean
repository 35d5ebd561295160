import Mathlib.Data.Finset.Lattice.Lemmas
import Stencil.Proofs.Mentions
import Stencil.Proofs.Quoting

/-!
# Runs of a loop

Rendering a loop is a sequence of runs of its body.  Each run starts with the next item and with
loop metadata that say where among the items it is; whatever it binds besides these two is there for
the next run, and these two are put back.  The sequence ends behind the last item or behind the
first run that fails.
-/

namespace Stencil

namespace Integer

theorem toInt_ofCount (n : Nat) : (ofCount n).toInt = min (n : Int) 9223372036854775807 := by
  unfold ofCount ofInt?
  split
  · next hfits =>
      unfold Fits at hfits
      rw [Option.getD_some, Int64.toInt_ofInt_of_le hfits.1 hfits.2]
      omega
  · next hfits =>
      unfold Fits at hfits
      rw [Option.getD_none]
      show (9223372036854775807 : Int) = _
      omega

end Integer

namespace Entries

variable {β : Type} {key other : String} {value old : β} {rest : Entries β}

theorem insert_front (hne : other ≠ key) (hlt : key < other) :
    insert key value ((other, old) :: rest) = (key, value) :: (other, old) :: rest := by
  rw [insert, if_neg hne, if_pos hlt]

theorem insert_behind (hne : other ≠ key) (hlt : ¬ key < other) :
    insert key value ((other, old) :: rest) = (other, old) :: insert key value rest := by
  rw [insert, if_neg hne, if_neg hlt]

end Entries

/-!
## Loop metadata
-/

/-- What `foreach` is bound to in the run with number `index` of `total`.  The numbers are exact as
far as they fit. -/
def Value.IsLoopMetadata (index total : Nat) (value : Value) : Prop :=
  ∃ position count : Int64,
    position.toInt = min (index : Int) 9223372036854775807
      ∧ count.toInt = min (index + 1 : Int) 9223372036854775807
      ∧ value = .map
        [("count", .int count),
          ("first", .bool (index = 0)),
          ("hasNext", .bool (index + 1 < total)),
          ("index", .int position),
          ("last", .bool (index + 1 = total))]

theorem loopMetadata_eq (index : Nat) (hasNext : Bool) :
    loopMetadata index hasNext = .map
      [("count", .int (Integer.ofCount (index + 1))),
        ("first", .bool (index = 0)),
        ("hasNext", .bool hasNext),
        ("index", .int (Integer.ofCount index)),
        ("last", .bool !hasNext)] := by
  have hcount (c i : Value) :
      Entries.insert "count" c [("index", i)] = [("count", c), ("index", i)] :=
    Entries.insert_front (by decide +kernel) (by decide +kernel)
  have hnext (c n i : Value) : Entries.insert "hasNext" n [("count", c), ("index", i)]
      = [("count", c), ("hasNext", n), ("index", i)] := by
    rw [Entries.insert_behind (by decide +kernel) (by decide +kernel),
      Entries.insert_front (by decide +kernel) (by decide +kernel)]
  have hfirst (c f n i : Value) :
      Entries.insert "first" f [("count", c), ("hasNext", n), ("index", i)]
        = [("count", c), ("first", f), ("hasNext", n), ("index", i)] := by
    rw [Entries.insert_behind (by decide +kernel) (by decide +kernel),
      Entries.insert_front (by decide +kernel) (by decide +kernel)]
  have hlast (c f n i l : Value) :
      Entries.insert "last" l [("count", c), ("first", f), ("hasNext", n), ("index", i)]
        = [("count", c), ("first", f), ("hasNext", n), ("index", i), ("last", l)] := by
    rw [Entries.insert_behind (by decide +kernel) (by decide +kernel),
      Entries.insert_behind (by decide +kernel) (by decide +kernel),
      Entries.insert_behind (by decide +kernel) (by decide +kernel),
      Entries.insert_behind (by decide +kernel) (by decide +kernel), Entries.insert]
  rw [loopMetadata, Value.ofEntries, Entries.ofList, List.foldl_cons, Entries.insert,
    List.foldl_cons, hcount, List.foldl_cons, hnext, List.foldl_cons, hfirst, List.foldl_cons,
    hlast, List.foldl_nil]

theorem isLoopMetadata_loopMetadata {index total : Nat} {rest : List Value}
    (h : index + (rest.length + 1) = total) :
    (loopMetadata index !rest.isEmpty).IsLoopMetadata index total := by
  have hnext : (!rest.isEmpty) = decide (index + 1 < total) := by
    cases rest with
    | nil => simp at h ⊢; omega
    | cons next rest => simp at h ⊢; omega
  have hlast : (!decide (index + 1 < total)) = decide (index + 1 = total) := by
    rw [← decide_not, decide_eq_decide]
    omega
  refine ⟨_, _, Integer.toInt_ofCount index, Integer.toInt_ofCount (index + 1), ?_⟩
  rw [loopMetadata_eq, hnext, hlast]

/-!
## One run
-/

namespace Session

/-- A run starts with its item and its metadata, and otherwise where the run before it has ended. -/
structure Begins (name : String) (item : Value) (index total : Nat) (session start : Session) :
    Prop where
  item_eq : name ≠ loopVariable -> start.context.get? name = some item
  metadata : ∃ value, start.context.get? loopVariable = some value
    ∧ value.IsLoopMetadata index total
  get?_eq : ∀ other, other ≠ loopVariable -> other ≠ name ->
    start.context.get? other = session.context.get? other
  output_eq : start.output = session.output

structure Closes (name : String) (session after behind : Session) : Prop where
  own_eq : ∀ other, other = loopVariable ∨ other = name ->
    behind.context.get? other = session.context.get? other
  get?_eq : ∀ other, other ≠ loopVariable -> other ≠ name ->
    behind.context.get? other = after.context.get? other
  output_eq : behind.output = after.output

variable {name : String} {item : Value} {session after : Session} {index total : Nat}

theorem get?_enter (session : Session) (mark : Nat) (name : String) (item metadata : Value)
    (other : String) :
    (session.enter mark name item metadata).context.get? other
      = if loopVariable = other then some metadata
        else if name = other then some item
        else session.context.get? other := by
  rw [enter, Context.get?_shadow, Context.get?_shadow]

theorem begins_enter {rest : List Value} (h : index + (rest.length + 1) = total) (mark : Nat) :
    Begins name item index total session
      (session.enter mark name item (loopMetadata index !rest.isEmpty)) := by
  constructor
  · intro hname
    rw [get?_enter, if_neg (Ne.symm hname), if_pos rfl]
  · refine ⟨_, ?_, isLoopMetadata_loopMetadata h⟩
    rw [get?_enter, if_pos rfl]
  · intro other hvariable hname
    rw [get?_enter, if_neg (Ne.symm hvariable), if_neg (Ne.symm hname)]
  · rfl

theorem closes_leave {metadata : Value}
    (hsaved : after.context.saved
      = (session.enter session.context.mark name item metadata).context.saved) :
    Closes name session after (after.leave session.context.mark) := by
  constructor
  · intro other hown
    rw [get?_leave hsaved, if_pos hown]
  · intro other hvariable hname
    rw [get?_leave hsaved, if_neg (not_or.mpr ⟨hvariable, hname⟩)]
  · rfl

end Session

theorem renderEach_cons (name : String) (body : Session → Outcome) (index : Nat) (item : Value)
    (rest : List Value) (session : Session) :
    renderEach name body index (item :: rest) session
      = (session.run name body item (loopMetadata index !rest.isEmpty)).andThen
          (renderEach name body (index + 1) rest) := by
  rw [renderEach, Session.run]
  rcases body (session.enter session.context.mark name item (loopMetadata index !rest.isEmpty))
    with ⟨after, _ | error⟩
  · rfl
  · rfl

/-!
## All runs
-/

/-- The runs of a loop from run `index` of `total` on, for the items that are left: where each of
them starts, and how the loop ends. -/
inductive Runs (name : String) (body : Session → Outcome) (total : Nat) :
    Nat → List Value → Session → List Session → Outcome → Prop
  | finished {index : Nat} {session : Session} :
      Runs name body total index [] session [] session.done
  | next {index : Nat} {item : Value} {rest : List Value}
      {session start after behind : Session} {starts : List Session} {outcome : Outcome} :
      session.Begins name item index total start -> body start = after.done ->
      session.Closes name after behind ->
      Runs name body total (index + 1) rest behind starts outcome ->
      Runs name body total index (item :: rest) session (start :: starts) outcome
  | failed {index : Nat} {item : Value} {rest : List Value}
      {session start after behind : Session} {error : Located EvalError} :
      session.Begins name item index total start -> body start = after.fail error ->
      session.Closes name after behind ->
      Runs name body total index (item :: rest) session [start] (behind.fail error)

theorem exists_runs {name : String} {body : Session → Outcome}
    (hframe : ∀ session, (body session).session.context.saved = session.context.saved)
    {total : Nat} (items : List Value) (index : Nat) (h : index + items.length = total)
    (session : Session) :
    ∃ starts, Runs name body total index items session starts
      (renderEach name body index items session) := by
  induction items generalizing index session with
  | nil => exact ⟨[], .finished⟩
  | cons item rest ih =>
      let start :=
        session.enter session.context.mark name item (loopMetadata index !rest.isEmpty)
      have hbegins : session.Begins name item index total start := Session.begins_enter h _
      have hsaved := hframe start
      rw [renderEach]
      cases hrun : body start with
      | mk after failure? =>
          rw [hrun] at hsaved
          have hcloses := Session.closes_leave hsaved
          cases failure? with
          | none =>
              rw [List.length_cons] at h
              rcases ih (index + 1) (by omega) (after.leave session.context.mark) with
                ⟨starts, hstarts⟩
              exact ⟨start :: starts, .next hbegins hrun hcloses hstarts⟩
          | some error => exact ⟨[start], .failed hbegins hrun hcloses⟩

namespace Runs

variable {name : String} {body : Session → Outcome} {total index : Nat} {items : List Value}
  {session : Session} {starts : List Session} {outcome : Outcome}

/-- There is one run for every item unless a run fails, and that one is the last. -/
theorem ends (h : Runs name body total index items session starts outcome) :
    (starts.length = items.length ∧ outcome.failure? = none
      ∧ ∀ start ∈ starts, (body start).failure? = none)
    ∨ ∃ front last error, starts = front ++ [last] ∧ starts.length ≤ items.length
      ∧ (∀ start ∈ front, (body start).failure? = none)
      ∧ (body last).failure? = some error ∧ outcome.failure? = some error := by
  induction h with
  | finished => exact Or.inl ⟨rfl, rfl, fun start hstart => absurd hstart List.not_mem_nil⟩
  | @next index item rest session start after behind starts outcome _ hrun _ _ ih =>
      have hfirst : (body start).failure? = none := by
        rw [hrun]
        rfl
      rcases ih with ⟨hlength, hdone, hall⟩ | ⟨front, last, error, heq, hlength, hfront, hlast⟩
      · refine Or.inl ⟨congrArg (· + 1) hlength, hdone, ?_⟩
        exact List.forall_mem_cons.mpr ⟨hfirst, hall⟩
      · refine Or.inr ⟨start :: front, last, error, ?_, Nat.succ_le_succ hlength, ?_, hlast⟩
        · rw [heq, List.cons_append]
        · exact List.forall_mem_cons.mpr ⟨hfirst, hfront⟩
  | @failed index item rest session start after behind error _ hrun _ =>
      refine Or.inr ⟨[], start, error, rfl, ?_, ?_, ?_, rfl⟩
      · exact Nat.succ_le_succ (Nat.zero_le rest.length)
      · intro start hstart
        cases hstart
      · rw [hrun]
        rfl

theorem getElem?_start (h : Runs name body total index items session starts outcome) (i : Nat)
    {start : Session} (hstart : starts[i]? = some start) :
    ∃ item, items[i]? = some item
      ∧ (name ≠ loopVariable -> start.context.get? name = some item)
      ∧ ∃ value, start.context.get? loopVariable = some value
        ∧ value.IsLoopMetadata (index + i) total := by
  induction h generalizing i with
  | finished => cases hstart
  | @next index item rest session first after behind starts outcome hbegins _ _ _ ih =>
      cases i with
      | zero =>
          cases hstart
          exact ⟨item, rfl, hbegins.item_eq, hbegins.metadata⟩
      | succ i =>
          have hplace : index + (i + 1) = index + 1 + i := by omega
          rw [hplace]
          exact ih i hstart
  | @failed index item rest session first after behind error hbegins _ _ =>
      cases i with
      | zero =>
          cases hstart
          exact ⟨item, rfl, hbegins.item_eq, hbegins.metadata⟩
      | succ i => cases hstart

/-- The first run finds all but the two names of the loop as they are in front of it. -/
theorem head_start (h : Runs name body total index items session starts outcome) {start : Session}
    (hstart : starts[0]? = some start) :
    start.output = session.output
      ∧ ∀ other, other ≠ loopVariable -> other ≠ name ->
        start.context.get? other = session.context.get? other := by
  cases h with
  | finished => cases hstart
  | next hbegins _ _ _ =>
      cases hstart
      exact ⟨hbegins.output_eq, hbegins.get?_eq⟩
  | failed hbegins _ _ =>
      cases hstart
      exact ⟨hbegins.output_eq, hbegins.get?_eq⟩

theorem carries (h : Runs name body total index items session starts outcome) (i : Nat)
    {start next : Session} (hstart : starts[i]? = some start) (hnext : starts[i + 1]? = some next) :
    ∃ after : Session, body start = after.done ∧ next.output = after.output
      ∧ ∀ other, other ≠ loopVariable -> other ≠ name ->
        next.context.get? other = after.context.get? other := by
  induction h generalizing i with
  | finished => cases hstart
  | @next index item rest session first after behind starts outcome _ hrun hcloses hrest ih =>
      cases i with
      | zero =>
          cases hstart
          rcases hrest.head_start hnext with ⟨houtput, hbindings⟩
          refine ⟨after, hrun, houtput.trans hcloses.output_eq, ?_⟩
          intro other hvariable hname
          exact (hbindings other hvariable hname).trans (hcloses.get?_eq other hvariable hname)
      | succ i => exact ih i hstart hnext
  | failed => cases hnext

theorem own_eq (h : Runs name body total index items session starts outcome) {other : String}
    (hother : other = loopVariable ∨ other = name) :
    outcome.session.context.get? other = session.context.get? other := by
  induction h with
  | finished => rfl
  | next _ _ hcloses _ ih => exact ih.trans (hcloses.own_eq other hother)
  | failed _ _ hcloses => exact hcloses.own_eq other hother

end Runs

/-!
## Loops as nodes
-/

namespace Node

variable {name : String} {collection : Expr} {body : Node} {location : Location}
  {session : Session} {value : Value} {items : List Value}

theorem render_forEach (hvalue : collection.evaluate session.context = .ok value)
    (hitems : value.loopItems = .ok items) :
    (forEach name collection body location).render session
      = renderEach name body.render 0 items session := by
  rw [render, hvalue]
  dsimp only
  rw [hitems]
  rfl

theorem evaluate_variable {context : Context} {list : String}
    (h : context.get? list = some value) (silent : Bool) (place : Location) :
    (Expr.ofReference (.plain list silent place)).evaluate context = .ok value := by
  rw [Expr.ofReference, Expr.evaluate, Reference.resolve, h]

theorem exists_runs_forEach (hvalue : collection.evaluate session.context = .ok value)
    (hitems : value.loopItems = .ok items) :
    ∃ starts, Runs name body.render items.length 0 items session starts
      ((forEach name collection body location).render session) := by
  rw [render_forEach hvalue hitems]
  exact exists_runs (fun start => (changesOnly_render body start).saved_eq) items 0
    (Nat.zero_add _) session

end Node

/-!
## Points of a run
-/

namespace Node

theorem assignedAll_append (nodes others : List Node) :
    assignedAll (nodes ++ others) = assignedAll nodes ∪ assignedAll others := by
  induction nodes with
  | nil => rw [List.nil_append, assignedAll, Finset.empty_union]
  | cons node rest ih =>
      rw [List.cons_append, assignedAll, assignedAll, ih, Finset.union_assoc]

/-- What rendering a node comes through: its start, its end, and what rendering the parts of the
node comes through.  A loop has no parts here, so nothing inside a loop counts. -/
inductive Reaches : Node → Session → Session → Prop
  | start {node : Node} {session : Session} : Reaches node session session
  | finish {node : Node} {session : Session} : Reaches node session (node.render session).session
  | child {before rest : List Node} {node : Node} {location : Location}
      {session reached point : Session} :
      renderAll before session = reached.done -> Reaches node reached point ->
      Reaches (.sequence (before ++ node :: rest) location) session point
  | thenBranch {condition : Expr} {thenBranch elseBranch : Node} {location : Location}
      {session point : Session} :
      condition.isTrue session.context = .ok true -> Reaches thenBranch session point ->
      Reaches (.conditional condition thenBranch elseBranch location) session point
  | elseBranch {condition : Expr} {thenBranch elseBranch : Node} {location : Location}
      {session point : Session} :
      condition.isTrue session.context = .ok false -> Reaches elseBranch session point ->
      Reaches (.conditional condition thenBranch elseBranch location) session point

theorem Reaches.changesOnly {node : Node} {session point : Session}
    (h : node.Reaches session point) :
    Context.ChangesOnly node.assigned session.context point.context := by
  induction h with
  | start => exact .refl _ _
  | finish => exact changesOnly_render _ _
  | @child before rest node location session reached point hbefore _ ih =>
      have hreached := changesOnly_renderAll before session
      rw [hbefore] at hreached
      rw [assigned, assignedAll_append, assignedAll]
      apply (hreached.mono Finset.subset_union_left).trans
      apply ih.mono
      exact Finset.subset_union_left.trans Finset.subset_union_right
  | thenBranch _ _ ih => exact ih.mono Finset.subset_union_left
  | elseBranch _ _ ih => exact ih.mono Finset.subset_union_right

end Node

end Stencil
