import Stencil.Proofs.HeadReader
import Stencil.Proofs.Iteration

/-!
# Lists joined by a loop

A loop can write a list the way the list itself is written, with a comma between any two items and
none behind the last one.  It asks the loop metadata in each run whether another item follows.
-/

namespace Stencil

open Attempt

/-!
## Reading the loop

The loop, its body and its condition as nodes, and the texts that they are read from.
-/

namespace Node

variable {r : String} {l : Nat}

theorem readsPiece_braced {name rest : List Char} (hname : Text.IsIdentifier name) :
    ReadsPiece ⟨r, '$' :: '\x7b' :: (name ++ '\x7d' :: rest), l⟩
      (.node (.output (.ofReference (.plain (String.ofList name) false ⟨r, l⟩)) ⟨r, l⟩))
      ⟨r, rest, l⟩ := by
  have hclose : Boundary ('\x7d' :: rest) :=
    Boundary.of_head (by decide) (by decide)
  have hnamed : (Reference.readNamed false ⟨r, name ++ '\x7d' :: rest, l⟩).outcome
      = .ok (.plain (String.ofList name) false ⟨r, l⟩, ⟨r, '\x7d' :: rest, l⟩) := by
    rw [Reference.outcome_named false hname hclose.name]
    exact Reference.outcome_suffixes_stop hclose
  apply readsPiece_dollar
  rw [outcome_dollar_brace, readOutput, Cursor.take?_cons]
  dsimp only
  rw [if_pos (Cursor.atLetter_append hname r _ _), outcome_weaken, outcome_after]
  apply outcome_andThen hnamed
  intro _
  rw [outcome_mapValue, Cursor.outcome_expect_here r _ rfl]
  rfl

def joinCondition (place : Location) : Expr :=
  .ofReference (.member (.plain loopVariable false place) "hasNext" false place)

def joinBody (place : Location) : Node :=
  .sequence
    [.output (.ofReference (.plain "x" false place)) place,
      .conditional (joinCondition place) (.sequence [.text ", " place] place) (.sequence [] place)
        place]
    place

def joinLoop (place : Location) : Node :=
  .forEach "x" (.ofReference (.plain "l" false place)) (joinBody place) place

def joinHead (tail : List Char) : List Char :=
  ' ' :: '(' :: '$' :: (['f', 'o', 'r', 'e', 'a', 'c', 'h'] ++
    '.' :: (['h', 'a', 's', 'N', 'e', 'x', 't'] ++ ')' :: tail))

theorem outcome_joinHead {x : Char} {rest : List Char} (hline : x ≠ '\n') :
    (readCondition ⟨r, joinHead (x :: rest), l⟩).outcome
      = .ok (joinCondition ⟨r, l⟩, ⟨r, x :: rest, l⟩) := by
  have hvariable : Text.IsIdentifier ['f', 'o', 'r', 'e', 'a', 'c', 'h'] := by decide
  have hmember : Text.IsIdentifier ['h', 'a', 's', 'N', 'e', 'x', 't'] := by decide
  have hclose : Boundary (')' :: x :: rest) := Boundary.of_head (by decide) (by decide)
  have hread : (Expr.readOperand false ⟨r, '$' :: (['f', 'o', 'r', 'e', 'a', 'c', 'h'] ++
      '.' :: (['h', 'a', 's', 'N', 'e', 'x', 't'] ++ ')' :: x :: rest)), l⟩).outcome
        = .ok (joinCondition ⟨r, l⟩, ⟨r, ')' :: x :: rest, l⟩) := by
    rw [Expr.outcome_operand_reference hvariable,
      Reference.outcome_named false hvariable (Cursor.forall_head_cons (by decide)),
      Reference.outcome_suffixes_member hmember hclose.toEndsName,
      Reference.outcome_suffixes_stop hclose]
    rfl
  have haccept : (⟨r, x :: rest, l⟩ : Cursor).accept '\n' = ⟨r, x :: rest, l⟩ :=
    Cursor.accept_of_ne fun h => hline (Option.some.inj h)
  rw [← haccept]
  exact outcome_condition_simple (Cursor.forall_head_cons rfl) hread

theorem readsPiece_joinConditional {x : Char} {rest : List Char}
    (hname : Text.isIdentifierChar x = false) (hline : x ≠ '\n') :
    ReadsPiece
      ⟨r, '#' :: (['i', 'f'] ++ joinHead (',' :: ([' '] ++
        '#' :: (['e', 'n', 'd'] ++ x :: rest)))), l⟩
      (.node (.conditional (joinCondition ⟨r, l⟩) (.sequence [.text ", " ⟨r, l⟩] ⟨r, l⟩)
        (.sequence [] ⟨r, l⟩) ⟨r, l⟩))
      ⟨r, x :: rest, l⟩ := by
  have hword : Text.IsIdentifier ['i', 'f'] := by decide
  have hend : Text.IsIdentifier ['e', 'n', 'd'] := by decide
  have hcomma : ReadsPiece ⟨r, ',' :: ([' '] ++ '#' :: (['e', 'n', 'd'] ++ x :: rest)), l⟩
      (.node (.text ", " ⟨r, l⟩)) ⟨r, '#' :: (['e', 'n', 'd'] ++ x :: rest), l⟩ :=
    readsPiece_text (by decide) (List.forall_mem_singleton.mpr (by decide))
      (Cursor.forall_head_cons (by decide))
  have hbody : (readBody (.inside .conditional l)
      ⟨r, ',' :: ([' '] ++ '#' :: (['e', 'n', 'd'] ++ x :: rest)), l⟩).outcome
        = .ok (⟨[.text ", " ⟨r, l⟩], .closing, rfl, ⟨r, l⟩⟩, ⟨r, x :: rest, l⟩) := by
    rw [outcome_body_node hcomma, outcome_body_stop (readsPiece_stop hend rfl hname hline) rfl]
    rfl
  have hstop : ∀ c ∈ (joinHead (',' :: ([' '] ++ '#' :: (['e', 'n', 'd'] ++ x :: rest)))).head?,
      Text.isIdentifierChar c = false := Cursor.forall_head_cons (by decide)
  apply readsPiece_directive (Directive.beginsAt_append hword r l)
  rw [outcome_directive_conditional (Directive.outcome_readName r l hword hstop) rfl,
    outcome_conditional_closing (outcome_joinHead (by decide)) hbody]
  rfl

def joinSpelling (tail : List Char) : List Char :=
  ['f', 'o', 'r', 'e', 'a', 'c', 'h'] ++ ' ' :: '(' :: '$' :: (['x'] ++
    ' ' :: 'i' :: 'n' :: ' ' :: '$' :: (['l'] ++ ')' :: '$' :: '\x7b' :: (['x'] ++ '\x7d' ::
      '#' :: (['i', 'f'] ++ joinHead (',' :: ([' '] ++ '#' :: (['e', 'n', 'd'] ++
        '#' :: (['e', 'n', 'd'] ++ tail))))))))

theorem readsPiece_joinLoop {x : Char} {rest : List Char}
    (hname : Text.isIdentifierChar x = false) (hline : x ≠ '\n') :
    ReadsPiece ⟨r, '#' :: joinSpelling (x :: rest), l⟩ (.node (joinLoop ⟨r, l⟩))
      ⟨r, x :: rest, l⟩ := by
  have hword : Text.IsIdentifier ['f', 'o', 'r', 'e', 'a', 'c', 'h'] := by decide
  have hend : Text.IsIdentifier ['e', 'n', 'd'] := by decide
  have hitem : Text.IsIdentifier ['x'] := by decide
  have hlist : Text.IsIdentifier ['l'] := by decide
  let body : List Char := '$' :: '\x7b' :: (['x'] ++ '\x7d' :: '#' :: (['i', 'f'] ++
    joinHead (',' :: ([' '] ++ '#' :: (['e', 'n', 'd'] ++ '#' :: (['e', 'n', 'd'] ++
      x :: rest))))))
  have hclose : Boundary (')' :: body) := Boundary.of_head (by decide) (by decide)
  have hcollection : (Expr.readOperand false ⟨r, '$' :: (['l'] ++ ')' :: body), l⟩).outcome
      = .ok (.ofReference (.plain "l" false ⟨r, l⟩), ⟨r, ')' :: body, l⟩) := by
    rw [Expr.outcome_operand_reference hlist, Reference.outcome_named false hlist hclose.name,
      Reference.outcome_suffixes_stop hclose]
    rfl
  have haccept : (⟨r, body, l⟩ : Cursor).accept '\n' = ⟨r, body, l⟩ :=
    Cursor.accept_of_ne fun h => absurd (Option.some.inj h) (by decide)
  have hhead := @outcome_loopHead_simple r l _ _ _ _ hitem (Cursor.forall_head_cons rfl) hcollection
  rw [haccept] at hhead
  have hbody : (readBody (.inside .forEach l) ⟨r, body, l⟩).outcome
      = .ok (⟨[.output (.ofReference (.plain "x" false ⟨r, l⟩)) ⟨r, l⟩,
          .conditional (joinCondition ⟨r, l⟩) (.sequence [.text ", " ⟨r, l⟩] ⟨r, l⟩)
            (.sequence [] ⟨r, l⟩) ⟨r, l⟩], .closing, rfl, ⟨r, l⟩⟩, ⟨r, x :: rest, l⟩) := by
    rw [outcome_body_node (readsPiece_braced hitem),
      outcome_body_node (readsPiece_joinConditional (by decide) (by decide)),
      outcome_body_stop (readsPiece_stop hend rfl hname hline) rfl]
    rfl
  apply readsPiece_directive (Directive.beginsAt_append hword r l)
  rw [outcome_directive_forEach
    (Directive.outcome_readName r l hword (Cursor.forall_head_cons (by decide))) rfl hhead, hbody]
  rfl

end Node

namespace Template

theorem parse_join (resource : String) :
    parse resource "[#foreach ($x in $l)$\x7bx\x7d#if ($foreach.hasNext), #end#end]"
      = .ok ⟨[.text "[" ⟨resource, 1⟩, Node.joinLoop ⟨resource, 1⟩, .text "]" ⟨resource, 1⟩],
          ⟨resource, 1⟩, []⟩ := by
  have hchars : "[#foreach ($x in $l)$\x7bx\x7d#if ($foreach.hasNext), #end#end]".toList
      = '[' :: ([] ++ '#' :: Node.joinSpelling (']' :: [])) := by
    decide +kernel
  have hopen : Node.ReadsPiece ⟨resource, '[' :: ([] ++ '#' :: Node.joinSpelling (']' :: [])), 1⟩
      (.node (.text "[" ⟨resource, 1⟩)) ⟨resource, '#' :: Node.joinSpelling (']' :: []), 1⟩ :=
    Node.readsPiece_text (by decide) (List.forall_mem_nil _) (Cursor.forall_head_cons (by decide))
  have hclose : Node.ReadsPiece ⟨resource, [']'], 1⟩ (.node (.text "]" ⟨resource, 1⟩))
      ⟨resource, [], 1⟩ :=
    @Node.readsPiece_text resource 1 ']' [] [] (by decide) (List.forall_mem_nil _)
      Cursor.forall_head_nil
  have hbody : (Node.readBody .outside (Cursor.ofText resource
      "[#foreach ($x in $l)$\x7bx\x7d#if ($foreach.hasNext), #end#end]")).outcome
        = .ok (⟨[.text "[" ⟨resource, 1⟩, Node.joinLoop ⟨resource, 1⟩, .text "]" ⟨resource, 1⟩],
          .endOfFile, rfl, ⟨resource, 1⟩⟩, ⟨resource, [], 1⟩) := by
    rw [Cursor.ofText, hchars, Node.outcome_body_node hopen,
      Node.outcome_body_node (Node.readsPiece_joinLoop (by decide) (by decide)),
      Node.outcome_body_node hclose, Node.outcome_body_end rfl]
    rfl
  rw [parse_of_body hbody]
  rfl

theorem parse_braced (resource : String) {name : String}
    (hname : Text.IsIdentifier name.toList) :
    parse resource ("$\x7b" ++ name ++ "\x7d")
      = .ok ⟨[.output (.ofReference (.plain name false ⟨resource, 1⟩)) ⟨resource, 1⟩],
          ⟨resource, 1⟩, []⟩ := by
  have hchars : ("$\x7b" ++ name ++ "\x7d").toList
      = '$' :: '\x7b' :: (name.toList ++ '\x7d' :: []) := by
    rw [String.toList_append, String.toList_append]
    rfl
  have hbody : (Node.readBody .outside
      (Cursor.ofText resource ("$\x7b" ++ name ++ "\x7d"))).outcome
        = .ok (⟨[.output (.ofReference (.plain name false ⟨resource, 1⟩)) ⟨resource, 1⟩],
          .endOfFile, rfl, ⟨resource, 1⟩⟩, ⟨resource, [], 1⟩) := by
    rw [Cursor.ofText, hchars, Node.outcome_body_node (Node.readsPiece_braced hname),
      Node.outcome_body_end rfl, String.ofList_toList]
    rfl
  rw [parse_of_body hbody]
  rfl

end Template

/-!
## Rendering the loop
-/

/-- The comma in front of an item can as well be written behind the item before it. -/
theorem Value.writeItems_cons (out : String) (item : Value) (rest : List Value) :
    writeItems "" out (item :: rest)
      = writeItems "" (item.write out ++ if !rest.isEmpty then ", " else "") rest := by
  cases rest with
  | nil =>
      rw [writeItems, writeItems, writeItems, String.append_empty]
      exact String.append_empty.symm
  | cons next rest =>
      rw [writeItems, writeItems, writeItems, String.append_empty, String.append_empty]
      rfl

theorem member_loopMetadata (index : Nat) (hasNext : Bool) :
    (loopMetadata index hasNext).member "hasNext" = .ok (.bool hasNext) := by
  rw [loopMetadata_eq, Value.member, Value.atKey]
  simp [Entries.find?]

namespace Node

variable {item : Value} {place : Location} {session : Session}

theorem isTrue_joinCondition {context : Context} {index : Nat} {hasNext : Bool}
    (h : context.get? loopVariable = some (loopMetadata index hasNext)) :
    (joinCondition place).isTrue context = .ok hasNext := by
  have hvalue : (joinCondition place).evaluate context = .ok (.bool hasNext) := by
    unfold joinCondition Expr.ofReference
    rw [Expr.evaluate, Reference.resolve, Reference.resolve, h]
    exact congrArg (locate place) (member_loopMetadata index hasNext)
  show ((joinCondition place).evaluate context).map Value.isTrue = .ok hasNext
  rw [hvalue]
  rfl

theorem render_output {context : Context} {output : String} {e : Expr}
    (hvalue : e.evaluate context = .ok item) (hitem : item ≠ .null) :
    (Node.output e place).render ⟨context, output⟩
      = (Session.mk context (item.write output)).done := by
  rw [render, hvalue]
  cases item with
  | null => exact absurd rfl hitem
  | _ => rfl

theorem render_joinBody {index : Nat} {hasNext : Bool}
    (hbound : session.context.get? "x" = some item) (hitem : item ≠ .null)
    (hmetadata : session.context.get? loopVariable = some (loopMetadata index hasNext)) :
    (joinBody place).render session
      = (Session.mk session.context
          (item.write session.output ++ if hasNext then ", " else "")).done := by
  rcases session with ⟨context, output⟩
  rw [joinBody, render, renderAll_cons, render_output (evaluate_variable hbound false place) hitem]
  show renderAll [_] _ = _
  rw [renderAll_singleton, render, isTrue_joinCondition hmetadata]
  cases hasNext with
  | true =>
      dsimp only
      rw [render, renderAll_singleton, render]
      rfl
  | false =>
      dsimp only
      rw [render, renderAll]
      exact congrArg (fun text => (Session.mk context text).done) String.append_empty.symm

/-- Behind every item but the last one the loop writes a comma, as the list does in front of every
item but the first one. -/
theorem renderEach_joinBody (items : List Value) (hitems : ∀ item ∈ items, item ≠ .null)
    (index : Nat) (session : Session) :
    (renderEach "x" (joinBody place).render index items session).failure? = none
      ∧ (renderEach "x" (joinBody place).render index items session).session.output
        = Value.writeItems "" session.output items := by
  induction items generalizing index session with
  | nil => exact ⟨rfl, rfl⟩
  | cons item rest ih =>
      rw [List.forall_mem_cons] at hitems
      let start := session.enter session.context.mark "x" item (loopMetadata index !rest.isEmpty)
      have hbound : start.context.get? "x" = some item := by
        rw [Session.get?_enter, if_neg (by decide), if_pos rfl]
      have hmetadata : start.context.get? loopVariable
          = some (loopMetadata index !rest.isEmpty) := by
        rw [Session.get?_enter, if_pos rfl]
      have hrun : (joinBody place).render start = _ := render_joinBody hbound hitems.1 hmetadata
      rw [renderEach_cons, Session.run, hrun, Value.writeItems_cons]
      exact ih hitems.2 (index + 1) _

theorem render_joinLoop {items : List Value}
    (hbound : session.context.get? "l" = some (.list items))
    (hitems : ∀ item ∈ items, item ≠ .null) :
    ((joinLoop place).render session).failure? = none
      ∧ ((joinLoop place).render session).session.output
        = Value.writeItems "" session.output items := by
  have hvalue := evaluate_variable hbound false place
  rw [joinLoop, render_forEach hvalue rfl]
  exact renderEach_joinBody items hitems 0 session

end Node

namespace Template

variable {resource : String} {bindings : List (String × Value)} {items : List Value}

theorem render_join (hbound : (Context.ofVariables bindings).get? "l" = some (.list items))
    (hitems : ∀ item ∈ items, item ≠ .null) :
    render resource "[#foreach ($x in $l)$\x7bx\x7d#if ($foreach.hasNext), #end#end]" bindings
      = .ok (Value.list items).text := by
  let place : Location := ⟨resource, 1⟩
  let opened := (Session.start (.ofVariables bindings)).write "["
  have hloop : ((Node.joinLoop place).render opened).failure? = none
      ∧ ((Node.joinLoop place).render opened).session.output
        = Value.writeItems "" opened.output items := Node.render_joinLoop hbound hitems
  have hroot : (Node.sequence [.text "[" place, Node.joinLoop place, .text "]" place] place).render
      (.start (.ofVariables bindings))
        = ((Node.joinLoop place).render opened).andThen
            fun after => (after.write "]").done := by
    have hlast (after : Session) :
        Node.renderAll [.text "]" place] after = (after.write "]").done := by
      rw [Node.renderAll_singleton, Node.render]
    rw [Node.render, Node.renderAll_cons, Node.render]
    show Node.renderAll [Node.joinLoop place, .text "]" place] opened = _
    rw [Node.renderAll_cons]
    exact congrArg (Outcome.andThen _) (funext hlast)
  rw [render, parse_join]
  dsimp only
  rw [evaluate, root, hroot, Value.text, Value.write]
  generalize (Node.joinLoop place).render opened = outcome at hloop ⊢
  rcases outcome with ⟨after, failure?⟩
  rcases hloop with ⟨hdone, houtput⟩
  cases hdone
  exact congrArg (fun text => Except.ok (text ++ "]")) houtput

theorem render_braced {name : String} {value : Value} (hname : Text.IsIdentifier name.toList)
    (hbound : (Context.ofVariables bindings).get? name = some value) (hvalue : value ≠ .null) :
    render resource ("$\x7b" ++ name ++ "\x7d") bindings = .ok value.text := by
  have hfound := Node.evaluate_variable hbound false ⟨resource, 1⟩
  rw [render, parse_braced resource hname]
  dsimp only
  rw [evaluate, root, Node.render, Node.renderAll_singleton, Session.start,
    Node.render_output hfound hvalue]
  rfl

end Template

/-!
## What a run knows
-/

inductive Value.Visits : Value → List Value → Prop
  | list {items : List Value} : Visits (.list items) items
  | map {entries : Entries Value} :
      Entries.Sorted entries -> Visits (.map entries) (Entries.values entries)

theorem Value.Visits.loopItems_eq {value : Value} {items : List Value} (h : value.Visits items) :
    value.loopItems = .ok items := by
  cases h with
  | list => rfl
  | map => rfl

/-- The two names of a loop stay bound all through a run, up to what the body itself assigns. -/
theorem Node.Reaches.get?_eq {node : Node} {session point : Session} {name : String}
    {found : Option Value} (h : node.Reaches session point)
    (hbound : session.context.get? name = found) (hname : name ∉ node.assigned) :
    point.context.get? name = found :=
  (h.changesOnly.get?_eq name hname).trans hbound

namespace Template

/-- A loop that writes every item, and a comma if the metadata tell that another one follows, writes
a list as the list itself is written.  In general a loop runs its body once for every item unless a
run fails, and each run knows its item and its place up to its end, inner loops or not. -/
theorem joins_and_counts :
    (∀ (resource : String) (bindings : List (String × Value)) (items : List Value),
      (Context.ofVariables bindings).get? "l" = some (.list items) ->
      (∀ item ∈ items, item ≠ .null) ->
      render resource "[#foreach ($x in $l)$\x7bx\x7d#if ($foreach.hasNext), #end#end]" bindings
        = render resource "$\x7bl\x7d" bindings
      ∧ render resource "$\x7bl\x7d" bindings = .ok (Value.list items).text)
    ∧ ∀ (name : String) (collection : Expr) (body : Node) (location : Location)
        (session : Session) (value : Value) (items : List Value),
      name ≠ loopVariable -> collection.evaluate session.context = .ok value ->
      value.Visits items ->
      let outcome := (Node.forEach name collection body location).render session
      ∃ starts, Runs name body.render items.length 0 items session starts outcome
        ∧ ((starts.length = items.length ∧ outcome.failure? = none
            ∧ ∀ start ∈ starts, (body.render start).failure? = none)
          ∨ ∃ front last error, starts = front ++ [last] ∧ starts.length ≤ items.length
            ∧ (∀ start ∈ front, (body.render start).failure? = none)
            ∧ (body.render last).failure? = some error ∧ outcome.failure? = some error)
        ∧ ∀ i start, starts[i]? = some start ->
          ∃ item metadata, items[i]? = some item ∧ metadata.IsLoopMetadata i items.length
            ∧ start.context.get? name = some item
            ∧ start.context.get? loopVariable = some metadata
            ∧ ∀ point, body.Reaches start point ->
              (name ∉ body.assigned -> point.context.get? name = some item)
              ∧ (loopVariable ∉ body.assigned ->
                point.context.get? loopVariable = some metadata) := by
  constructor
  · intro resource bindings items hbound hitems
    have htext : "$\x7bl\x7d" = "$\x7b" ++ "l" ++ "\x7d" := by
      decide +kernel
    rw [render_join hbound hitems, htext, render_braced (by decide) hbound (by rintro ⟨⟩)]
    exact ⟨rfl, rfl⟩
  · intro name collection body location session value items hname hvalue hvisits outcome
    rcases Node.exists_runs_forEach hvalue hvisits.loopItems_eq with ⟨starts, hruns⟩
    refine ⟨starts, hruns, hruns.ends, ?_⟩
    intro i start hstart
    rcases hruns.getElem?_start i hstart with ⟨item, hitem, hbound, metadata, hmetadata, hplace⟩
    rw [Nat.zero_add] at hplace
    refine ⟨item, metadata, hitem, hplace, hbound hname, hmetadata, ?_⟩
    intro point hpoint
    exact ⟨hpoint.get?_eq (hbound hname), hpoint.get?_eq hmetadata⟩

/-- The inner loop binds both names of the outer one anew and assigns one of them. -/
theorem joins_and_counts_nested :
    let place : Location := ⟨"t", 1⟩
    let items := [Value.int 1, .list [.bool true, .null], .str "a"]
    let truth := Expr.literal (.bool true) place
    let inner := Node.forEach "x" (.list [truth] place) (.set loopVariable truth place) place
    let entries := [("a", Value.int 1), ("b", .int 2)]
    let session := Session.start (.ofVariables [("m", .map entries)])
    let outer := Node.forEach "x" (.ofReference (.plain "m" false place)) inner place
    render "t" "[#foreach ($x in $l)$\x7bx\x7d#if ($foreach.hasNext), #end#end]"
        [("l", .list items)] = .ok "[1, [true, null], a]"
      ∧ (outer.render session).failure? = none
      ∧ ∃ start metadata, metadata.IsLoopMetadata 1 2
        ∧ (inner.render start).session.context.get? "x" = some (.int 2)
        ∧ (inner.render start).session.context.get? loopVariable = some metadata := by
  intro place items truth inner entries session outer
  rcases joins_and_counts with ⟨hjoin, hcounts⟩
  constructor
  · have hbound : (Context.ofVariables [("l", .list items)]).get? "l" = some (.list items) := by
      decide +kernel
    have hitems : ∀ item ∈ items, item ≠ .null := by
      decide +kernel
    have htext : (Value.list items).text = "[1, [true, null], a]" := by
      decide +kernel
    rcases hjoin "t" [("l", .list items)] items hbound hitems with ⟨hloop, hbraced⟩
    rw [hloop, hbraced, htext]
  · have hvalue : (Expr.ofReference (.plain "m" false place)).evaluate session.context
        = .ok (.map entries) := by
      apply Node.evaluate_variable
      decide +kernel
    have hsorted : Entries.Sorted entries := by
      decide +kernel
    have hdone : (outer.render session).failure? = none := by
      decide +kernel
    have hassigned : "x" ∉ inner.assigned ∧ loopVariable ∉ inner.assigned := by
      decide +kernel
    rcases hcounts "x" _ inner place session _ _ (by decide) hvalue (.map hsorted) with
      ⟨starts, _, ⟨hlength, _⟩ | ⟨_, _, error, _, _, _, _, herror⟩, hstarts⟩
    · rcases starts with _ | ⟨first, _ | ⟨start, rest⟩⟩
      · cases hlength
      · cases hlength
      · rcases hstarts 1 start rfl with ⟨item, metadata, hitem, hplace, _, _, hpoints⟩
        cases hitem
        rcases hpoints _ .finish with ⟨hkept, hkept'⟩
        exact ⟨hdone, start, metadata, hplace, hkept hassigned.1, hkept' hassigned.2⟩
    · rw [hdone] at herror
      cases herror

end Template

end Stencil
