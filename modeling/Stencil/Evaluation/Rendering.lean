import Stencil.Evaluation.Expr
import Stencil.Node.Basic

/-!
# Rendering

Rendering walks a tree, adds to the output and assigns variables.  An error stops it; what it has
written and assigned by then stays.  Each run of a loop body has a scope of its own, which is
closed also after an error.
-/

namespace Stencil

structure Session where
  context : Context
  output : String

structure Outcome where
  session : Session
  failure? : Option (Located EvalError)

namespace Session

def start (context : Context) : Session :=
  ⟨context, ""⟩

def done (session : Session) : Outcome :=
  ⟨session, none⟩

def fail (session : Session) (error : Located EvalError) : Outcome :=
  ⟨session, some error⟩

def write (session : Session) (text : String) : Session :=
  ⟨session.context, session.output ++ text⟩

def writeValue (session : Session) (value : Value) : Session :=
  ⟨session.context, value.write session.output⟩

def assign (session : Session) (name : String) (value : Value) : Session :=
  ⟨session.context.set name value, session.output⟩

end Session

/-!
## Loops
-/

def loopMetadata (index : Nat) (hasNext : Bool) : Value :=
  .ofEntries
    [("index", .int (Integer.ofCount index)),
      ("count", .int (Integer.ofCount (index + 1))),
      ("hasNext", .bool hasNext),
      ("first", .bool (index = 0)),
      ("last", .bool !hasNext)]

def loopVariable : String := "foreach"

/-- The items a loop visits; a map is visited in the order of its keys. -/
def Value.loopItems : Value → Except EvalError (List Value)
  | null => .ok []
  | list items => .ok items
  | map entries => .ok (Entries.values entries)
  | other => .error (.notIterable other.kind)

namespace Session

def enter (session : Session) (mark : Nat) (name : String) (item metadata : Value) : Session :=
  ⟨(session.context.shadow mark name item).shadow mark loopVariable metadata, session.output⟩

def leave (session : Session) (mark : Nat) : Session :=
  ⟨session.context.restore mark, session.output⟩

end Session

def renderEach (name : String) (body : Session → Outcome) (index : Nat) :
    List Value → Session → Outcome
  | [], session => session.done
  | item :: rest, session =>
      let mark := session.context.mark
      let metadata := loopMetadata index !rest.isEmpty
      match body (session.enter mark name item metadata) with
      | ⟨after, none⟩ => renderEach name body (index + 1) rest (after.leave mark)
      | ⟨after, some error⟩ => (after.leave mark).fail error

/-!
## Nodes
-/

mutual

def Node.render : Node → Session → Outcome
  | .sequence children _, session => Node.renderAll children session
  | .text content _, session => (session.write content).done
  | .output expr _, session =>
      match expr.evaluate session.context with
      | .error error => session.fail error
      | .ok .null =>
          if expr.isSilent then session.done
          else session.fail ⟨.nullValue expr.text, expr.location⟩
      | .ok value => (session.writeValue value).done
  | .conditional condition thenBranch elseBranch _, session =>
      match condition.isTrue session.context with
      | .error error => session.fail error
      | .ok true => thenBranch.render session
      | .ok false => elseBranch.render session
  | .forEach name collection body _, session =>
      match collection.evaluate session.context with
      | .error error => session.fail error
      | .ok value =>
          match locate collection.location value.loopItems with
          | .error error => session.fail error
          | .ok items => renderEach name body.render 0 items session
  | .set name expr _, session =>
      match expr.evaluate session.context with
      | .error error => session.fail error
      | .ok value => (session.assign name value).done
  | .comment _, session => session.done
  | .macroCall name _ location, session => session.fail ⟨.unsupportedCall name, location⟩

def Node.renderAll : List Node → Session → Outcome
  | [], session => session.done
  | node :: rest, session =>
      match node.render session with
      | ⟨after, none⟩ => Node.renderAll rest after
      | failed => failed

end

namespace Outcome

def result (outcome : Outcome) : Except (Located EvalError) String :=
  match outcome.failure? with
  | none => .ok outcome.session.output
  | some error => .error error

end Outcome

end Stencil
