import Stencil.Json.Basic
import Stencil.Text.Identifier
import Stencil.Text.Split
import Stencil.Value.Basic

/-!
# Variables from outside

Variables come from a JSON object or from assignments of the form `name=value`.  Templates know
no numbers but integers, so a document is converted as a whole or not at all, and the first
number in it that is no integer is blamed with its path.
-/

namespace Stencil

inductive VariableError where
  | json (detail : String)
  | notAnObject (found : String)
  | notAnInteger (path number : String)
  | missingEquals (arg : String)
  | invalidName (name : String)
deriving DecidableEq, Repr

namespace VariableError

def message : VariableError → String
  | json detail => "invalid JSON: " ++ detail
  | notAnObject found => "variables must be a JSON object, found " ++ found
  | notAnInteger path number => path ++ ": numbers must be integers, found " ++ number
  | missingEquals arg => "expected name=value, found `" ++ arg ++ "`"
  | invalidName name => "invalid variable name `" ++ name ++ "`"

end VariableError

/-!
## Conversion of documents
-/

namespace Json

def itemPath (path : String) (index : Nat) : String :=
  path ++ "[" ++ index.repr ++ "]"

def memberPath (path key : String) : String :=
  path ++ "." ++ key

variable (lib : Library)

mutual

def toValue (path : String) : Json → Except VariableError Value
  | null => .ok .null
  | bool value => .ok (.bool value)
  | number value =>
      match lib.int? value with
      | some n => .ok (.int n)
      | none => .error (.notAnInteger path (lib.numberText value))
  | string value => .ok (.str value)
  | array items => (itemsToValues path 0 items).map .list
  | object members => (membersToValues (memberPath path) members).map .map

def itemsToValues (path : String) (index : Nat) : List Json → Except VariableError (List Value)
  | [] => .ok []
  | item :: rest => do
      let value ← toValue (itemPath path index) item
      let values ← itemsToValues path (index + 1) rest
      return value :: values

def membersToValues (path : String → String) :
    List (String × Json) → Except VariableError (List (String × Value))
  | [] => .ok []
  | (key, member) :: rest => do
      let value ← toValue (path key) member
      let values ← membersToValues path rest
      return (key, value) :: values

end

end Json

namespace Variables

/-- The path of a variable is its name. -/
def ofJson (lib : Json.Library) : Json → Except VariableError (List (String × Value))
  | .object members => Json.membersToValues lib id members
  | other => .error (.notAnObject other.kindText)

def ofText (lib : Json.Library) (text : String) : Except VariableError (List (String × Value)) :=
  match lib.read text with
  | .ok document => ofJson lib document
  | .error detail => .error (.json detail)

/-!
## Assignments
-/

def ofWord (word : List Char) : Value :=
  let text := String.ofList word
  if text = "true" then .bool true
  else if text = "false" then .bool false
  else
    match Integer.ofText? word with
    | some n => .int n
    | none => .str text

/-- Reads `name=value`; further equals signs belong to the value. -/
def ofAssignment (arg : String) : Except VariableError (String × Value) :=
  match Text.splitAt? ['='] arg.toList with
  | none => .error (.missingEquals arg)
  | some (name, word) =>
      if Text.IsIdentifier name then .ok (String.ofList name, ofWord word)
      else .error (.invalidName (String.ofList name))

end Variables

end Stencil
