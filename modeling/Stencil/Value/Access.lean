import Stencil.Text.Case
import Stencil.Text.Blank
import Stencil.Value.Operation

/-!
# Members, indexes and method calls

Access to the parts of a value.  A map answers null for a key it does not have.
-/

namespace Stencil
namespace Value

def atKey (entries : List (String × Value)) (key : String) : Value :=
  (Entries.find? key entries).getD null

def member (target : Value) (name : String) : Except EvalError Value :=
  match target with
  | map entries => .ok (atKey entries name)
  | other => .error (.noSuchMember name other.kind)

def item (items : List Value) (index : Int64) : Except EvalError Value :=
  match index.toInt with
  | .ofNat k =>
      match items[k]? with
      | some value => .ok value
      | none => .error (.indexOutOfBounds index items.length)
  | .negSucc _ => .error (.indexOutOfBounds index items.length)

/-- A list is indexed by an integer, a map by the text of any value. -/
def index (target key : Value) : Except EvalError Value :=
  match target, key with
  | list items, int n => item items n
  | list _, other => .error (.notAnInteger .listIndex other.kind)
  | map entries, key => .ok (atKey entries key.text)
  | other, _ => .error (.notIndexable other.kind)

/-!
## Method calls
-/

def count (n : Nat) : Value :=
  int (Integer.ofCount n)

inductive Dispatch where
  | outcome (result : Except EvalError Value)
  | missingArgument
  | missingCase

def withFirst (args : List Value) (next : Value → Except EvalError Value) : Dispatch :=
  match args with
  | [] => .missingArgument
  | first :: _ => .outcome (next first)

/-- The table of methods.  A case is found by the method and the receiver alone; whether there is an
argument shows only when it is asked for. -/
def dispatch (receiver : Value) (method : Method) (args : List Value) : Dispatch :=
  match method, receiver with
  | .size, list items => .outcome (.ok (count items.length))
  | .size, map entries => .outcome (.ok (count entries.length))
  | .isEmpty, list items => .outcome (.ok (bool items.isEmpty))
  | .isEmpty, map entries => .outcome (.ok (bool entries.isEmpty))
  | .isEmpty, str s => .outcome (.ok (bool s.isEmpty))
  | .get, target => withFirst args fun key => index target key
  | .contains, list items => withFirst args fun value => .ok (bool (items.any (equal · value)))
  | .containsKey, map entries =>
      withFirst args fun key => .ok (bool (Entries.find? key.text entries).isSome)
  | .keySet, map entries => .outcome (.ok (list (entries.map fun entry => str entry.1)))
  | .values, map entries => .outcome (.ok (list (Entries.values entries)))
  | .length, str s => .outcome (.ok (count s.length))
  | .toUpperCase, str s => .outcome (.ok (str (Text.toUpperCase s)))
  | .toLowerCase, str s => .outcome (.ok (str (Text.toLowerCase s)))
  | .trim, str s => .outcome (.ok (str (Text.trim s)))
  | .toString, value => .outcome (.ok (str value.text))
  | _, _ => .missingCase

def invoke (receiver : Value) (method : Method) (args : List Value) : Except EvalError Value :=
  match dispatch receiver method args with
  | .outcome result => result
  | .missingArgument | .missingCase => .error (.noSuchMethod method.name receiver.kind)

def call (receiver : Value) (name : String) (args : List Value) : Except EvalError Value :=
  match Method.find? receiver.kind name with
  | none => .error (.noSuchMethod name receiver.kind)
  | some method =>
      if args.length = method.arity then invoke receiver method args
      else .error (.wrongArgumentCount method args.length)

end Value
end Stencil
