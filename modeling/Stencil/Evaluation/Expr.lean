import Stencil.Context
import Stencil.Evaluation.Error
import Stencil.Expr.Display
import Stencil.Value.Access

/-!
# Evaluation of expressions

The value of an expression in a context.  Evaluation changes nothing.  A silent reference gives
null where its variable is undefined or what it builds on is null; conditions take an undefined
variable for false.
-/

namespace Stencil

def locate (location : Location) : Except EvalError α → Except (Located EvalError) α
  | .ok a => .ok a
  | .error cause => .error ⟨cause, location⟩

def Literal.toValue : Literal → Value
  | null => .null
  | bool value => .bool value
  | int value => .int value

/-!
## Ranges
-/

def maxRangeLength : Nat := 1000000

namespace Value

def rangeItems (first last : Int64) : List Value :=
  (List.range (Integer.distance first last + 1)).map fun (k : Nat) =>
    int (Int64.ofInt (if first.toInt ≤ last.toInt then first.toInt + k else first.toInt - k))

def range (first last : Int64) : Except EvalError Value :=
  if Integer.distance first last < maxRangeLength then
    .ok (list (rangeItems first last))
  else
    .error (.rangeTooLarge (Integer.distance first last + 1) maxRangeLength)

end Value

namespace Expr

/-- The value of a bound as an integer; the bound is blamed if it is none. -/
def bound (bound : Expr) (value : Except (Located EvalError) Value) :
    Except (Located EvalError) Int64 := do
  match ← value with
  | .int n => return n
  | other => throw ⟨.notAnInteger .rangeBound other.kind, bound.location⟩

/-!
## Truth
-/

def truth (context : Context) (expr : Expr) (value : Except (Located EvalError) Value) :
    Except (Located EvalError) Bool :=
  match expr with
  | .reference (.plain name _ _) _ => .ok ((context.get? name).any Value.isTrue)
  | _ => value.map Value.isTrue

end Expr

/-!
## Evaluation
-/

mutual

def Expr.evaluate (context : Context) : Expr → Except (Located EvalError) Value
  | .literal value _ => .ok value.toValue
  | .reference ref _ => ref.resolve context
  | .binary .or lhs rhs _ => do
      if ← lhs.truth context (lhs.evaluate context) then
        return .bool true
      else
        return .bool (← rhs.truth context (rhs.evaluate context))
  | .binary .and lhs rhs _ => do
      if ← lhs.truth context (lhs.evaluate context) then
        return .bool (← rhs.truth context (rhs.evaluate context))
      else
        return .bool false
  | .binary op lhs rhs location => do
      let a ← lhs.evaluate context
      let b ← rhs.evaluate context
      locate location (Value.apply op a b)
  | .not operand _ => do
      return .bool (!(← operand.truth context (operand.evaluate context)))
  | .list items _ => do
      return .list (← Expr.evaluateAll context items)
  | .range first last location => do
      let a ← first.bound (first.evaluate context)
      let b ← last.bound (last.evaluate context)
      locate location (Value.range a b)

/-- The value of a reference; links behind null are not looked at if it is silent. -/
def Reference.resolve (context : Context) : Reference → Except (Located EvalError) Value
  | .plain name silent location =>
      match context.get? name with
      | some value => .ok value
      | none =>
          if silent then .ok .null else .error ⟨.undefinedReference name, location⟩
  | .member lhs name silent location => do
      let target ← lhs.resolve context
      if target.isNull && silent then
        return .null
      else
        locate location (target.member name)
  | .method lhs name args silent location => do
      let target ← lhs.resolve context
      if target.isNull && silent then
        return .null
      else
        let values ← Expr.evaluateAll context args
        locate location (target.call name values)
  | .index lhs index silent location => do
      let target ← lhs.resolve context
      if target.isNull && silent then
        return .null
      else
        let key ← index.evaluate context
        locate location (target.index key)

def Expr.evaluateAll (context : Context) : List Expr → Except (Located EvalError) (List Value)
  | [] => .ok []
  | e :: rest => do
      let value ← e.evaluate context
      let values ← Expr.evaluateAll context rest
      return value :: values

end

def Expr.isTrue (context : Context) (expr : Expr) : Except (Located EvalError) Bool :=
  expr.truth context (expr.evaluate context)

end Stencil
