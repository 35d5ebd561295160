import Stencil.Evaluation.Error
import Stencil.Value.Display

/-!
# Operators on values

Equality compares values of one kind part by part and values of different kinds by their text;
null equals nothing but itself.  All other operators take integers.
-/

namespace Stencil
namespace Value

def equal (lhs rhs : Value) : Bool :=
  if lhs.isNull || rhs.isNull then lhs.isNull && rhs.isNull
  else if lhs.kind = rhs.kind then decide (lhs = rhs)
  else decide (lhs.text = rhs.text)

/-- Both operands as integers; the left one is looked at first. -/
def integers (op : Operator) (lhs rhs : Value) : Except EvalError (Int64 × Int64) :=
  match lhs, rhs with
  | int a, int b => .ok (a, b)
  | int _, other => .error (.notAnInteger (.operand op) other.kind)
  | other, _ => .error (.notAnInteger (.operand op) other.kind)

def exactly (operation : Arithmetic) : Option Int64 → Except EvalError Value
  | some n => .ok (int n)
  | none => .error (.integerOverflow operation)

def calculate (operation : Arithmetic) (a b : Int64) : Except EvalError Value :=
  match operation with
  | .addition => exactly .addition (Integer.add? a b)
  | .subtraction => exactly .subtraction (Integer.sub? a b)
  | .multiplication => exactly .multiplication (Integer.mul? a b)
  | .division =>
      if b = 0 then .error .divisionByZero else exactly .division (Integer.div? a b)
  | .remainder =>
      if b = 0 then .error .remainderByZero else exactly .remainder (Integer.rem? a b)

def compare (holds : Int → Int → Bool) (a b : Int64) : Except EvalError Value :=
  .ok (bool (holds a.toInt b.toInt))

/-- The value of an operator on values.  The logical operators are not among them: they look at
their second operand only if they have to. -/
def apply (op : Operator) (lhs rhs : Value) : Except EvalError Value :=
  match op with
  | .equal => .ok (bool (equal lhs rhs))
  | .notEqual => .ok (bool !(equal lhs rhs))
  | .plus => do
      let (a, b) ← integers op lhs rhs
      calculate .addition a b
  | .minus => do
      let (a, b) ← integers op lhs rhs
      calculate .subtraction a b
  | .times => do
      let (a, b) ← integers op lhs rhs
      calculate .multiplication a b
  | .divide => do
      let (a, b) ← integers op lhs rhs
      calculate .division a b
  | .remainder => do
      let (a, b) ← integers op lhs rhs
      calculate .remainder a b
  | .less => do
      let (a, b) ← integers op lhs rhs
      compare (· < ·) a b
  | .lessOrEqual => do
      let (a, b) ← integers op lhs rhs
      compare (· ≤ ·) a b
  | .greater => do
      let (a, b) ← integers op lhs rhs
      compare (· > ·) a b
  | .greaterOrEqual => do
      let (a, b) ← integers op lhs rhs
      compare (· ≥ ·) a b
  | .stop | .or | .and => .error (.unsupportedOperator op)

end Value
end Stencil
