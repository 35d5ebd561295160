import Stencil.Integer
import Stencil.Location
import Stencil.Operator
import Stencil.Value.Method

/-!
# Causes of evaluation errors

What can go wrong while a template is evaluated, and how each cause is worded.
-/

namespace Stencil

inductive Arithmetic where
  | addition
  | subtraction
  | multiplication
  | division
  | remainder
deriving DecidableEq, Repr

namespace Arithmetic

def text : Arithmetic → String
  | addition => "addition"
  | subtraction => "subtraction"
  | multiplication => "multiplication"
  | division => "division"
  | remainder => "remainder"

end Arithmetic

inductive IntegerPlace where
  | operand (op : Operator)
  | rangeBound
  | listIndex
deriving DecidableEq, Repr

namespace IntegerPlace

def text : IntegerPlace → String
  | operand op => "operator `" ++ op.symbol ++ "`"
  | rangeBound => "range literal"
  | listIndex => "list index"

end IntegerPlace

inductive EvalError where
  | undefinedReference (name : String)
  | nullValue (reference : String)
  | notIterable (found : Kind)
  | rangeTooLarge (length max : Nat)
  | notAnInteger (place : IntegerPlace) (found : Kind)
  | divisionByZero
  | remainderByZero
  | integerOverflow (operation : Arithmetic)
  | noSuchMember (member : String) (receiver : Kind)
  | notIndexable (receiver : Kind)
  | indexOutOfBounds (index : Int64) (length : Nat)
  | noSuchMethod (method : String) (receiver : Kind)
  | wrongArgumentCount (method : Method) (count : Nat)
  | unsupportedOperator (op : Operator)
  | unsupportedCall (name : String)
deriving DecidableEq

namespace EvalError

def arguments (count : Nat) : String :=
  count.repr ++ (if count = 1 then " argument" else " arguments")

def message : EvalError → String
  | undefinedReference name => "undefined reference $" ++ name
  | nullValue reference => "null value for " ++ reference
  | notIterable found => "#foreach needs a list or map, found " ++ found.text
  | rangeTooLarge length max =>
      "range of " ++ length.repr ++ " elements exceeds the limit of " ++ max.repr
  | notAnInteger place found => place.text ++ " requires integers, found " ++ found.text
  | divisionByZero => "division by zero"
  | remainderByZero => "remainder by zero"
  | integerOverflow operation => "integer overflow in " ++ operation.text
  | noSuchMember member receiver => "cannot get member " ++ member ++ " of " ++ receiver.text
  | notIndexable receiver => "cannot index " ++ receiver.text
  | indexOutOfBounds index length =>
      "index " ++ Integer.text index ++ " out of bounds for list of length " ++ length.repr
  | noSuchMethod method receiver => "no method " ++ method ++ "() on " ++ receiver.text
  | wrongArgumentCount method count =>
      method.name ++ "() expects " ++ arguments method.arity ++ ", got " ++ count.repr
  | unsupportedOperator op =>
      "operator `" ++ op.symbol ++ "` on evaluated operands is not supported"
  | unsupportedCall name => "macro call #" ++ name ++ " is not supported"

end EvalError

end Stencil
