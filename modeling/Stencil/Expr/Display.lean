import Stencil.Expr.Basic

/-!
# Written forms of expressions

The text of an expression as messages show it: operands without parentheses, references without
braces, the `!` of a silent reference only once, after the dollar sign.
-/

namespace Stencil

namespace Literal

def text : Literal → String
  | null => "null"
  | bool true => "true"
  | bool false => "false"
  | int value => value.toInt.repr

end Literal

mutual

def Expr.text : Expr → String
  | .literal value _ => value.text
  | .reference ref _ => ref.text
  | .binary op lhs rhs _ => lhs.text ++ " " ++ op.symbol ++ " " ++ rhs.text
  | .not operand _ => "!" ++ operand.text
  | .list items _ => "[" ++ ", ".intercalate (Expr.texts items) ++ "]"
  | .range first last _ => "[" ++ first.text ++ ".." ++ last.text ++ "]"

def Reference.text : Reference → String
  | .plain name silent _ => (if silent then "$!" else "$") ++ name
  | .member lhs name _ _ => lhs.text ++ "." ++ name
  | .method lhs name args _ _ =>
      lhs.text ++ "." ++ name ++ "(" ++ ", ".intercalate (Expr.texts args) ++ ")"
  | .index lhs index _ _ => lhs.text ++ "[" ++ index.text ++ "]"

def Expr.texts : List Expr → List String
  | [] => []
  | e :: rest => e.text :: Expr.texts rest

end

end Stencil
