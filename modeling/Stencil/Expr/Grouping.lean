import Stencil.Expr.Basic

/-!
# Grouping of operator chains

An expression is written as a chain: a first operand, then operators each with an operand.  A
grouping is a tree over such a chain.  Appending one more link descends the right edge of the tree
as long as the operators there bind weaker, so that operators of equal precedence group to the
left.  The operands of a grouping are closed: a parenthesised operand is never taken apart.
-/

namespace Stencil

inductive Grouping where
  | operand (expr : Expr)
  | apply (op : Operator) (lhs rhs : Grouping)

namespace Grouping

def toExpr : Grouping → Expr
  | operand expr => expr
  | apply op lhs rhs => .apply op lhs.toExpr rhs.toExpr

def append : Grouping → Operator → Expr → Grouping
  | operand first, op, expr => apply op (operand first) (operand expr)
  | apply outer lhs rhs, op, expr =>
      if outer.precedence < op.precedence then
        apply outer lhs (rhs.append op expr)
      else
        apply op (apply outer lhs rhs) (operand expr)

def ofChain (first : Expr) (links : List (Operator × Expr)) : Grouping :=
  links.foldl (fun grouping link => grouping.append link.1 link.2) (operand first)

/-!
## The chain of a grouping
-/

def first : Grouping → Expr
  | operand expr => expr
  | apply _ lhs _ => lhs.first

def links : Grouping → List (Operator × Expr)
  | operand _ => []
  | apply op lhs rhs => lhs.links ++ (op, rhs.first) :: rhs.links

theorem first_append (grouping : Grouping) (op : Operator) (expr : Expr) :
    (grouping.append op expr).first = grouping.first := by
  induction grouping with
  | operand first => rfl
  | apply outer lhs rhs _ _ =>
      rw [append]
      split
      · rfl
      · rfl

theorem links_append (grouping : Grouping) (op : Operator) (expr : Expr) :
    (grouping.append op expr).links = grouping.links ++ [(op, expr)] := by
  induction grouping with
  | operand first => rfl
  | apply outer lhs rhs _ ih =>
      rw [append]
      split
      · rw [links, links, first_append, ih, List.append_assoc, List.cons_append]
      · rfl

end Grouping

end Stencil
