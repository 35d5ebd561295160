import Stencil.Expr.Grouping
import Stencil.Expr.Primary

/-!
# Reading expressions

An expression is read as a flat chain of operands and operators and grouped afterwards.  Reading
stops, without complaint, at the first character that starts no operator.
-/

namespace Stencil

/-- Reads the operator in front, if the character there starts one. -/
def Operator.read (c : Cursor) : Attempt (Option (Parsed c.size Operator)) :=
  match c.next? with
  | none => .ok none
  | some p =>
      match longest? p.value p.rest.current with
      | some op =>
          if op.length = 2 then .ok (some (p.advance.map fun _ => op))
          else .ok (some (p.map fun _ => op))
      | none =>
          if startingWith p.value = [] then .ok none
          else .error (p.rest.fail (.unknownOperator p.value))

mutual

def Expr.read (c : Cursor) : Attempt (Parsed c.size Expr) :=
  (Expr.readUnary c).andMaybe fun first c₁ _ =>
    (Expr.readLinks c₁).mapValue fun links => (Grouping.ofChain first links).toExpr
termination_by 3 * c.size + 2

def Expr.readUnary (c : Cursor) : Attempt (Parsed c.size Expr) :=
  ((Expr.readUnaryHere c.skipSpace).within c.size_skipSpace_le).skipSpace
termination_by 3 * c.size + 1
decreasing_by
  have := c.size_skipSpace_le
  omega

def Expr.readUnaryHere (c : Cursor) : Attempt (Parsed c.size Expr) :=
  match c.take? '(' with
  | some ⟨c₁, h₁⟩ =>
      ((Expr.read c₁).andThen fun inner c₂ _ =>
        (c₂.expect ')').mapValue fun _ => inner).after h₁
  | none =>
      match c.take? '!' with
      | some ⟨c₁, h₁⟩ =>
          ((Expr.readUnary c₁).mapValue fun operand => .not operand c.location).after h₁
      | none => Expr.readPrimary false c
termination_by 3 * c.size

def Expr.readLinks (c : Cursor) : Attempt (Parsed (c.size + 1) (List (Operator × Expr))) :=
  (Expr.readLinksHere c.skipSpace).afterSpace
termination_by 3 * c.size + 1
decreasing_by
  have := c.size_skipSpace_le
  omega

def Expr.readLinksHere (c : Cursor) : Attempt (Parsed (c.size + 1) (List (Operator × Expr))) :=
  match Operator.read c with
  | .error e => .error e
  | .ok none => .ok (.here [] c)
  | .ok (some ⟨op, c₁, h₁⟩) =>
      (((Expr.readUnary c₁).andMaybe fun operand c₂ _ =>
        (Expr.readLinks c₂).mapValue fun links => (op, operand) :: links).after h₁).weaken
termination_by 3 * c.size

end

end Stencil
