import Mathlib.Data.List.ReduceOption
import Stencil.Expr.Display
import Stencil.Proofs.Grouping
import Stencil.Text.Blank
import Stencil.Text.Identifier

/-!
# Spelling expressions

How an expression is spelled so that reading gives it back.  The source form is the displayed form
with parentheses around the operands that would otherwise be taken apart.
-/

namespace Stencil

/-!
## Well-formed expressions

Some places only take a primary: a literal, a reference, a list or a range.
-/

namespace Expr

def isBinary : Expr → Bool
  | binary .. => true
  | _ => false

def isPrimary : Expr → Bool
  | binary .. => false
  | not .. => false
  | _ => true

end Expr

mutual

/-- The form of the expressions that a template contains; null stands only among arguments. -/
def Expr.WellFormed (nullAllowed : Bool) : Expr → Prop
  | .literal value _ => value = .null → nullAllowed = true
  | .reference ref _ => ref.WellFormed
  | .binary op lhs rhs _ => op ≠ .stop ∧ lhs.WellFormed false ∧ rhs.WellFormed false
  | .not operand _ => operand.WellFormed false
  | .list items _ => Expr.Primaries false items
  | .range first last _ =>
      (first.isPrimary = true ∧ first.WellFormed false)
        ∧ last.isPrimary = true ∧ last.WellFormed false

def Reference.WellFormed : Reference → Prop
  | .plain name _ _ => Text.IsIdentifier name.toList
  | .member lhs name silent _ =>
      lhs.WellFormed ∧ Text.IsIdentifier name.toList ∧ silent = lhs.silent
  | .method lhs name args silent _ =>
      lhs.WellFormed ∧ Text.IsIdentifier name.toList ∧ silent = lhs.silent
        ∧ Expr.Primaries true args
  | .index lhs index silent _ =>
      lhs.WellFormed ∧ silent = lhs.silent ∧ index.isPrimary = true ∧ index.WellFormed false

def Expr.Primaries (nullAllowed : Bool) : List Expr → Prop
  | [] => True
  | e :: rest =>
      (e.isPrimary = true ∧ e.WellFormed nullAllowed) ∧ Expr.Primaries nullAllowed rest

end

/-!
## Forgetting lines
-/

mutual

def Expr.relocate (f : Location → Location) : Expr → Expr
  | .literal value location => .literal value (f location)
  | .reference ref location => .reference (ref.relocate f) (f location)
  | .binary op lhs rhs location => .binary op (lhs.relocate f) (rhs.relocate f) (f location)
  | .not operand location => .not (operand.relocate f) (f location)
  | .list items location => .list (Expr.relocateAll f items) (f location)
  | .range first last location => .range (first.relocate f) (last.relocate f) (f location)

def Reference.relocate (f : Location → Location) : Reference → Reference
  | .plain name silent location => .plain name silent (f location)
  | .member lhs name silent location => .member (lhs.relocate f) name silent (f location)
  | .method lhs name args silent location =>
      .method (lhs.relocate f) name (Expr.relocateAll f args) silent (f location)
  | .index lhs index silent location =>
      .index (lhs.relocate f) (index.relocate f) silent (f location)

def Expr.relocateAll (f : Location → Location) : List Expr → List Expr
  | [] => []
  | e :: rest => e.relocate f :: Expr.relocateAll f rest

end

def Location.lineless (location : Location) : Location :=
  ⟨location.resource, 0⟩

/-- The expression `found` is `e`, read from `resource`, whatever the lines are. -/
def Expr.SameUpToLines (resource : String) (e found : Expr) : Prop :=
  found.relocate Location.lineless = e.relocate fun _ => ⟨resource, 0⟩

theorem Expr.location_relocate (f : Location → Location) (e : Expr) :
    (e.relocate f).location = f e.location := by
  cases e <;> rw [Expr.relocate] <;> rfl

theorem Reference.location_relocate (f : Location → Location) (ref : Reference) :
    (ref.relocate f).location = f ref.location := by
  cases ref <;> rw [Reference.relocate] <;> rfl

theorem Reference.silent_relocate (f : Location → Location) (ref : Reference) :
    (ref.relocate f).silent = ref.silent := by
  cases ref <;> rw [Reference.relocate] <;> rfl

theorem Grouping.relocate_toExpr (f : Location → Location) (grouping : Grouping) :
    grouping.toExpr.relocate f = (grouping.map (Expr.relocate f)).toExpr := by
  induction grouping with
  | operand expr => rfl
  | apply op lhs rhs ihl ihr =>
      rw [toExpr, map, toExpr, Expr.apply, Expr.relocate, ihl, ihr, Expr.apply, ← ihl,
        Expr.location_relocate]

/-!
## Source forms

An operand of an operator is put in parentheses when it is itself an application of an operator
that binds more weakly than its place asks for.
-/

def Expr.bindsBelow (level : Nat) : Expr → Bool
  | .binary op .. => op.precedence < level
  | _ => false

def Text.parenthesize (needed : Bool) (s : String) : String :=
  if needed then "(" ++ s ++ ")" else s

mutual

def Expr.source : Expr → String
  | .literal value _ => value.text
  | .reference ref _ => ref.source
  | .binary op lhs rhs _ =>
      Text.parenthesize (lhs.bindsBelow op.precedence) lhs.source ++ " " ++ op.symbol ++ " "
        ++ Text.parenthesize (rhs.bindsBelow (op.precedence + 1)) rhs.source
  | .not operand _ => "!" ++ Text.parenthesize operand.isBinary operand.source
  | .list items _ => "[" ++ ", ".intercalate (Expr.sources items) ++ "]"
  | .range first last _ => "[" ++ first.source ++ ".." ++ last.source ++ "]"

def Reference.source : Reference → String
  | .plain name silent _ => (if silent then "$!" else "$") ++ name
  | .member lhs name _ _ => lhs.source ++ "." ++ name
  | .method lhs name args _ _ =>
      lhs.source ++ "." ++ name ++ "(" ++ ", ".intercalate (Expr.sources args) ++ ")"
  | .index lhs index _ _ => lhs.source ++ "[" ++ index.source ++ "]"

def Expr.sources : List Expr → List String
  | [] => []
  | e :: rest => e.source :: Expr.sources rest

end

mutual

/-- No operand, at any depth, needs parentheses. -/
def Expr.Unambiguous : Expr → Prop
  | .literal _ _ => True
  | .reference ref _ => ref.Unambiguous
  | .binary op lhs rhs _ =>
      (lhs.bindsBelow op.precedence = false ∧ rhs.bindsBelow (op.precedence + 1) = false)
        ∧ lhs.Unambiguous ∧ rhs.Unambiguous
  | .not operand _ => operand.isBinary = false ∧ operand.Unambiguous
  | .list items _ => Expr.AllUnambiguous items
  | .range first last _ => first.Unambiguous ∧ last.Unambiguous

def Reference.Unambiguous : Reference → Prop
  | .plain _ _ _ => True
  | .member lhs _ _ _ => lhs.Unambiguous
  | .method lhs _ args _ _ => lhs.Unambiguous ∧ Expr.AllUnambiguous args
  | .index lhs index _ _ => lhs.Unambiguous ∧ index.Unambiguous

def Expr.AllUnambiguous : List Expr → Prop
  | [] => True
  | e :: rest => e.Unambiguous ∧ Expr.AllUnambiguous rest

end

mutual

theorem Expr.source_eq_text : ∀ e : Expr, e.Unambiguous → e.source = e.text
  | .literal value _, _ => by rw [Expr.source, Expr.text]
  | .reference ref _, h => by
      rw [Expr.source, Expr.text, Reference.source_eq_text ref h]
  | .binary op lhs rhs _, h => by
      rcases h with ⟨⟨hl, hr⟩, hlhs, hrhs⟩
      rw [Expr.source, Expr.text, hl, hr, Expr.source_eq_text lhs hlhs,
        Expr.source_eq_text rhs hrhs]
      rfl
  | .not operand _, h => by
      rw [Expr.source, Expr.text, h.1, Expr.source_eq_text operand h.2]
      rfl
  | .list items _, h => by
      rw [Expr.source, Expr.text, Expr.sources_eq_texts items h]
  | .range first last _, h => by
      rw [Expr.source, Expr.text, Expr.source_eq_text first h.1, Expr.source_eq_text last h.2]

theorem Reference.source_eq_text : ∀ ref : Reference, ref.Unambiguous → ref.source = ref.text
  | .plain name silent _, _ => by rw [Reference.source, Reference.text]
  | .member lhs name _ _, h => by
      rw [Reference.source, Reference.text, Reference.source_eq_text lhs h]
  | .method lhs name args _ _, h => by
      rw [Reference.source, Reference.text, Reference.source_eq_text lhs h.1,
        Expr.sources_eq_texts args h.2]
  | .index lhs index _ _, h => by
      rw [Reference.source, Reference.text, Reference.source_eq_text lhs h.1,
        Expr.source_eq_text index h.2]

theorem Expr.sources_eq_texts : ∀ es : List Expr, Expr.AllUnambiguous es →
    Expr.sources es = Expr.texts es
  | [], _ => by rw [Expr.sources, Expr.texts]
  | e :: rest, h => by
      rw [Expr.sources, Expr.texts, Expr.source_eq_text e h.1, Expr.sources_eq_texts rest h.2]

end

end Stencil
