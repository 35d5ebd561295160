import Stencil.Expr.Grouping

/-!
# Well-grouped trees

A grouping is well grouped when a left operand binds at least as tightly as the operator above it
and a right operand binds more tightly.  The chain of such a tree determines it: grouping the chain
again gives the tree back.
-/

namespace Stencil
namespace Grouping

def BindsAtLeast (level : Nat) : Grouping → Prop
  | operand _ => True
  | apply op _ _ => level ≤ op.precedence

def WellGrouped : Grouping → Prop
  | operand _ => True
  | apply op lhs rhs =>
      lhs.BindsAtLeast op.precedence ∧ rhs.BindsAtLeast (op.precedence + 1)
        ∧ lhs.WellGrouped ∧ rhs.WellGrouped

def appendAll (grouping : Grouping) (links : List (Operator × Expr)) : Grouping :=
  links.foldl (fun grouping link => grouping.append link.1 link.2) grouping

theorem appendAll_append (grouping : Grouping) (front back : List (Operator × Expr)) :
    grouping.appendAll (front ++ back) = (grouping.appendAll front).appendAll back :=
  List.foldl_append

/-!
## Grouping a chain again
-/

theorem bindsAtLeast_links {grouping : Grouping} {level : Nat} (hwell : grouping.WellGrouped)
    (hlevel : grouping.BindsAtLeast level) :
    ∀ link ∈ grouping.links, level ≤ link.1.precedence := by
  induction grouping generalizing level with
  | operand expr =>
      intro link hlink
      cases hlink
  | apply op lhs rhs ihl ihr =>
      rcases hwell with ⟨hl, hr, hlwell, hrwell⟩
      have hop : level ≤ op.precedence := hlevel
      intro link hlink
      rcases List.mem_append.mp hlink with hleft | hright
      · exact Nat.le_trans hop (ihl hlwell hl link hleft)
      · rcases List.mem_cons.mp hright with hhere | hright
        · rw [hhere]
          exact hop
        · have hlink := ihr hrwell hr link hright
          omega

theorem append_of_bindsAtLeast {grouping : Grouping} {op : Operator}
    (h : grouping.BindsAtLeast op.precedence) (expr : Expr) :
    grouping.append op expr = apply op grouping (operand expr) := by
  cases grouping with
  | operand first => rfl
  | apply outer lhs rhs =>
      rw [append, if_neg (Nat.not_lt.mpr h)]

theorem appendAll_apply {op : Operator} {links : List (Operator × Expr)}
    (h : ∀ link ∈ links, op.precedence < link.1.precedence) (lhs rhs : Grouping) :
    (apply op lhs rhs).appendAll links = apply op lhs (rhs.appendAll links) := by
  induction links generalizing rhs with
  | nil => rfl
  | cons link rest ih =>
      have hfirst : (apply op lhs rhs).append link.1 link.2
          = apply op lhs (rhs.append link.1 link.2) := by
        rw [append, if_pos (h link List.mem_cons_self)]
      calc (apply op lhs rhs).appendAll (link :: rest)
          = ((apply op lhs rhs).append link.1 link.2).appendAll rest := rfl
        _ = (apply op lhs (rhs.append link.1 link.2)).appendAll rest := by rw [hfirst]
        _ = apply op lhs (rhs.appendAll (link :: rest)) :=
            ih (fun other hother => h other (List.mem_cons_of_mem _ hother)) _

theorem ofChain_links {grouping : Grouping} (h : grouping.WellGrouped) :
    ofChain grouping.first grouping.links = grouping := by
  change (operand grouping.first).appendAll grouping.links = grouping
  induction grouping with
  | operand expr => rfl
  | apply op lhs rhs ihl ihr =>
      rcases h with ⟨hl, hr, hlwell, hrwell⟩
      have hlinks : ∀ link ∈ rhs.links, op.precedence < link.1.precedence :=
        bindsAtLeast_links hrwell hr
      rw [links, first, appendAll_append, ihl hlwell]
      change (lhs.append op rhs.first).appendAll rhs.links = apply op lhs rhs
      rw [append_of_bindsAtLeast hl, appendAll_apply hlinks, ihr hrwell]

/-!
## Grouping a chain
-/

theorem bindsAtLeast_append {grouping : Grouping} {level : Nat} {op : Operator}
    (h : grouping.BindsAtLeast level) (hop : level ≤ op.precedence) (expr : Expr) :
    (grouping.append op expr).BindsAtLeast level := by
  cases grouping with
  | operand first => exact hop
  | apply outer lhs rhs =>
      rw [append]
      split
      · exact h
      · exact hop

theorem wellGrouped_append {grouping : Grouping} (h : grouping.WellGrouped) (op : Operator)
    (expr : Expr) : (grouping.append op expr).WellGrouped := by
  induction grouping with
  | operand first => exact ⟨trivial, trivial, trivial, trivial⟩
  | apply outer lhs rhs _ ih =>
      rcases h with ⟨hl, hr, hlwell, hrwell⟩
      rw [append]
      split
      · next htighter => exact ⟨hl, bindsAtLeast_append hr htighter expr, hlwell, ih hrwell⟩
      · next hweaker =>
          have hwell : (apply outer lhs rhs).WellGrouped := ⟨hl, hr, hlwell, hrwell⟩
          exact ⟨Nat.not_lt.mp hweaker, trivial, hwell, trivial⟩

theorem wellGrouped_appendAll {grouping : Grouping} (h : grouping.WellGrouped)
    (links : List (Operator × Expr)) : (grouping.appendAll links).WellGrouped := by
  induction links generalizing grouping with
  | nil => exact h
  | cons link rest ih => exact ih (wellGrouped_append h link.1 link.2)

/-!
## Changing the operands
-/

def map (f : Expr → Expr) : Grouping → Grouping
  | operand expr => operand (f expr)
  | apply op lhs rhs => apply op (lhs.map f) (rhs.map f)

theorem map_append (f : Expr → Expr) (grouping : Grouping) (op : Operator) (expr : Expr) :
    (grouping.append op expr).map f = (grouping.map f).append op (f expr) := by
  induction grouping with
  | operand first => rfl
  | apply outer lhs rhs ihl ihr =>
      rw [append, map, append]
      split
      · rw [map, ihr]
      · rfl

theorem map_ofChain (f : Expr → Expr) (first : Expr) (links : List (Operator × Expr)) :
    (ofChain first links).map f
      = ofChain (f first) (links.map fun link => (link.1, f link.2)) := by
  have hgeneral : ∀ grouping : Grouping, (grouping.appendAll links).map f
      = (grouping.map f).appendAll (links.map fun link => (link.1, f link.2)) := by
    induction links with
    | nil =>
        intro grouping
        rfl
    | cons link rest ih =>
        intro grouping
        refine (ih (grouping.append link.1 link.2)).trans ?_
        rw [map_append]
        rfl
  exact hgeneral (operand first)

end Grouping
end Stencil
