import Stencil.Proofs.ExprReader
import Stencil.Proofs.PrimaryReader

/-!
# Reading chains of operators back

An expression in its source form is read as a flat chain: the operands that stand in parentheses
are closed, the others are taken apart.  This module says which chain that is, that grouping it
gives the expression back, and how the readers go through the text of a chain, link by link.
-/

namespace Stencil

/-!
## The chain of an expression
-/

/-- The tree of the operators that the source form does not close off in parentheses. -/
def Expr.chain : Expr → Grouping
  | .binary op lhs rhs _ =>
      .apply op (if lhs.bindsBelow op.precedence then .operand lhs else lhs.chain)
        (if rhs.bindsBelow (op.precedence + 1) then .operand rhs else rhs.chain)
  | e => .operand e

namespace Expr

theorem chain_of_not_binary {e : Expr} (h : e.isBinary = false) : e.chain = .operand e := by
  cases e with
  | binary op lhs rhs location => cases h
  | _ => rfl

theorem bindsAtLeast_chain {e : Expr} {level : Nat} (h : e.bindsBelow level = false) :
    e.chain.BindsAtLeast level := by
  cases e with
  | binary op lhs rhs location => exact Nat.not_lt.mp (of_decide_eq_false h)
  | _ => exact trivial

theorem wellGrouped_chain : ∀ e : Expr, e.chain.WellGrouped
  | .binary op lhs rhs _ => by
      rw [chain]
      refine ⟨?_, ?_, ?_, ?_⟩
      · split
        · exact trivial
        · next h => exact bindsAtLeast_chain (Bool.eq_false_iff.mpr h)
      · split
        · exact trivial
        · next h => exact bindsAtLeast_chain (Bool.eq_false_iff.mpr h)
      · split
        · exact trivial
        · exact wellGrouped_chain lhs
      · split
        · exact trivial
        · exact wellGrouped_chain rhs
  | .literal _ _ => trivial
  | .reference _ _ => trivial
  | .not _ _ => trivial
  | .list _ _ => trivial
  | .range _ _ _ => trivial

theorem toExpr_chain (location : Location) : ∀ e : Expr,
    (e.chain.map (relocate fun _ => location)).toExpr = e.relocate fun _ => location
  | .binary op lhs rhs _ => by
      have hl : ((if lhs.bindsBelow op.precedence then .operand lhs
          else lhs.chain : Grouping).map (relocate fun _ => location)).toExpr
            = lhs.relocate fun _ => location := by
        split
        · rfl
        · exact toExpr_chain location lhs
      have hr : ((if rhs.bindsBelow (op.precedence + 1) then .operand rhs
          else rhs.chain : Grouping).map (relocate fun _ => location)).toExpr
            = rhs.relocate fun _ => location := by
        split
        · rfl
        · exact toExpr_chain location rhs
      rw [chain, Grouping.map, Grouping.toExpr, hl, hr, Expr.apply, location_relocate, relocate]
  | .literal _ _ => rfl
  | .reference _ _ => rfl
  | .not _ _ => rfl
  | .list _ _ => rfl
  | .range _ _ _ => rfl

def SameLinks (resource : String) (links found : List (Operator × Expr)) : Prop :=
  found.map (fun link => (link.1, link.2.relocate Location.lineless))
    = links.map fun link => (link.1, link.2.relocate fun _ => ⟨resource, 0⟩)

/-- Grouping what was read of a chain gives the expression back. -/
theorem sameUpToLines_ofChain {resource : String} {e first : Expr}
    {links : List (Operator × Expr)} (hfirst : e.chain.first.SameUpToLines resource first)
    (hlinks : SameLinks resource e.chain.links links) :
    e.SameUpToLines resource (Grouping.ofChain first links).toExpr := by
  have hsame : (Grouping.ofChain first links).map (relocate Location.lineless)
      = e.chain.map (relocate fun _ => ⟨resource, 0⟩) := by
    calc (Grouping.ofChain first links).map (relocate Location.lineless)
        = Grouping.ofChain (e.chain.first.relocate fun _ => ⟨resource, 0⟩)
            (e.chain.links.map fun link => (link.1, link.2.relocate fun _ => ⟨resource, 0⟩)) := by
          rw [Grouping.map_ofChain, hfirst, hlinks]
      _ = (Grouping.ofChain e.chain.first e.chain.links).map
            (relocate fun _ => ⟨resource, 0⟩) := (Grouping.map_ofChain _ _ _).symm
      _ = e.chain.map (relocate fun _ => ⟨resource, 0⟩) := by
          rw [Grouping.ofChain_links (wellGrouped_chain e)]
  rw [SameUpToLines, Grouping.relocate_toExpr, hsame, toExpr_chain]

/-!
## Reading through a chain

The rest of a chain is described by what the readers of links give on it.  An operand is read in
front of blanks and of a character that is not one.
-/

open Attempt

def ReadsUnary (e : Expr) (text : List Char) : Prop :=
  ∀ (r : String) (gap rest : List Char), (∀ c ∈ gap, Text.isBlank c = true) ->
    (∀ c ∈ rest.head?, Text.isBlank c = false) -> Boundary (gap ++ rest) ->
    ∀ l, (readUnary ⟨r, text ++ (gap ++ rest), l⟩).Gives r rest (e.SameUpToLines r)

/-- The text is read as the chain of a grouping, whatever links follow. -/
def ReadsChain (grouping : Grouping) (text : List Char) : Prop :=
  ∀ (r : String) (gap rest tail : List Char) (more : List (Operator × Expr)),
    (∀ c ∈ gap, Text.isBlank c = true) -> (∀ c ∈ rest.head?, Text.isBlank c = false) ->
    Boundary (gap ++ rest) ->
    (∀ l, (readLinksHere ⟨r, rest, l⟩).Gives r tail (SameLinks r more)) ->
    ∃ mid, (∀ l, (readUnary ⟨r, text ++ (gap ++ rest), l⟩).Gives r mid
        (grouping.first.SameUpToLines r))
      ∧ ∀ l, (readLinks ⟨r, mid, l⟩).Gives r tail (SameLinks r (grouping.links ++ more))

theorem gives_unary_gap {r : String} {gap cs rest : List Char} {P : Expr → Prop}
    (hgap : ∀ c ∈ gap, Text.isBlank c = true)
    (h : ∀ l, (readUnary ⟨r, cs, l⟩).Gives r rest P) (l : Nat) :
    (readUnary ⟨r, gap ++ cs, l⟩).Gives r rest P := by
  refine Gives.of_outcome ?_ (h (l + Cursor.newlines gap))
  rw [readUnary, readUnary, outcome_skipSpace, outcome_skipSpace, outcome_within, outcome_within,
    Cursor.skipSpace_blanks_append r l hgap]

theorem ReadsUnary.chain {e : Expr} {text : List Char} (h : e.ReadsUnary text) :
    ReadsChain (.operand e) text := by
  intro r gap rest tail more hgap hrest hboundary hmore
  refine ⟨rest, h r gap rest hgap hrest hboundary, fun l => ?_⟩
  exact gives_links (List.forall_mem_nil _) hrest hmore

theorem ReadsChain.gives_read {e : Expr} {text gap gap' : List Char} {r : String}
    (h : ReadsChain e.chain text) (hgap : ∀ c ∈ gap, Text.isBlank c = true)
    (hgap' : ∀ c ∈ gap', Text.isBlank c = true) (rest : List Char) (l : Nat) :
    (read ⟨r, gap ++ (text ++ (gap' ++ ')' :: rest)), l⟩).Gives r (')' :: rest)
      (e.SameUpToLines r) := by
  have hclose : Boundary (gap' ++ ')' :: rest) :=
    Boundary.blanks_append hgap' (Boundary.of_head (by decide) (by decide))
  have hhead : ∀ c ∈ (')' :: rest).head?, Text.isBlank c = false :=
    Cursor.forall_head_cons (by decide)
  have hnone : ∀ l, (readLinksHere ⟨r, ')' :: rest, l⟩).Gives r (')' :: rest)
      (SameLinks r []) := by
    intro l
    refine gives_linksHere_close.imp fun found hfound => ?_
    rw [hfound]
    rfl
  rcases h r gap' (')' :: rest) (')' :: rest) [] hgap' hhead hclose hnone
    with ⟨mid, hfirst, hlinks⟩
  refine Expr.gives_read (gives_unary_gap hgap hfirst l) hlinks fun first links hf hl => ?_
  rw [List.append_nil] at hl
  exact sameUpToLines_ofChain hf hl

theorem ReadsChain.group {e : Expr} {text gap gap' : List Char} (h : ReadsChain e.chain text)
    (hgap : ∀ c ∈ gap, Text.isBlank c = true) (hgap' : ∀ c ∈ gap', Text.isBlank c = true) :
    e.ReadsUnary ('(' :: (gap ++ (text ++ (gap' ++ [')'])))) := by
  intro r after rest hafter hrest _ l
  have htext : '(' :: (gap ++ (text ++ (gap' ++ [')']))) ++ (after ++ rest)
      = [] ++ '(' :: (gap ++ (text ++ (gap' ++ ')' :: (after ++ rest)))) := by
    simp
  have hhead : ∀ c ∈ ('(' :: (gap ++ (text ++ (gap' ++ ')' :: (after ++ rest))))).head?,
      Text.isBlank c = false :=
    Cursor.forall_head_cons (by decide)
  have hgroup := gives_unary (r := r) (l := l) (List.forall_mem_nil _) hhead fun l' =>
    gives_unaryHere_group fun l'' => h.gives_read hgap hgap' (after ++ rest) l''
  rw [htext]
  rw [Cursor.dropWhile_append_stop hafter hrest] at hgroup
  exact hgroup

theorem ReadsUnary.negation {e : Expr} {text gap : List Char} (h : e.ReadsUnary text)
    (hgap : ∀ c ∈ gap, Text.isBlank c = true) (location : Location) :
    (Expr.not e location).ReadsUnary ('!' :: (gap ++ text)) := by
  intro r after rest hafter hrest hboundary l
  have htext : '!' :: (gap ++ text) ++ (after ++ rest)
      = [] ++ '!' :: (gap ++ (text ++ (after ++ rest))) := by
    simp
  have hhead : ∀ c ∈ ('!' :: (gap ++ (text ++ (after ++ rest)))).head?,
      Text.isBlank c = false :=
    Cursor.forall_head_cons (by decide)
  have hnot := gives_unary (r := r) (l := l) (P := (Expr.not e location).SameUpToLines r)
    (List.forall_mem_nil _) hhead fun l' =>
      gives_unaryHere_not (gives_unary_gap hgap (h r after rest hafter hrest hboundary))
        fun operand hoperand => by
          rw [SameUpToLines, relocate, relocate, hoperand]
          rfl
  rw [htext]
  rw [Cursor.dropWhile_of_stop hrest] at hnot
  exact hnot

theorem SameLinks.cons {r : String} {op : Operator} {e found : Expr}
    {links others : List (Operator × Expr)} (he : e.SameUpToLines r found)
    (hlinks : SameLinks r links others) :
    SameLinks r ((op, e) :: links) ((op, found) :: others) := by
  rw [SameLinks, List.map_cons, List.map_cons, hlinks, he]

theorem ReadsChain.apply {g₁ g₂ : Grouping} {op : Operator} {t₁ t₂ before after : List Char}
    (h₁ : ReadsChain g₁ t₁) (h₂ : ReadsChain g₂ t₂) (hop : op ≠ .stop)
    (hbefore : ∀ c ∈ before, Text.isBlank c = true) (hbefore' : before ≠ [])
    (hafter : ∀ c ∈ after, Text.isBlank c = true) (hafter' : after ≠ []) :
    ReadsChain (.apply op g₁ g₂) (t₁ ++ (before ++ (op.symbol.toList ++ (after ++ t₂)))) := by
  intro r gap rest tail more hgap hrest hboundary hmore
  rcases h₂ r gap rest tail more hgap hrest hboundary hmore with ⟨mid₂, hfirst₂, hlinks₂⟩
  have hequal : (after ++ (t₂ ++ (gap ++ rest))).head? ≠ some '=' := by
    cases after with
    | nil => exact absurd rfl hafter'
    | cons c others =>
        intro hc
        cases hc
        exact absurd (hafter '=' List.mem_cons_self) (by decide)
  have hsymbol : ∀ c ∈ (op.symbol.toList ++ (after ++ (t₂ ++ (gap ++ rest)))).head?,
      Text.isBlank c = false := by
    cases op with
    | stop => exact absurd rfl hop
    | _ =>
        intro c hc
        cases hc
        decide
  have hmore₁ : ∀ l, (readLinksHere
      ⟨r, op.symbol.toList ++ (after ++ (t₂ ++ (gap ++ rest))), l⟩).Gives r tail
        (SameLinks r ((op, g₂.first) :: (g₂.links ++ more))) := by
    intro l
    exact gives_linksHere_cons hop hequal (gives_unary_gap hafter hfirst₂) hlinks₂
      fun operand links ho hl => SameLinks.cons ho hl
  rcases h₁ r before _ tail _ hbefore hsymbol (Boundary.of_blanks hbefore hbefore') hmore₁
    with ⟨mid₁, hfirst₁, hlinks₁⟩
  refine ⟨mid₁, fun l => ?_, fun l => ?_⟩
  · have htext : t₁ ++ (before ++ (op.symbol.toList ++ (after ++ t₂))) ++ (gap ++ rest)
        = t₁ ++ (before ++ (op.symbol.toList ++ (after ++ (t₂ ++ (gap ++ rest))))) := by
      simp only [List.append_assoc]
    rw [htext]
    exact hfirst₁ l
  · rw [Grouping.links, List.append_assoc, List.cons_append]
    exact hlinks₁ l

end Expr

end Stencil
