import Stencil.Proofs.ScanChain

/-!
# What a climb takes from the text

Whatever it starts from and however much fuel it has, a climb that ends has taken operands and
operators from the text in turn, and its tree is the grouping of just these: none is lost and their
order is that of the text.  The main statement follows an expression from its first operand to the
sentinel that ends it, and says that its tree is the only well-grouped one over what was taken.
-/

namespace Stencil

namespace Scan

variable {s s' s₁ s₂ : Scanner} {fuel : Nat}

/-!
## Taking operands and operators in turn
-/

/-- Behind the operator `op` an operand is scanned and an operator behind it, as often as there are
links, each of which is an operator with the operand behind it.  The operator `last` is then
pending. -/
inductive Takes : Operator → Scanner → List (Operator × Expr) → Operator → Scanner → Prop
  | done (op : Operator) (s : Scanner) : Takes op s [] op s
  | link {op next last : Operator} {s s₁ s₂ s' : Scanner} {operand : Expr}
      {links : List (Operator × Expr)} (fuel : Nat) (hunary : unary fuel s = .ok (operand, s₁))
      (hnext : nextOperator fuel s₁ = .ok (next, s₂)) (hrest : Takes next s₂ links last s') :
      Takes op s ((op, operand) :: links) last s'

theorem Takes.append {op next last : Operator} {links others : List (Operator × Expr)}
    (hfront : Takes op s links next s₁) (hback : Takes next s₁ others last s') :
    Takes op s (links ++ others) last s' := by
  induction hfront with
  | done op s => exact hback
  | link fuel hunary hnext _ ih => exact .link fuel hunary hnext (ih hback)

/-- The links have been taken from the text and appended to a grouping.  All of them are of a level
or above, and the operator that is pending is not. -/
structure Climbed (g : Grouping) (op : Operator) (s : Scanner) (level : Nat)
    (links : List (Operator × Expr)) (result : (Expr × Operator) × Scanner) : Prop where
  tree : result.1.1 = (g.appendAll links).toExpr
  taken : Takes op s links result.1.2 result.2
  level_le : ∀ link ∈ links, level ≤ link.1.precedence
  pending_lt : result.1.2.precedence < level
  binds : (g.appendAll links).BindsAtLeast result.1.2.precedence

namespace Climbed

variable {level : Nat} {g : Grouping} {op next : Operator} {links others : List (Operator × Expr)}
  {result : (Expr × Operator) × Scanner}

theorem here (hbinds : g.BindsAtLeast op.precedence) (hlevel : op.precedence < level) :
    Climbed g op s level [] ((g.toExpr, op), s) := by
  constructor
  · rfl
  · exact .done op s
  · exact List.forall_mem_nil _
  · exact hlevel
  · exact hbinds

theorem prepend (htaken : Takes op s links next s₁)
    (hlevel : ∀ link ∈ links, level ≤ link.1.precedence)
    (h : Climbed (g.appendAll links) next s₁ level others result) :
    Climbed g op s level (links ++ others) result := by
  constructor
  · rw [Grouping.appendAll_append]
    exact h.tree
  · exact htaken.append h.taken
  · exact List.forall_mem_append.mpr ⟨hlevel, h.level_le⟩
  · exact h.pending_lt
  · rw [Grouping.appendAll_append]
    exact h.binds

/-- The operator of a link and the operand behind it become the root and the right operand, which
has been extended by what binds more tightly. -/
theorem appendAll_cons {operand : Expr} (hbinds : g.BindsAtLeast op.precedence)
    (h : Climbed (.operand operand) next s (op.precedence + 1) links result) :
    g.appendAll ((op, operand) :: links)
      = .apply op g ((Grouping.operand operand).appendAll links) := by
  change (g.append op operand).appendAll links = _
  rw [Grouping.append_of_bindsAtLeast hbinds, Grouping.appendAll_apply h.level_le]

end Climbed

/-!
## Climbing

The two loops call each other; the fuel goes down with every turn.  What both keep is that the tree
binds at least as tightly as the operator that is pending, so that the next link is applied to the
whole of it.
-/

mutual

theorem climbed_climb {level : Nat} {g : Grouping} {op : Operator}
    (hbinds : g.BindsAtLeast op.precedence) :
    ∀ {fuel : Nat} {s : Scanner} {result : (Expr × Operator) × Scanner},
      climb op g.toExpr level fuel s = .ok result -> ∃ links, Climbed g op s level links result
  | 0, _, _, hrun => nomatch hrun
  | fuel + 1, s, result, hrun => by
      rw [climb] at hrun
      by_cases hlevel : level ≤ op.precedence
      · rw [if_pos hlevel] at hrun
        rcases exists_of_bind_eq_ok hrun with ⟨operand, s₁, hunary, hrun⟩
        rcases exists_of_bind_eq_ok hrun with ⟨next, s₂, hnext, hrun⟩
        rcases exists_of_bind_eq_ok hrun with ⟨rhs, s₃, htighten, hrun⟩
        have hoperand : (Grouping.operand operand).BindsAtLeast next.precedence := trivial
        rcases climbed_tighten hoperand htighten with ⟨links, hright⟩
        have hwhole : g.appendAll ((op, operand) :: links)
            = .apply op g ((Grouping.operand operand).appendAll links) :=
          hright.appendAll_cons hbinds
        have htree : (g.appendAll ((op, operand) :: links)).toExpr = .apply op g.toExpr rhs.1 := by
          rw [hwhole, hright.tree]
          rfl
        have hroot : (g.appendAll ((op, operand) :: links)).BindsAtLeast rhs.2.precedence := by
          rw [hwhole]
          exact Nat.le_of_lt_succ hright.pending_lt
        have hfront : Takes op s ((op, operand) :: links) rhs.2 s₃ :=
          .link fuel hunary hnext hright.taken
        have habove : ∀ link ∈ (op, operand) :: links, level ≤ link.1.precedence := by
          intro link hlink
          rcases List.mem_cons.mp hlink with hhere | hlink
          · rw [hhere]
            exact hlevel
          · have := hright.level_le link hlink
            omega
        rw [← htree] at hrun
        rcases climbed_climb hroot hrun with ⟨others, hrest⟩
        exact ⟨(op, operand) :: links ++ others, hrest.prepend hfront habove⟩
      · rw [if_neg hlevel] at hrun
        cases hrun
        exact ⟨[], Climbed.here hbinds (Nat.not_le.mp hlevel)⟩

theorem climbed_tighten {g : Grouping} {op next : Operator}
    (hbinds : g.BindsAtLeast next.precedence) :
    ∀ {fuel : Nat} {s : Scanner} {result : (Expr × Operator) × Scanner},
      tighten op g.toExpr next fuel s = .ok result ->
      ∃ links, Climbed g next s (op.precedence + 1) links result
  | 0, _, _, hrun => nomatch hrun
  | fuel + 1, s, result, hrun => by
      rw [tighten] at hrun
      by_cases htighter : op.precedence < next.precedence
      · rw [if_pos htighter] at hrun
        rcases exists_of_bind_eq_ok hrun with ⟨longer, s₁, hclimb, hrun⟩
        rcases climbed_climb hbinds hclimb with ⟨links, hfront⟩
        have habove : ∀ link ∈ links, op.precedence + 1 ≤ link.1.precedence := by
          intro link hlink
          have := hfront.level_le link hlink
          omega
        rw [hfront.tree] at hrun
        rcases climbed_tighten hfront.binds hrun with ⟨others, hrest⟩
        exact ⟨links ++ others, hrest.prepend hfront.taken habove⟩
      · rw [if_neg htighter] at hrun
        cases hrun
        exact ⟨[], Climbed.here hbinds (by omega)⟩

end

/-!
## Expressions
-/

structure Groups (first : Expr) (links : List (Operator × Expr)) (tree : Grouping) : Prop where
  first_eq : tree.first = first
  links_eq : tree.links = links
  wellGrouped : tree.WellGrouped

theorem groups_ofChain (first : Expr) (links : List (Operator × Expr)) :
    Groups first links (Grouping.ofChain first links) := by
  rcases Grouping.links_ofChain first links with ⟨hfirst, hlinks⟩
  have hoperand : (Grouping.operand first).WellGrouped := trivial
  constructor
  · exact hfirst
  · exact hlinks
  · exact Grouping.wellGrouped_appendAll hoperand links

theorem Groups.eq_ofChain {first : Expr} {links : List (Operator × Expr)} {tree : Grouping}
    (h : Groups first links tree) : tree = Grouping.ofChain first links := by
  rw [← Grouping.ofChain_links h.wellGrouped, h.first_eq, h.links_eq]

theorem outcome_read_of_expression {e : Expr} (ready : s.Ready)
    (hfuel : 4 * s.cursor.size + 6 < fuel) (hrun : expression fuel s = .ok (e, s')) :
    (Expr.read s.cursor).outcome = .ok (e, s'.cursor) := by
  have hagrees := agrees_expression fuel s ready hfuel
  rw [Agrees] at hagrees
  cases hread : (Expr.read s.cursor).outcome with
  | error halt =>
      rw [hread, hrun] at hagrees
      cases hagrees
  | ok found =>
      rw [hread] at hagrees
      rcases hagrees with ⟨s₁, hsame, hcursor, _⟩
      rw [hrun] at hsame
      cases hsame
      rw [hcursor]

/-- The tree of an expression is the only well-grouped one whose operands and operators are, in
order, those that its climb has taken.  The climb ends at the sentinel, so that no operator is left
over.  If there is enough fuel, the tree is what the reader of expressions gives. -/
theorem expression_grouping {e : Expr} (hrun : expression fuel s = .ok (e, s')) :
    (∃ calls first op s₁ s₂ links,
      unary calls s = .ok (first, s₁) ∧ nextOperator calls s₁ = .ok (op, s₂) ∧
        climb op first 1 calls s₂ = .ok ((e, .stop), s') ∧ Takes op s₂ links .stop s' ∧
        (∀ link ∈ links, link.1 ≠ .stop) ∧
        ∃ tree : Grouping, tree.toExpr = e ∧ Groups first links tree ∧
          ∀ other : Grouping, Groups first links other -> other = tree) ∧
      (s.Ready -> 4 * s.cursor.size + 6 < fuel ->
        (Expr.read s.cursor).outcome = .ok (e, s'.cursor)) := by
  constructor
  · cases fuel with
    | zero => cases hrun
    | succ calls =>
        rw [expression] at hrun
        rcases exists_of_bind_eq_ok hrun with ⟨first, s₁, hunary, hrun⟩
        rcases exists_of_bind_eq_ok hrun with ⟨op, s₂, hnext, hrun⟩
        rcases exists_of_bind_eq_ok hrun with ⟨⟨tree, last⟩, s₃, hclimb, hrun⟩
        cases hrun
        have hoperand : (Grouping.operand first).BindsAtLeast op.precedence := trivial
        rcases climbed_climb hoperand hclimb with ⟨links, h⟩
        have hlast : last = .stop := by
          have hlt : last.precedence < 1 := h.pending_lt
          by_contra hne
          have := Operator.precedence_pos_iff.mpr hne
          omega
        subst hlast
        have hreal : ∀ link ∈ links, link.1 ≠ .stop := by
          intro link hlink
          exact Operator.precedence_pos_iff.mp (h.level_le link hlink)
        exact ⟨calls, first, op, s₁, s₂, links, hunary, hnext, hclimb, h.taken, hreal,
          Grouping.ofChain first links, h.tree.symm, groups_ofChain first links,
          fun _ hother => hother.eq_ofChain⟩
  · intro ready hfuel
    exact outcome_read_of_expression ready hfuel hrun

/-- Within the right operand of `||` the precedence goes down twice.  Written with as few
parentheses as possible, the tree has none. -/
theorem expression_grouping_descent :
    let behind : Scanner := ⟨"t", none, none, [], 1⟩
    ∃ e first op s links tree,
      expression 60 (.ofText "t" "$a || 1 * 2 + 3 == 4") = .ok (e, behind) ∧
        e.source = "$a || 1 * 2 + 3 == 4" ∧ Takes op s links .stop behind ∧
        Groups first links tree ∧ tree.toExpr = e := by
  intro behind
  have hsource : ((expression 60 (.ofText "t" "$a || 1 * 2 + 3 == 4")).map fun result =>
      (result.1.source, result.2)).toOption = some ("$a || 1 * 2 + 3 == 4", behind) := by
    decide +kernel
  cases hrun : expression 60 (.ofText "t" "$a || 1 * 2 + 3 == 4") with
  | error halt =>
      rw [hrun] at hsource
      cases hsource
  | ok result =>
      rcases result with ⟨e, s'⟩
      rw [hrun] at hsource
      have hresult := Option.some.inj hsource
      have hbehind : s' = behind := congrArg Prod.snd hresult
      subst hbehind
      rcases expression_grouping hrun with
        ⟨⟨_, first, op, _, s, links, _, _, _, htaken, _, tree, htree, hgroups, _⟩, _⟩
      exact ⟨e, first, op, s, links, tree, rfl, congrArg Prod.fst hresult, htaken, hgroups, htree⟩

end Scan

end Stencil
