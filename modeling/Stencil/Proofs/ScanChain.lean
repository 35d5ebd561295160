import Stencil.Proofs.ExprForms
import Stencil.Proofs.Grouping
import Stencil.Proofs.ScanOperand

/-!
# Scanning chains of operators

The parser groups a chain while it scans it.  It climbs: behind an operator it scans the operand and
the next operator, and as long as that one binds more tightly the operand is extended before the
operator is applied to it.  The reader of an expression collects the whole chain first.  Both come
to the same tree, and a climb that goes on at all takes at least one operand from the text.
-/

namespace Stencil

namespace Scan

/-!
## The scans
-/

/-- The last operator in a list that fits.  One of two characters overrides the shorter one that it
begins with, which comes before it. -/
def matchOperator (found : Option Operator) : List Operator → Scan (Option Operator)
  | [] => return found
  | op :: others => do
      if op.length = 1 then
        matchOperator (some op) others
      else if op.second? = (← current) then
        advance
        matchOperator (some op) others
      else
        matchOperator found others

def operatorHere : Scan Operator := do
  match ← current with
  | none => return .stop
  | some x =>
      if Operator.startingWith x = [] then
        return .stop
      else
        advance
        match ← matchOperator none (Operator.startingWith x) with
        | some op => return op
        | none => fail (.unknownOperator x)

def nextOperator (fuel : Nat) : Scan Operator := do
  skipSpace fuel
  operatorHere

mutual

def expression : Nat → Scan Expr
  | 0 => exhaust
  | fuel + 1 => do
      let lhs ← unary fuel
      let op ← nextOperator fuel
      let result ← climb op lhs 1 fuel
      return result.1

/-- Applies the operators of a level or above to `lhs`, `op` being the first of them.  The operator
that comes behind them has then been scanned, too. -/
def climb (op : Operator) (lhs : Expr) (level : Nat) : Nat → Scan (Expr × Operator)
  | 0 => exhaust
  | fuel + 1 => do
      if level ≤ op.precedence then
        let operand ← unary fuel
        let next ← nextOperator fuel
        let rhs ← tighten op operand next fuel
        climb rhs.2 (.apply op lhs rhs.1) level fuel
      else
        return (lhs, op)

/-- Extends the right operand of `op` as long as the operators behind it bind more tightly. -/
def tighten (op : Operator) (rhs : Expr) (next : Operator) : Nat → Scan (Expr × Operator)
  | 0 => exhaust
  | fuel + 1 => do
      if op.precedence < next.precedence then
        let longer ← climb next rhs next.precedence fuel
        tighten op longer.1 longer.2 fuel
      else
        return (rhs, next)

def unary : Nat → Scan Expr
  | 0 => exhaust
  | fuel + 1 => do
      skipSpace fuel
      if ← take '(' then
        skipSpace fuel
        let inner ← expression fuel
        expect ')' fuel
        skipSpace fuel
        return inner
      else
        let location ← location
        if ← take '!' then
          let operand ← unary fuel
          skipSpace fuel
          return .not operand location
        else
          primary false fuel

end

end Scan

/-!
## Operators
-/

namespace Operator

/-- At most two operators begin with the same character, the shorter of which comes first. -/
theorem startingWith_cases (x : Char) : ∃ short long : Option Operator,
    startingWith x = short.toList ++ long.toList ∧ (∀ op ∈ short, op.length = 1) ∧
      ∀ op ∈ long, op.length = 2 := by
  have hfirst : all.filterMap first?
      = ['|', '&', '=', '!', '<', '<', '>', '>', '+', '-', '*', '/', '%'] := rfl
  by_cases hx : x ∈ all.filterMap first?
  · refine ⟨all.find? fun op => op.first? = some x ∧ op.length = 1,
      all.find? fun op => op.first? = some x ∧ op.length = 2, ?_⟩
    simp only [hfirst, List.mem_cons, List.not_mem_nil, or_false] at hx
    rcases hx with rfl | rfl | rfl | rfl | rfl | rfl | rfl | rfl | rfl | rfl | rfl | rfl | rfl <;>
      decide
  · refine ⟨none, none, List.filter_eq_nil_iff.mpr fun op hop hbegins => ?_, nofun, nofun⟩
    exact hx (List.mem_filterMap.mpr ⟨op, hop, of_decide_eq_true hbegins⟩)

theorem longest?_eq {x : Char} {short long : Option Operator}
    (hstart : startingWith x = short.toList ++ long.toList) (hshort : ∀ op ∈ short, op.length = 1)
    (hlong : ∀ op ∈ long, op.length = 2) (next : Option Char) :
    longest? x next = (long.filter fun op => op.second? = next).or short := by
  have htwo : (short.toList ++ long.toList).find? (fun op => op.length = 2 ∧ op.second? = next)
      = long.filter fun op => op.second? = next := by
    cases short <;> cases long <;> simp_all [Option.filter]
  have hone : (short.toList ++ long.toList).find? (fun op => op.length = 1) = short := by
    cases short <;> cases long <;> simp_all
  rw [longest?, hstart, htwo, hone]
  cases long.filter fun op => op.second? = next <;> rfl

end Operator

namespace Scan

variable {s : Scanner} {fuel : Nat}

theorem run_matchOperator (x : Char) (ready : s.Ready) :
    ∃ s', matchOperator none (Operator.startingWith x) s
        = .ok (Operator.longest? x s.cursor.current, s') ∧ s'.Ready ∧
      s'.cursor = if (Operator.longest? x s.cursor.current).any (·.length = 2) then
        s.cursor.advance else s.cursor := by
  rcases Operator.startingWith_cases x with ⟨short, long, hstart, hshort, hlong⟩
  have hfront : matchOperator none (short.toList ++ long.toList)
      = matchOperator short long.toList := by
    cases short with
    | none => rfl
    | some one => exact if_pos (hshort one rfl)
  have hstay : short.any (·.length = 2) = false := by
    cases short with
    | none => rfl
    | some one =>
        rw [Option.any_some, hshort one rfl]
        rfl
  rw [Operator.longest?_eq hstart hshort hlong, hstart, hfront]
  cases long with
  | none => exact ⟨s, rfl, ready, by rw [Option.filter_none, Option.none_or, hstay]; rfl⟩
  | some two =>
      have htwo := hlong two rfl
      change ∃ s', matchOperator short [two] s = _ ∧ _
      rw [matchOperator, if_neg (by omega), bind_current, ← ready.current_eq]
      by_cases hsecond : two.second? = s.cursor.current
      · rcases run_advance ready with ⟨s', hrun, hadvance, ready', _⟩
        rw [Option.filter_some, if_pos (decide_eq_true hsecond), Option.some_or, Option.any_some,
          if_pos (decide_eq_true htwo), if_pos hsecond, bind_of_ok hrun]
        exact ⟨s', rfl, ready', hadvance⟩
      · rw [Option.filter_some, if_neg (fun h => hsecond (of_decide_eq_true h)), Option.none_or,
          hstay, if_neg hsecond]
        exact ⟨s, rfl, ready, rfl⟩

theorem run_operatorHere (ready : s.Ready) :
    match Operator.read s.cursor with
    | .error e => operatorHere s = .error (.rejected e)
    | .ok none => operatorHere s = .ok (.stop, s)
    | .ok (some p) => p.value ≠ .stop ∧
        ∃ s', operatorHere s = .ok (p.value, s') ∧ s'.cursor = p.rest ∧ s'.Ready := by
  rw [operatorHere, bind_current, ← ready.current_eq, Operator.read]
  cases hnext : s.cursor.next? with
  | none =>
      rw [Cursor.current_of_next?_none hnext]
      rfl
  | some p =>
      rcases p with ⟨x, c₁, h₁⟩
      rcases Cursor.eq_of_next? hnext with ⟨hcurrent, hc₁⟩
      rw [hcurrent]
      dsimp only
      by_cases hstart : Operator.startingWith x = []
      · rw [if_pos hstart, Operator.longest?, hstart]
        rfl
      rw [if_neg hstart, if_neg hstart]
      rcases run_advance ready with ⟨s₁, hadvance, hs₁, ready₁, _⟩
      rcases run_matchOperator x ready₁ with ⟨s₂, hmatch, ready₂, hs₂⟩
      rw [bind_of_ok hadvance, bind_of_ok hmatch]
      rw [hs₁, ← hc₁] at hs₂ ⊢
      cases hlongest : Operator.longest? x c₁.current with
      | none =>
          rw [hlongest] at hs₂
          dsimp only
          rw [← show s₂.cursor = c₁ from hs₂]
          rfl
      | some op =>
          rw [hlongest, Option.any_some] at hs₂
          dsimp only
          by_cases hlength : op.length = 2
          · rw [if_pos hlength]
            rw [if_pos (decide_eq_true hlength)] at hs₂
            exact ⟨(Operator.symbol_of_longest? hlongest).1, s₂, rfl, hs₂, ready₂⟩
          · rw [if_neg hlength]
            rw [if_neg fun h => hlength (of_decide_eq_true h)] at hs₂
            exact ⟨(Operator.symbol_of_longest? hlongest).1, s₂, rfl, hs₂, ready₂⟩

def linksBehind (op : Operator) (c : Cursor) :
    Attempt (Parsed (c.size + 1) (List (Operator × Expr))) :=
  if op = .stop then .ok (.here [] c)
  else
    ((Expr.readUnary c).andMaybe fun operand c₁ _ =>
      (Expr.readLinks c₁).mapValue fun links => (op, operand) :: links).weaken

section

variable {c r : Cursor}

theorem outcome_readLinks_of_error {e : Located ParseError} (hskip : r = c.skipSpace)
    (hread : Operator.read r = .error e) : (Expr.readLinks c).outcome = .error e := by
  subst hskip
  rw [Expr.readLinks, Attempt.outcome_afterSpace, Expr.readLinksHere, hread]
  rfl

theorem outcome_readLinks_of_stop (hskip : r = c.skipSpace) (hread : Operator.read r = .ok none) :
    (Expr.readLinks c).outcome = (linksBehind .stop r).outcome := by
  subst hskip
  rw [Expr.readLinks, Attempt.outcome_afterSpace, Expr.readLinksHere, hread]
  rfl

theorem outcome_readLinks_of_operator {p : Parsed r.size Operator} (hskip : r = c.skipSpace)
    (hop : p.value ≠ .stop) (hread : Operator.read r = .ok (some p)) :
    (Expr.readLinks c).outcome = (linksBehind p.value p.rest).outcome := by
  subst hskip
  rw [Expr.readLinks, Attempt.outcome_afterSpace, Expr.readLinksHere, hread]
  dsimp only
  rw [Attempt.outcome_weaken, Attempt.outcome_after, linksBehind, if_neg hop,
    Attempt.outcome_weaken]

end

theorem nextOperator_cases (ready : s.Ready) (hfuel : s.cursor.size < fuel) :
    (∃ e, nextOperator fuel s = .error (.rejected e)
      ∧ (Expr.readLinks s.cursor).outcome = .error e)
    ∨ ∃ op s', nextOperator fuel s = .ok (op, s') ∧ s'.Ready ∧ s'.cursor.size ≤ s.cursor.size
      ∧ (Expr.readLinks s.cursor).outcome = (linksBehind op s'.cursor).outcome := by
  rcases run_skipSpace ready hfuel with ⟨s₁, hskip, hs₁, ready₁⟩
  have hhere := run_operatorHere ready₁
  have hle := s.cursor.size_skipSpace_le
  rw [← hs₁] at hle
  rw [nextOperator, bind_of_ok hskip]
  cases hread : Operator.read s₁.cursor with
  | error e =>
      rw [hread] at hhere
      exact Or.inl ⟨e, hhere, outcome_readLinks_of_error hs₁ hread⟩
  | ok found =>
      rw [hread] at hhere
      cases found with
      | none => exact Or.inr ⟨.stop, s₁, hhere, ready₁, hle, outcome_readLinks_of_stop hs₁ hread⟩
      | some p =>
          rcases hhere with ⟨hop, s₂, hrun, hs₂, ready₂⟩
          refine Or.inr ⟨p.value, s₂, hrun, ready₂, ?_, ?_⟩
          · rw [hs₂]
            exact Nat.le_of_lt (Nat.lt_of_lt_of_le p.size_rest_lt hle)
          · rw [hs₂]
            exact outcome_readLinks_of_operator hs₁ hop hread

/-!
## Climbing
-/

theorem outcome_linksBehind {c r : Cursor} {op : Operator} {operand : Expr} (hop : op ≠ .stop)
    (hread : (Expr.readUnary c).outcome = .ok (operand, r)) :
    (linksBehind op c).outcome
      = (Expr.readLinks r).outcome.map fun found => ((op, operand) :: found.1, found.2) := by
  rw [linksBehind, if_neg hop, Attempt.outcome_weaken]
  exact Attempt.outcome_andMaybe hread fun _ => Attempt.outcome_mapValue _ _

theorem outcome_linksBehind_error {c : Cursor} {op : Operator} {e : Located ParseError}
    (hop : op ≠ .stop) (hread : Expr.readUnary c = .error e) :
    (linksBehind op c).outcome = .error e := by
  rw [linksBehind, if_neg hop, hread]
  rfl

theorem outcome_readUnary_skipSpace (c : Cursor) :
    (Expr.readUnary c.skipSpace).outcome = (Expr.readUnary c).outcome := by
  rw [Expr.readUnary, Expr.readUnary, Attempt.outcome_skipSpace, Attempt.outcome_skipSpace,
    Attempt.outcome_within, Attempt.outcome_within, Cursor.skipSpace_skipSpace]

theorem outcome_read_skipSpace (c : Cursor) :
    (Expr.read c.skipSpace).outcome = (Expr.read c).outcome := by
  have hunary := outcome_readUnary_skipSpace c
  rw [Expr.read, Expr.read]
  cases hread : Expr.readUnary c with
  | error e =>
      rw [hread] at hunary
      exact Attempt.outcome_andMaybe_error hunary
  | ok p =>
      rw [hread] at hunary
      rw [Attempt.outcome_andMaybe hunary fun _ => rfl]
      exact (Attempt.outcome_andMaybe rfl fun _ => rfl).symm

/-- What extending a tree by the links of a level comes to, `x` being what is read of the chain
behind the tree: it fails as the chain does, or ends with some links appended, in front of an
operator that binds more weakly.  Fewer than `n` characters are left then. -/
inductive Climbs (run : Except Halt ((Expr × Operator) × Scanner)) (g : Grouping)
    (x : Attempt (List (Operator × Expr) × Cursor)) (n level : Nat) : Prop
  | failed (e : Located ParseError) (hrun : run = .error (.rejected e)) (hread : x = .error e)
  | reached (links : List (Operator × Expr)) (next : Operator) (s : Scanner)
      (hrun : run = .ok (((g.appendAll links).toExpr, next), s)) (ready : s.Ready)
      (hread : x = (linksBehind next s.cursor).outcome.map fun found =>
        (links ++ found.1, found.2))
      (hlinks : ∀ link ∈ links, level ≤ link.1.precedence) (hnext : next.precedence < level)
      (hbinds : (g.appendAll links).BindsAtLeast next.precedence) (hlt : s.cursor.size < n)

namespace Climbs

variable {run : Except Halt ((Expr × Operator) × Scanner)} {g : Grouping} {op : Operator}
  {x y : Attempt (List (Operator × Expr) × Cursor)} {n level : Nat}

theorem here (hrun : run = .ok ((g.toExpr, op), s)) (ready : s.Ready)
    (hlevel : op.precedence < level) (hbinds : g.BindsAtLeast op.precedence)
    (hlt : s.cursor.size < n) : Climbs run g (linksBehind op s.cursor).outcome n level := by
  refine .reached [] op s hrun ready ?_ (List.forall_mem_nil _) hlevel hbinds hlt
  cases (linksBehind op s.cursor).outcome <;> rfl

theorem prepend {links : List (Operator × Expr)}
    (hread : y = x.map fun found => (links ++ found.1, found.2))
    (hlinks : ∀ link ∈ links, level ≤ link.1.precedence)
    (h : Climbs run (g.appendAll links) x n level) : Climbs run g y n level := by
  cases h with
  | failed e hrun hx =>
      refine .failed e hrun ?_
      rw [hread, hx]
      rfl
  | reached others next s' hrun ready hx hothers hnext hbinds hlt =>
      rw [← Grouping.appendAll_append] at hrun hbinds
      refine .reached (links ++ others) next s' hrun ready ?_
        (List.forall_mem_append.mpr ⟨hlinks, hothers⟩) hnext hbinds hlt
      rw [hread, hx]
      cases (linksBehind next s'.cursor).outcome with
      | error e => rfl
      | ok found =>
          have hall := List.append_assoc links others found.1
          exact congrArg (fun all => Except.ok (all, found.2)) hall.symm

theorem nextOperator {k : Operator → Scan (Expr × Operator)} (ready : s.Ready)
    (hfuel : s.cursor.size < fuel)
    (h : ∀ next s', s'.Ready -> s'.cursor.size ≤ s.cursor.size ->
      Climbs (k next s') g (linksBehind next s'.cursor).outcome n level) :
    Climbs ((nextOperator fuel >>= k) s) g (Expr.readLinks s.cursor).outcome n level := by
  rcases nextOperator_cases ready hfuel with
    ⟨e, hrun, hread⟩ | ⟨next, s', hrun, ready', hle, hread⟩
  · exact .failed e (bind_of_error hrun) hread
  · rw [bind_of_ok hrun, hread]
    exact h next s' ready' hle

end Climbs

mutual

theorem agrees_expression : ∀ (fuel : Nat) (s : Scanner), s.Ready -> 4 * s.cursor.size + 6 < fuel ->
    Agrees (expression fuel) s (Expr.read s.cursor)
  | 0, _, _, hfuel => absurd hfuel (Nat.not_lt_zero _)
  | fuel + 1, s, ready, hfuel => by
      rw [expression, Expr.read]
      refine (agrees_unary fuel s ready (by omega)).andMaybe fun first s₁ h₁ ready₁ => ?_
      rw [← bind_assoc]
      have hchain : Climbs ((do climb (← nextOperator fuel) first 1 fuel) s₁) (.operand first)
          (Expr.readLinks s₁.cursor).outcome (s₁.cursor.size + 1) 1 := by
        refine .nextOperator ready₁ (by omega) fun op s₂ ready₂ hle => ?_
        exact climbs_climb op (.operand first) 1 trivial fuel s₂ ready₂ (Nat.le_refl 1) (by omega)
          (by omega) (by omega)
      cases hchain with
      | failed e hrun hread =>
          rw [Attempt.eq_error_of_outcome hread]
          exact bind_of_error hrun
      | reached links next s₂ hrun ready₂ hread _ hnext _ _ =>
          have hstop : next = .stop := by
            by_contra hne
            have := Operator.precedence_pos_iff.mpr hne
            omega
          subst hstop
          have hread : (Expr.readLinks s₁.cursor).outcome = .ok (links, s₂.cursor) := by
            rw [hread]
            exact congrArg (fun all => Except.ok (all, s₂.cursor)) (List.append_nil links)
          rw [Agrees, Attempt.outcome_mapValue, hread]
          exact ⟨s₂, bind_of_ok hrun, rfl, ready₂⟩

theorem agrees_unary : ∀ (fuel : Nat) (s : Scanner), s.Ready -> 4 * s.cursor.size + 5 < fuel ->
    Agrees (unary fuel) s (Expr.readUnary s.cursor)
  | 0, _, _, hfuel => absurd hfuel (Nat.not_lt_zero _)
  | fuel + 1, s, ready, hfuel => by
      have hle := s.cursor.size_skipSpace_le
      rw [unary, Expr.readUnary, Attempt.skipSpace_within]
      refine .skipSpace ready (by omega) fun s₁ hs₁ ready₁ => .within ?_ _
      rw [← hs₁] at hle ⊢
      rw [Expr.readUnaryHere]
      split
      · next c₂ h₂ htake =>
          refine .take_some ready₁ htake ?_
          rintro s₂ rfl ready₂ _
          rw [Attempt.skipSpace_after, Attempt.skipSpace_andThen, ← bind_assoc]
          refine .after ?_ _
          have hskip : Agrees (do skipSpace fuel; expression fuel) s₂ (Expr.read s₂.cursor) := by
            refine .spaced (outcome_read_skipSpace s₂.cursor) ready₂ (by omega) ?_
            intro s₃ ready₃ hle₃
            exact agrees_expression fuel s₃ ready₃ (by omega)
          refine hskip.andThen fun inner s₃ h₃ ready₃ => ?_
          exact .thenSkipSpace (agrees_expect ')' ready₃ (by omega)) rfl (by omega)
      · next htake =>
          split
          · next c₂ h₂ hbang =>
              refine .take_none ready₁ htake (.step rfl (.take_some ready₁ hbang ?_))
              rintro s₂ rfl ready₂ _
              rw [Attempt.skipSpace_after]
              refine .after ?_ _
              exact .thenSkipSpace (agrees_unary fuel s₂ ready₂ (by omega)) rfl (by omega)
          · next hbang =>
              refine .take_none ready₁ htake (.step rfl (.take_none ready₁ hbang ?_))
              have hprimary := agrees_primary false fuel s₁ ready₁ (by omega)
              refine .of_outcome ?_ hprimary
              rw [Expr.readPrimary, Attempt.outcome_skipSpace_skipSpace]

theorem climbs_climb (op : Operator) (g : Grouping) (level : Nat)
    (hbinds : g.BindsAtLeast op.precedence) : ∀ (fuel : Nat) (s : Scanner), s.Ready ->
    1 ≤ level -> 4 * s.cursor.size + 6 < fuel -> s.cursor.size ≤ n ->
    (op.precedence < level -> s.cursor.size < n) ->
    Climbs (climb op g.toExpr level fuel s) g (linksBehind op s.cursor).outcome n level
  | 0, _, _, _, hfuel, _, _ => absurd hfuel (Nat.not_lt_zero _)
  | fuel + 1, s, ready, hpos, hfuel, hle, hlt => by
      rw [climb]
      by_cases hlevel : level ≤ op.precedence
      · rw [if_pos hlevel]
        have hop : op ≠ .stop := Operator.precedence_pos_iff.mp (by omega)
        have hunary := agrees_unary fuel s ready (by omega)
        cases hread : Expr.readUnary s.cursor with
        | error e =>
            rw [hread] at hunary
            exact .failed e (bind_of_error hunary) (outcome_linksBehind_error hop hread)
        | ok p =>
            rcases p with ⟨operand, rest, h₁⟩
            rw [hread] at hunary
            rcases hunary with ⟨s₁, hrun₁, rfl, ready₁⟩
            have hbehind := outcome_linksBehind hop (congrArg Attempt.outcome hread)
            rw [bind_of_ok hrun₁, ← bind_assoc]
            have htighten : Climbs ((do tighten op operand (← nextOperator fuel) fuel) s₁)
                (.operand operand) (Expr.readLinks s₁.cursor).outcome (s₁.cursor.size + 1)
                (op.precedence + 1) := by
              refine .nextOperator ready₁ (by omega) fun next s₂ ready₂ hle₂ => ?_
              exact climbs_tighten op next (.operand operand) trivial fuel s₂ ready₂ (by omega)
                (by omega)
            cases htighten with
            | failed e hrun hlinks =>
                refine .failed e (bind_of_error hrun) ?_
                rw [hbehind, hlinks]
                rfl
            | reached links last s₂ hrun ready₂ hread₂ hlinks hlast hlastbinds hlt₂ =>
                rw [bind_of_ok hrun]
                have hwhole : g.appendAll ((op, operand) :: links)
                    = .apply op g ((Grouping.operand operand).appendAll links) := by
                  change (g.append op operand).appendAll links = _
                  rw [Grouping.append_of_bindsAtLeast hbinds, Grouping.appendAll_apply hlinks]
                have hall : (linksBehind op s.cursor).outcome
                    = (linksBehind last s₂.cursor).outcome.map fun found =>
                      ((op, operand) :: links ++ found.1, found.2) := by
                  rw [hbehind, hread₂]
                  cases (linksBehind last s₂.cursor).outcome <;> rfl
                refine .prepend hall (List.forall_mem_cons.mpr ⟨hlevel, fun link hlink => ?_⟩) ?_
                · have := hlinks link hlink
                  omega
                · rw [hwhole]
                  exact climbs_climb last (.apply op g _) level (Nat.le_of_lt_succ hlast) fuel s₂
                    ready₂ hpos (by omega) (by omega) (by omega)
      · rw [if_neg hlevel]
        exact .here rfl ready (Nat.not_le.mp hlevel) hbinds (hlt (Nat.not_le.mp hlevel))

theorem climbs_tighten (op next : Operator) (g : Grouping)
    (hbinds : g.BindsAtLeast next.precedence) : ∀ (fuel : Nat) (s : Scanner), s.Ready ->
    4 * s.cursor.size + 7 < fuel -> s.cursor.size < n ->
    Climbs (tighten op g.toExpr next fuel s) g (linksBehind next s.cursor).outcome n
      (op.precedence + 1)
  | 0, _, _, hfuel, _ => absurd hfuel (Nat.not_lt_zero _)
  | fuel + 1, s, ready, hfuel, hlt => by
      rw [tighten]
      by_cases htighter : op.precedence < next.precedence
      · rw [if_pos htighter]
        have hclimb : Climbs (climb next g.toExpr next.precedence fuel s) g
            (linksBehind next s.cursor).outcome s.cursor.size next.precedence :=
          climbs_climb next g next.precedence hbinds fuel s ready (by omega) (by omega)
            (Nat.le_refl _) (fun h => absurd h (Nat.lt_irrefl _))
        cases hclimb with
        | failed e hrun hread => exact .failed e (bind_of_error hrun) hread
        | reached links last s₁ hrun ready₁ hread hlinks _ hlastbinds hlt₁ =>
            rw [bind_of_ok hrun]
            refine .prepend hread (fun link hlink => ?_) ?_
            · have := hlinks link hlink
              omega
            · exact climbs_tighten op last _ hlastbinds fuel s₁ ready₁ (by omega) (by omega)
      · rw [if_neg htighter]
        exact .here rfl ready (by omega) hbinds hlt

end

end Scan

end Stencil
