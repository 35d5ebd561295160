import Stencil.Evaluation.Expr
import Stencil.Proofs.Grouping
import Stencil.Proofs.Numeral

/-!
# Arithmetic without a tree

A chain of numerals and arithmetic operators can be worked off as it stands: it is cut in front of
every `+` and `-` into terms, the factors of a term are taken from the left, and so are the terms,
each of them when its turn has come.  The tree that the chain is grouped to has the same value, or
fails for the same cause.
-/

namespace Stencil

namespace Arithmetic

def operator : Arithmetic → Operator
  | addition => .plus
  | subtraction => .minus
  | multiplication => .times
  | division => .divide
  | remainder => .remainder

/-- Whether the operation joins the factors of a term, and not terms. -/
def isTight : Arithmetic → Bool
  | addition | subtraction => false
  | multiplication | division | remainder => true

/-!
## Checked operations
-/

def inRange (operation : Arithmetic) (n : Int) : Except EvalError Int :=
  if Integer.Fits n then .ok n else .error (.integerOverflow operation)

/-- The exact result, if it is a word.  Quotients are cut off toward zero, and the quotient that a
remainder is left by has to be a word, too. -/
def checked (operation : Arithmetic) (a b : Int) : Except EvalError Int :=
  match operation with
  | addition => inRange .addition (a + b)
  | subtraction => inRange .subtraction (a - b)
  | multiplication => inRange .multiplication (a * b)
  | division => if b = 0 then .error .divisionByZero else inRange .division (a.tdiv b)
  | remainder =>
      if b = 0 then .error .remainderByZero
      else (inRange .remainder (a.tdiv b)).map fun _ => a.tmod b

theorem fits_of_inRange {operation : Arithmetic} {n m : Int} (h : inRange operation n = .ok m) :
    Integer.Fits m := by
  rw [inRange] at h
  by_cases hfits : Integer.Fits n
  · rw [if_pos hfits] at h
    cases h
    exact hfits
  · rw [if_neg hfits] at h
    cases h

theorem natAbs_tmod_lt (a : Int) {b : Int} (hzero : b ≠ 0) :
    (a.tmod b).natAbs < b.natAbs := by
  rw [Int.natAbs_tmod]
  exact Nat.mod_lt _ (Int.natAbs_pos.mpr hzero)

theorem fits_tmod {a b : Int} (hb : Integer.Fits b) (hzero : b ≠ 0) :
    Integer.Fits (a.tmod b) := by
  have hlt := natAbs_tmod_lt a hzero
  rcases hb with ⟨hlow, hhigh⟩
  constructor
  · omega
  · omega

theorem fits_of_checked {operation : Arithmetic} {a b n : Int} (hb : Integer.Fits b)
    (h : checked operation a b = .ok n) : Integer.Fits n := by
  cases operation with
  | addition => exact fits_of_inRange h
  | subtraction => exact fits_of_inRange h
  | multiplication => exact fits_of_inRange h
  | division =>
      rw [checked] at h
      by_cases hzero : b = 0
      · rw [if_pos hzero] at h
        cases h
      · rw [if_neg hzero] at h
        exact fits_of_inRange h
  | remainder =>
      rw [checked] at h
      by_cases hzero : b = 0
      · rw [if_pos hzero] at h
        cases h
      · rw [if_neg hzero] at h
        cases hquotient : inRange .remainder (a.tdiv b) with
        | error cause =>
            rw [hquotient] at h
            cases h
        | ok quotient =>
            rw [hquotient] at h
            cases h
            exact fits_tmod hb hzero

def toValue (x : Except EvalError Int) : Except EvalError Value :=
  x.map fun n => .int (Int64.ofInt n)

theorem exactly_ofInt? (operation : Arithmetic) (n : Int) :
    Value.exactly operation (Integer.ofInt? n) = toValue (inRange operation n) := by
  rw [Integer.ofInt?, inRange]
  split
  · rfl
  · rfl

theorem eq_zero_iff {b : Int64} : b = 0 ↔ b.toInt = 0 := by
  rw [← Int64.toInt_inj]
  rfl

theorem calculate_eq (operation : Arithmetic) (a b : Int64) :
    Value.calculate operation a b = toValue (operation.checked a.toInt b.toInt) := by
  cases operation with
  | addition => exact exactly_ofInt? .addition _
  | subtraction => exact exactly_ofInt? .subtraction _
  | multiplication => exact exactly_ofInt? .multiplication _
  | division =>
      rw [Value.calculate, checked]
      by_cases hzero : b = 0
      · rw [if_pos hzero, if_pos (eq_zero_iff.mp hzero)]
        rfl
      · have hne : ¬ b.toInt = 0 := fun h => hzero (eq_zero_iff.mpr h)
        rw [if_neg hzero, if_neg hne, Integer.div?, if_neg hne]
        exact exactly_ofInt? .division _
  | remainder =>
      rw [Value.calculate, checked]
      by_cases hzero : b = 0
      · rw [if_pos hzero, if_pos (eq_zero_iff.mp hzero)]
        rfl
      · have hne : ¬ b.toInt = 0 := fun h => hzero (eq_zero_iff.mpr h)
        have hremainder : Integer.ofInt? (a.toInt.tmod b.toInt)
            = some (Int64.ofInt (a.toInt.tmod b.toInt)) := by
          rw [Integer.ofInt?, if_pos (fits_tmod (Integer.fits_toInt b) hne)]
        rw [if_neg hzero, if_neg hne, Integer.rem?, Integer.div?, if_neg hne, Integer.ofInt?,
          inRange, hremainder]
        by_cases hfits : Integer.Fits (a.toInt.tdiv b.toInt)
        · rw [if_pos hfits, if_pos hfits]
          rfl
        · rw [if_neg hfits, if_neg hfits]
          rfl

theorem apply_words (operation : Arithmetic) (a b : Int64) :
    Value.apply operation.operator (.int a) (.int b)
      = toValue (operation.checked a.toInt b.toInt) := by
  have hcalculate : Value.apply operation.operator (.int a) (.int b)
      = Value.calculate operation a b := by
    cases operation <;> rfl
  rw [hcalculate, calculate_eq]

theorem apply_operator (operation : Arithmetic) {a b : Int} (ha : Integer.Fits a)
    (hb : Integer.Fits b) :
    Value.apply operation.operator (.int (Int64.ofInt a)) (.int (Int64.ofInt b))
      = toValue (operation.checked a b) := by
  rw [apply_words, Int64.toInt_ofInt_of_le ha.1 ha.2, Int64.toInt_ofInt_of_le hb.1 hb.2]

/-!
## Terms
-/

/-- The operation in front of a term, and the term itself: a numeral and the factors behind it. -/
structure Term where
  operation : Arithmetic
  first : Numeral
  factors : List (Arithmetic × Numeral)

def Term.links (term : Term) : List (Arithmetic × Numeral) :=
  (term.operation, term.first) :: term.factors

/-- Cuts a chain in front of every `+` and `-`: the factors that belong to what stands before, and
the terms behind them. -/
def split : List (Arithmetic × Numeral) → List (Arithmetic × Numeral) × List Term
  | [] => ([], [])
  | (operation, numeral) :: rest =>
      if operation.isTight then ((operation, numeral) :: (split rest).1, (split rest).2)
      else ([], ⟨operation, numeral, (split rest).1⟩ :: (split rest).2)

def product (first : Numeral) (factors : List (Arithmetic × Numeral)) : Except EvalError Int :=
  factors.foldlM (fun value factor => factor.1.checked value factor.2.value.toInt)
    first.value.toInt

/-- The value of a chain; each term is worked off just before it is combined with the total. -/
def total (first : Numeral) (rest : List (Arithmetic × Numeral)) : Except EvalError Int := do
  let start ← product first (split rest).1
  (split rest).2.foldlM (fun value term => do
    term.operation.checked value (← product term.first term.factors)) start

theorem split_join (rest : List (Arithmetic × Numeral)) :
    (split rest).1 ++ (split rest).2.flatMap Term.links = rest := by
  induction rest with
  | nil => rfl
  | cons link rest ih =>
      rw [split]
      split
      · exact congrArg (link :: ·) ih
      · exact congrArg (link :: ·) ih

theorem split_tight (rest : List (Arithmetic × Numeral)) :
    (∀ factor ∈ (split rest).1, factor.1.isTight = true) ∧
      ∀ term ∈ (split rest).2, term.operation.isTight = false ∧
        ∀ factor ∈ term.factors, factor.1.isTight = true := by
  induction rest with
  | nil => exact ⟨List.forall_mem_nil _, List.forall_mem_nil _⟩
  | cons link rest ih =>
      rw [split]
      split
      · next htight => exact ⟨List.forall_mem_cons.mpr ⟨htight, ih.1⟩, ih.2⟩
      · next htight =>
          have hloose : link.1.isTight = false := Bool.eq_false_iff.mpr htight
          exact ⟨List.forall_mem_nil _, List.forall_mem_cons.mpr ⟨⟨hloose, ih.1⟩, ih.2⟩⟩

end Arithmetic

/-!
## The tree of a chain
-/

def Numeral.literal (location : Location) (numeral : Numeral) : Expr :=
  .literal (.int numeral.value) location

namespace Grouping

open Arithmetic

def arithmeticLinks (location : Location) (rest : List (Arithmetic × Numeral)) :
    List (Operator × Expr) :=
  rest.map fun link => (link.1.operator, link.2.literal location)

def withFactors (location : Location) (tree : Grouping) (factors : List (Arithmetic × Numeral)) :
    Grouping :=
  factors.foldl
    (fun tree factor => .apply factor.1.operator tree (.operand (factor.2.literal location))) tree

def ofTerm (location : Location) (first : Numeral) (factors : List (Arithmetic × Numeral)) :
    Grouping :=
  withFactors location (.operand (first.literal location)) factors

def withTerms (location : Location) (tree : Grouping) (terms : List Term) : Grouping :=
  terms.foldl (fun tree term =>
    .apply term.operation.operator tree (ofTerm location term.first term.factors)) tree

def ofTerms (location : Location) (first : Numeral) (rest : List (Arithmetic × Numeral)) :
    Grouping :=
  withTerms location (ofTerm location first (split rest).1) (split rest).2

theorem precedence_tight {operation : Arithmetic} (h : operation.isTight = true) :
    operation.operator.precedence = 6 := by
  cases operation with
  | addition => cases h
  | subtraction => cases h
  | multiplication => rfl
  | division => rfl
  | remainder => rfl

theorem precedence_loose {operation : Arithmetic} (h : operation.isTight = false) :
    operation.operator.precedence = 5 := by
  cases operation with
  | addition => rfl
  | subtraction => rfl
  | multiplication => cases h
  | division => cases h
  | remainder => cases h

theorem BindsAtLeast.mono {tree : Grouping} {level level' : Nat} (h : tree.BindsAtLeast level)
    (hle : level' ≤ level) : tree.BindsAtLeast level' := by
  cases tree with
  | operand expr => trivial
  | apply op lhs rhs => exact Nat.le_trans hle h

structure Spans (level : Nat) (tree : Grouping) (first : Expr) (links : List (Operator × Expr)) :
    Prop where
  wellGrouped : tree.WellGrouped
  binds : tree.BindsAtLeast level
  first_eq : tree.first = first
  links_eq : tree.links = links

variable (location : Location)

theorem Spans.apply {level : Nat} {lhs rhs : Grouping} {op : Operator} {first other : Expr}
    {links others : List (Operator × Expr)} (hlhs : lhs.Spans level first links)
    (hrhs : rhs.Spans (level + 1) other others) (hop : op.precedence = level) :
    (Grouping.apply op lhs rhs).Spans level first (links ++ (op, other) :: others) where
  wellGrouped := by
    subst hop
    exact ⟨hlhs.binds, hrhs.binds, hlhs.wellGrouped, hrhs.wellGrouped⟩
  binds := Nat.le_of_eq hop.symm
  first_eq := hlhs.first_eq
  links_eq := by
    rw [Grouping.links, hlhs.links_eq, hrhs.first_eq, hrhs.links_eq]

theorem spans_withFactors {tree : Grouping} {first : Expr} {links : List (Operator × Expr)}
    {factors : List (Arithmetic × Numeral)} (htree : tree.Spans 6 first links)
    (htight : ∀ factor ∈ factors, factor.1.isTight = true) :
    (withFactors location tree factors).Spans 6 first
      (links ++ arithmeticLinks location factors) := by
  induction factors generalizing tree links with
  | nil =>
      rw [arithmeticLinks, List.map_nil, List.append_nil]
      exact htree
  | cons factor factors ih =>
      rcases List.forall_mem_cons.mp htight with ⟨hfactor, hfactors⟩
      have hoperand : (Grouping.operand (factor.2.literal location)).Spans 7
          (factor.2.literal location) [] := ⟨trivial, trivial, rfl, rfl⟩
      have hwhole := ih (htree.apply hoperand (precedence_tight hfactor)) hfactors
      rw [List.append_assoc] at hwhole
      exact hwhole

theorem spans_ofTerm (first : Numeral) {factors : List (Arithmetic × Numeral)}
    (htight : ∀ factor ∈ factors, factor.1.isTight = true) :
    (ofTerm location first factors).Spans 6 (first.literal location)
      (arithmeticLinks location factors) := by
  have hoperand : (Grouping.operand (first.literal location)).Spans 6
      (first.literal location) [] := ⟨trivial, trivial, rfl, rfl⟩
  exact spans_withFactors location hoperand htight

theorem spans_withTerms {tree : Grouping} {first : Expr} {links : List (Operator × Expr)}
    {terms : List Term} (htree : tree.Spans 5 first links)
    (hterms : ∀ term ∈ terms, term.operation.isTight = false ∧
      ∀ factor ∈ term.factors, factor.1.isTight = true) :
    (withTerms location tree terms).Spans 5 first
      (links ++ arithmeticLinks location (terms.flatMap Term.links)) := by
  induction terms generalizing tree links with
  | nil =>
      rw [List.flatMap_nil, arithmeticLinks, List.map_nil, List.append_nil]
      exact htree
  | cons term terms ih =>
      rcases List.forall_mem_cons.mp hterms with ⟨⟨hloose, htight⟩, hterms⟩
      have hterm := spans_ofTerm location term.first htight
      have hwhole := ih (htree.apply hterm (precedence_loose hloose)) hterms
      rw [List.append_assoc] at hwhole
      rw [List.flatMap_cons, arithmeticLinks, List.map_append]
      exact hwhole

/-- A chain of numerals is grouped to a tree of two levels. -/
theorem ofChain_arithmeticLinks (first : Numeral) (rest : List (Arithmetic × Numeral)) :
    ofChain (first.literal location) (arithmeticLinks location rest)
      = ofTerms location first rest := by
  rcases split_tight rest with ⟨htight, hterms⟩
  have hterm := spans_ofTerm location first htight
  have hstart : (ofTerm location first (split rest).1).Spans 5 (first.literal location)
      (arithmeticLinks location (split rest).1) :=
    { hterm with binds := hterm.binds.mono (by decide) }
  have hwhole := spans_withTerms location hstart hterms
  rw [arithmeticLinks, arithmeticLinks, ← List.map_append, split_join] at hwhole
  have hchain := ofChain_links hwhole.wellGrouped
  rw [hwhole.first_eq, hwhole.links_eq] at hchain
  exact hchain

end Grouping

/-!
## Its value
-/

namespace Arithmetic

variable {context : Context} {location : Location}

/-- The expression has the exact value, or fails for the same cause, and all of it is blamed at one
location. -/
structure Evaluates (context : Context) (location : Location) (e : Expr)
    (x : Except EvalError Int) : Prop where
  location_eq : e.location = location
  fits : ∀ n, x = .ok n -> Integer.Fits n
  evaluate_eq : e.evaluate context = locate location (toValue x)

theorem evaluates_literal (numeral : Numeral) :
    Evaluates context location (numeral.literal location) (.ok numeral.value.toInt) where
  location_eq := rfl
  fits := by
    intro n hn
    cases hn
    exact Integer.fits_toInt numeral.value
  evaluate_eq := by
    have hvalue : toValue (.ok numeral.value.toInt) = .ok (.int numeral.value) := by
      rw [toValue, Except.map, Int64.ofInt_toInt]
    rw [hvalue, Numeral.literal, Expr.evaluate]
    rfl

theorem evaluate_apply (operation : Arithmetic) (lhs rhs : Expr) :
    (Expr.apply operation.operator lhs rhs).evaluate context = (do
      let a ← lhs.evaluate context
      let b ← rhs.evaluate context
      locate lhs.location (Value.apply operation.operator a b)) := by
  have hor : operation.operator ≠ .or := by
    cases operation <;> decide
  have hand : operation.operator ≠ .and := by
    cases operation <;> decide
  rw [Expr.apply, Expr.evaluate]
  · exact hor
  · exact hand

theorem Evaluates.apply (operation : Arithmetic) {lhs rhs : Expr} {x y : Except EvalError Int}
    (hlhs : Evaluates context location lhs x) (hrhs : Evaluates context location rhs y) :
    Evaluates context location (.apply operation.operator lhs rhs)
      (do operation.checked (← x) (← y)) where
  location_eq := hlhs.location_eq
  fits := by
    cases x with
    | error cause => intro n hn; cases hn
    | ok a =>
        cases y with
        | error cause => intro n hn; cases hn
        | ok b => exact fun n hn => fits_of_checked (hrhs.fits b rfl) hn
  evaluate_eq := by
    rw [evaluate_apply, hlhs.evaluate_eq, hrhs.evaluate_eq, hlhs.location_eq]
    cases x with
    | error cause => rfl
    | ok a =>
        cases y with
        | error cause => rfl
        | ok b =>
            have happly := apply_operator operation (hlhs.fits a rfl) (hrhs.fits b rfl)
            exact congrArg (locate location) happly

theorem evaluates_withFactors {tree : Grouping} {x : Except EvalError Int}
    (factors : List (Arithmetic × Numeral)) (h : Evaluates context location tree.toExpr x) :
    Evaluates context location (tree.withFactors location factors).toExpr
      (x >>= factors.foldlM fun value factor => factor.1.checked value factor.2.value.toInt) := by
  induction factors generalizing tree x with
  | nil =>
      rw [← bind_pure x] at h
      exact h
  | cons factor factors ih =>
      have hfactor := h.apply factor.1 (evaluates_literal factor.2)
      have hwhole := @ih (.apply factor.1.operator tree (.operand _)) _ hfactor
      rw [bind_assoc] at hwhole
      exact hwhole

theorem evaluates_ofTerm (first : Numeral) (factors : List (Arithmetic × Numeral)) :
    Evaluates context location (Grouping.ofTerm location first factors).toExpr
      (product first factors) :=
  @evaluates_withFactors context location (.operand _) _ factors (evaluates_literal first)

theorem evaluates_withTerms {tree : Grouping} {x : Except EvalError Int} (terms : List Term)
    (h : Evaluates context location tree.toExpr x) :
    Evaluates context location (tree.withTerms location terms).toExpr
      (x >>= terms.foldlM fun value term => do
        term.operation.checked value (← product term.first term.factors)) := by
  induction terms generalizing tree x with
  | nil =>
      rw [← bind_pure x] at h
      exact h
  | cons term terms ih =>
      have hterm := h.apply term.operation (evaluates_ofTerm term.first term.factors)
      have hwhole := @ih (.apply term.operation.operator tree _) _ hterm
      rw [bind_assoc] at hwhole
      exact hwhole

theorem evaluates_ofChain (first : Numeral) (rest : List (Arithmetic × Numeral)) :
    Evaluates context location
      (Grouping.ofChain (first.literal location)
        (Grouping.arithmeticLinks location rest)).toExpr (total first rest) := by
  rw [Grouping.ofChain_arithmeticLinks]
  exact evaluates_withTerms (split rest).2 (evaluates_ofTerm first (split rest).1)

/-- The sum is out of range before the quotient behind it is worked out. -/
example : total (.ofValue Int64.maxValue)
    [(.addition, .ofValue 1), (.subtraction, .ofValue 1), (.division, .ofValue 0)]
      = .error (.integerOverflow .addition) := by
  rfl

end Arithmetic

end Stencil
