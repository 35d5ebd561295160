import Stencil.Evaluation.Expr

/-!
# Logical connectives

Conditions made of variables, truth values and integers by negation, conjunction and disjunction
have a truth in every context, and it is the classical one: an undefined variable counts as false at
any depth.  For operands of any kind the connectives keep de Morgan's laws, errors included, and
look at their second operand only if the first one leaves the truth open.
-/

namespace Stencil
namespace Expr

/-!
## Truth of the connectives

Only a plain reference is looked at in a way of its own.  The truth of a connective is that of its
value, and its value is a truth.
-/

def both (left right : Except (Located EvalError) Bool) : Except (Located EvalError) Bool := do
  if ← left then right else return false

def either (left right : Except (Located EvalError) Bool) : Except (Located EvalError) Bool := do
  if ← left then return true else right

variable {context : Context} {a b operand : Expr} {location : Location}

theorem evaluate_not :
    (Expr.not operand location).evaluate context
      = (operand.isTrue context).map fun holds => .bool !holds := by
  rw [evaluate, ← isTrue]
  cases operand.isTrue context <;> rfl

theorem evaluate_and :
    (binary .and a b location).evaluate context
      = (both (a.isTrue context) (b.isTrue context)).map .bool := by
  rw [evaluate, ← isTrue, ← isTrue, both]
  cases a.isTrue context with
  | error e => rfl
  | ok holds =>
      cases holds with
      | false => rfl
      | true => cases b.isTrue context <;> rfl

theorem evaluate_or :
    (binary .or a b location).evaluate context
      = (either (a.isTrue context) (b.isTrue context)).map .bool := by
  rw [evaluate, ← isTrue, ← isTrue, either]
  cases a.isTrue context with
  | error e => rfl
  | ok holds =>
      cases holds with
      | true => rfl
      | false => cases b.isTrue context <;> rfl

def isConnective : Expr → Bool
  | not _ _ => true
  | binary .and _ _ _ => true
  | binary .or _ _ _ => true
  | _ => false

theorem isTrue_of_evaluate {e : Expr} {x : Except (Located EvalError) Bool}
    (hconnective : e.isConnective = true) (hvalue : e.evaluate context = x.map .bool) :
    e.isTrue context = x := by
  have htruth : e.isTrue context = (e.evaluate context).map Value.isTrue := by
    cases e with
    | reference ref location => cases hconnective
    | _ => rfl
  rw [htruth, hvalue]
  cases x with
  | error e => rfl
  | ok holds => cases holds <;> rfl

theorem isTrue_not :
    (Expr.not operand location).isTrue context = (operand.isTrue context).map Bool.not := by
  apply isTrue_of_evaluate rfl
  rw [evaluate_not]
  cases operand.isTrue context <;> rfl

theorem isTrue_and :
    (binary .and a b location).isTrue context = both (a.isTrue context) (b.isTrue context) :=
  isTrue_of_evaluate rfl evaluate_and

theorem isTrue_or :
    (binary .or a b location).isTrue context = either (a.isTrue context) (b.isTrue context) :=
  isTrue_of_evaluate rfl evaluate_or

/-!
## Laws for operands of any kind
-/

/-- Both sides look at their operands in the same order, so they also fail alike. -/
theorem map_not_both (x y : Except (Located EvalError) Bool) :
    (both x y).map Bool.not = either (x.map Bool.not) (y.map Bool.not) := by
  cases x with
  | error e => rfl
  | ok holds => cases holds <;> rfl

theorem map_not_either (x y : Except (Located EvalError) Bool) :
    (either x y).map Bool.not = both (x.map Bool.not) (y.map Bool.not) := by
  cases x with
  | error e => rfl
  | ok holds => cases holds <;> rfl

/-!
## Conditions with a truth
-/

/-- Conditions made of variables, truth values and integers by the connectives. -/
inductive Logical : Expr → Prop
  | plain {name : String} {silent : Bool} {place location : Location} :
      Logical (reference (.plain name silent place) location)
  | truth {value : Bool} {location : Location} : Logical (literal (.bool value) location)
  | integer {n : Int64} {location : Location} : Logical (literal (.int n) location)
  | not {operand : Expr} {location : Location} : Logical operand -> Logical (not operand location)
  | and {a b : Expr} {location : Location} :
      Logical a -> Logical b -> Logical (binary .and a b location)
  | or {a b : Expr} {location : Location} :
      Logical a -> Logical b -> Logical (binary .or a b location)

def Holds (context : Context) : Expr → Prop
  | reference (.plain name _ _) _ =>
      ∃ value, context.get? name = some value ∧ value ≠ .null ∧ value ≠ .bool false
  | literal (.bool value) _ => value = true
  | literal (.int _) _ => True
  | not operand _ => ¬ operand.Holds context
  | binary .and a b _ => a.Holds context ∧ b.Holds context
  | binary .or a b _ => a.Holds context ∨ b.Holds context
  | _ => False

end Expr

theorem Value.isTrue_iff (value : Value) :
    value.isTrue = true ↔ value ≠ .null ∧ value ≠ .bool false := by
  cases value with
  | null => simp [isTrue]
  | bool holds => cases holds <;> simp [isTrue]
  | _ => simp [isTrue]

namespace Expr

theorem isTrue_of_logical {e : Expr} (h : e.Logical) (context : Context) :
    ∃ holds, e.isTrue context = .ok holds ∧ (holds = true ↔ e.Holds context) := by
  induction h with
  | @plain name silent place location =>
      refine ⟨(context.get? name).any Value.isTrue, rfl, ?_⟩
      rw [Option.any_eq_true, Holds]
      constructor
      · intro h
        obtain ⟨value, hvalue, htrue⟩ := h
        exact ⟨value, hvalue, value.isTrue_iff.mp htrue⟩
      · intro h
        obtain ⟨value, hvalue, htrue⟩ := h
        exact ⟨value, hvalue, value.isTrue_iff.mpr htrue⟩
  | @truth value location => exact ⟨value, by cases value <;> rfl, Iff.rfl⟩
  | integer => exact ⟨true, rfl, iff_of_true rfl trivial⟩
  | not _ ih =>
      obtain ⟨holds, htruth, hiff⟩ := ih
      refine ⟨!holds, ?_, ?_⟩
      · rw [isTrue_not, htruth]
        rfl
      · rw [Holds, ← hiff]
        simp
  | and _ _ iha ihb =>
      obtain ⟨left, hleft, hleftIff⟩ := iha
      obtain ⟨right, hright, hrightIff⟩ := ihb
      refine ⟨left && right, ?_, ?_⟩
      · rw [isTrue_and, hleft, hright]
        cases left <;> rfl
      · rw [Holds, ← hleftIff, ← hrightIff, Bool.and_eq_true]
  | or _ _ iha ihb =>
      obtain ⟨left, hleft, hleftIff⟩ := iha
      obtain ⟨right, hright, hrightIff⟩ := ihb
      refine ⟨left || right, ?_, ?_⟩
      · rw [isTrue_or, hleft, hright]
        cases left <;> rfl
      · rw [Holds, ← hleftIff, ← hrightIff, Bool.or_eq_true]

theorem evaluate_of_isTrue {e : Expr} {holds : Bool} (hconnective : e.isConnective = true)
    (htruth : e.isTrue context = .ok holds) : e.evaluate context = .ok (.bool holds) := by
  have hvalue : e.evaluate context = (e.isTrue context).map .bool := by
    cases e with
    | not operand location =>
        rw [evaluate_not, isTrue_not]
        cases operand.isTrue context <;> rfl
    | binary op a b location =>
        cases op with
        | and => rw [evaluate_and, isTrue_and]
        | or => rw [evaluate_or, isTrue_or]
        | _ => cases hconnective
    | _ => cases hconnective
  rw [hvalue, htruth]
  rfl

/-- Conditions made of variables and literals have their classical truth.  For any operands, failing
ones included, negation exchanges conjunction and disjunction, and the second operand does not
matter where the first one decides. -/
theorem connectives_classical (context : Context) :
    (∀ e : Expr, e.Logical ->
      ∃ holds, e.isTrue context = .ok holds ∧ (holds = true ↔ e.Holds context)
        ∧ (e.isConnective = true -> e.evaluate context = .ok (.bool holds)))
    ∧ (∀ (a b : Expr) (l l₁ l₂ l₃ l₄ : Location),
      (Expr.not (binary .and a b l₁) l).isTrue context
          = (binary .or (.not a l₂) (.not b l₃) l₄).isTrue context
        ∧ (Expr.not (binary .or a b l₁) l).isTrue context
          = (binary .and (.not a l₂) (.not b l₃) l₄).isTrue context)
    ∧ (∀ (a b : Expr) (l : Location), a.isTrue context = .ok false ->
      (binary .and a b l).isTrue context = .ok false
        ∧ (binary .and a b l).evaluate context = .ok (.bool false))
    ∧ ∀ (a b : Expr) (l : Location), a.isTrue context = .ok true ->
      (binary .or a b l).isTrue context = .ok true
        ∧ (binary .or a b l).evaluate context = .ok (.bool true) := by
  refine ⟨?_, ?_, ?_, ?_⟩
  · intro e h
    obtain ⟨holds, htruth, hiff⟩ := isTrue_of_logical h context
    exact ⟨holds, htruth, hiff, fun hconnective => evaluate_of_isTrue hconnective htruth⟩
  · intro a b l l₁ l₂ l₃ l₄
    constructor
    · rw [isTrue_not, isTrue_and, isTrue_or, isTrue_not, isTrue_not, map_not_both]
    · rw [isTrue_not, isTrue_or, isTrue_and, isTrue_not, isTrue_not, map_not_either]
  · intro a b l hfalse
    have htruth : (binary .and a b l).isTrue context = .ok false := by
      rw [isTrue_and, hfalse]
      rfl
    exact ⟨htruth, evaluate_of_isTrue rfl htruth⟩
  · intro a b l htrue
    have htruth : (binary .or a b l).isTrue context = .ok true := by
      rw [isTrue_or, htrue]
      rfl
    exact ⟨htruth, evaluate_of_isTrue rfl htruth⟩

/-- An undefined variable is false under a negation, too, and keeps a failing operand from being
looked at. -/
theorem connectives_classical_undefined :
    let place : Location := ⟨"t", 1⟩
    let context := Context.ofVariables [("y", .null)]
    let x := reference (.plain "x" false place) place
    let y := reference (.plain "y" true place) place
    let condition :=
      Expr.not (binary .or x (binary .and y (literal (.int 3) place) place) place) place
    let failing := binary .plus x x place
    condition.Logical ∧ x.isTrue context = .ok false
      ∧ (∃ holds, condition.isTrue context = .ok holds ∧ (holds = true ↔ condition.Holds context)
        ∧ (condition.isConnective = true -> condition.evaluate context = .ok (.bool holds)))
      ∧ failing.isTrue context = .error ⟨.undefinedReference "x", place⟩
      ∧ (binary .and x failing place).isTrue context = .ok false := by
  intro place context x y condition failing
  have hlogical : condition.Logical := .not (.or .plain (.and .plain .integer))
  have hx : x.isTrue context = .ok false := rfl
  have hlaws := connectives_classical context
  exact ⟨hlogical, hx, hlaws.1 condition hlogical, rfl, (hlaws.2.2.1 x failing place hx).1⟩

end Expr

end Stencil
