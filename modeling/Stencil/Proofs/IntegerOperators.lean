import Mathlib.Data.Rat.Floor
import Mathlib.Tactic.Linarith
import Mathlib.Tactic.Positivity
import Stencil.Proofs.FlatArithmetic

/-!
# Operators on integers

The operators give the exact result on all words, or say why there is none.  A quotient is the
fraction cut off toward zero, and together with the remainder it gives the dividend back without
leaving the words on the way.  The four orderings are one order.
-/

namespace Stencil

namespace Integer

/-!
## Cutting off toward zero
-/

/-- The integer that a fraction is cut off to, toward zero. -/
def cutOff (x : ℚ) : ℤ :=
  if 0 ≤ x then ⌊x⌋ else ⌈x⌉

theorem cutOff_neg (x : ℚ) : cutOff (-x) = -cutOff x := by
  rcases lt_trichotomy x 0 with hneg | rfl | hpos
  · rw [cutOff, cutOff, if_pos (by linarith), if_neg (not_le.mpr hneg), Int.floor_neg]
  · rw [neg_zero, cutOff, if_pos le_rfl, Int.floor_zero, neg_zero]
  · rw [cutOff, cutOff, if_neg (by linarith), if_pos hpos.le, Int.ceil_neg]

theorem cutOff_natCast_div (m n : ℕ) : cutOff (m / n) = (m : ℤ).tdiv n := by
  have hnonneg : (0 : ℚ) ≤ m / n := by positivity
  rw [cutOff, if_pos hnonneg, ← Int.cast_natCast m, Rat.floor_intCast_div_natCast]
  exact (Int.tdiv_eq_ediv_of_nonneg (Int.natCast_nonneg m)).symm

theorem cutOff_div (a b : ℤ) : cutOff (a / b) = a.tdiv b := by
  rcases a.eq_nat_or_neg with ⟨m, rfl | rfl⟩
  · rcases b.eq_nat_or_neg with ⟨n, rfl | rfl⟩
    · rw [Int.cast_natCast, Int.cast_natCast, cutOff_natCast_div]
    · rw [Int.cast_neg, Int.cast_natCast, Int.cast_natCast, div_neg, cutOff_neg, Int.tdiv_neg,
        cutOff_natCast_div]
  · rcases b.eq_nat_or_neg with ⟨n, rfl | rfl⟩
    · rw [Int.cast_neg, Int.cast_natCast, Int.cast_natCast, neg_div, cutOff_neg, Int.neg_tdiv,
        cutOff_natCast_div]
    · rw [Int.cast_neg, Int.cast_neg, Int.cast_natCast, Int.cast_natCast, neg_div_neg_eq,
        Int.neg_tdiv_neg, cutOff_natCast_div]

/-!
## What fits
-/

/-- Of all quotients only that of the smallest word and minus one is too large. -/
theorem fits_tdiv_iff {a b : Int} (ha : Fits a) (hzero : b ≠ 0) :
    Fits (a.tdiv b) ↔ ¬ (a = -9223372036854775808 ∧ b = -1) := by
  unfold Fits at *
  by_cases hone : b = 1
  · subst hone
    rw [Int.tdiv_one]
    omega
  by_cases hminus : b = -1
  · subst hminus
    rw [Int.tdiv_neg, Int.tdiv_one]
    omega
  · have hle : (a.tdiv b).natAbs ≤ a.natAbs / 2 := by
      rw [Int.natAbs_tdiv]
      exact Nat.div_le_div_left (by omega) (by decide)
    omega

theorem tmod_between (a b : Int) :
    (0 ≤ a.tmod b ∧ a.tmod b ≤ a) ∨ (a ≤ a.tmod b ∧ a.tmod b ≤ 0) := by
  have hle : (a.tmod b).natAbs ≤ a.natAbs := by
    rw [Int.natAbs_tmod]
    exact Nat.mod_le _ _
  rcases Int.le_total 0 a with h | h
  · have hnonneg := Int.tmod_nonneg b h
    omega
  · have hnonneg := Int.tmod_nonneg b (Int.neg_nonneg_of_nonpos h)
    rw [Int.neg_tmod] at hnonneg
    omega

theorem fits_tdiv_mul {a : Int} (ha : Fits a) (b : Int) : Fits (a.tdiv b * b) := by
  have hsum := Int.tdiv_mul_add_tmod a b
  have hbetween := tmod_between a b
  unfold Fits at *
  omega

end Integer

namespace Value

/-!
## Arithmetic
-/

/-- The outcome is the integer `n` as a word, or an overflow if there is no such word. -/
structure IsExact (operation : Arithmetic) (n : Int) (outcome : Except EvalError Value) : Prop where
  of_fits : Integer.Fits n -> ∃ w : Int64, w.toInt = n ∧ outcome = .ok (.int w)
  of_not_fits : ¬ Integer.Fits n -> outcome = .error (.integerOverflow operation)

theorem isExact_inRange (operation : Arithmetic) (n : Int) :
    IsExact operation n (Arithmetic.toValue (Arithmetic.inRange operation n)) := by
  constructor
  · intro h
    refine ⟨Int64.ofInt n, Int64.toInt_ofInt_of_le h.1 h.2, ?_⟩
    rw [Arithmetic.inRange, if_pos h]
    rfl
  · intro h
    rw [Arithmetic.inRange, if_neg h]
    rfl

theorem IsExact.eq_ok {operation : Arithmetic} {outcome : Except EvalError Value} {w : Int64}
    (h : IsExact operation w.toInt outcome) : outcome = .ok (.int w) := by
  rcases h.of_fits (Integer.fits_toInt w) with ⟨found, hfound, houtcome⟩
  rw [houtcome, Int64.toInt_inj.mp hfound]

variable (a b : Int64)

theorem isExact_plus : IsExact .addition (a.toInt + b.toInt) (apply .plus (int a) (int b)) :=
  (Arithmetic.apply_words .addition a b).symm ▸ isExact_inRange .addition _

theorem isExact_minus : IsExact .subtraction (a.toInt - b.toInt) (apply .minus (int a) (int b)) :=
  (Arithmetic.apply_words .subtraction a b).symm ▸ isExact_inRange .subtraction _

theorem isExact_times :
    IsExact .multiplication (a.toInt * b.toInt) (apply .times (int a) (int b)) :=
  (Arithmetic.apply_words .multiplication a b).symm ▸ isExact_inRange .multiplication _

/-!
## Division
-/

/-- The pairs of words that have a quotient among the words. -/
def HasQuotient (a b : Int64) : Prop :=
  b ≠ 0 ∧ ¬ (a = Int64.minValue ∧ b = -1)

/-- `q` and `r` are what dividing `a` by `b` gives and leaves. -/
structure IsDivision (a b q r : Int64) : Prop where
  divide_eq : apply .divide (int a) (int b) = .ok (int q)
  remainder_eq : apply .remainder (int a) (int b) = .ok (int r)
  cutOff_eq : q.toInt = Integer.cutOff (a.toInt / b.toInt)
  natAbs_lt : r.toInt.natAbs < b.toInt.natAbs
  sign_eq : r = 0 ∨ r.toInt.sign = a.toInt.sign
  rebuild_eq : (do apply .plus (← apply .times (int q) (int b)) (int r)) = .ok (int a)

variable {a b}

theorem hasQuotient_iff (hzero : b ≠ 0) :
    HasQuotient a b ↔ Integer.Fits (a.toInt.tdiv b.toInt) := by
  have hzero' : b.toInt ≠ 0 := fun h => hzero (Arithmetic.eq_zero_iff.mpr h)
  have hmin : a = Int64.minValue ↔ a.toInt = -9223372036854775808 := Int64.toInt_inj.symm
  have hminus : b = -1 ↔ b.toInt = -1 := Int64.toInt_inj.symm
  rw [Integer.fits_tdiv_iff (Integer.fits_toInt a) hzero', HasQuotient, hmin, hminus]
  exact and_iff_right hzero

theorem apply_divide (hzero : b ≠ 0) :
    apply .divide (int a) (int b)
      = Arithmetic.toValue (Arithmetic.inRange .division (a.toInt.tdiv b.toInt)) := by
  have happly := Arithmetic.apply_words .division a b
  rw [Arithmetic.checked, if_neg fun h => hzero (Arithmetic.eq_zero_iff.mpr h)] at happly
  exact happly

theorem apply_remainder (hzero : b ≠ 0) :
    apply .remainder (int a) (int b)
      = Arithmetic.toValue
          ((Arithmetic.inRange .remainder (a.toInt.tdiv b.toInt)).map
            fun _ => a.toInt.tmod b.toInt) := by
  have happly := Arithmetic.apply_words .remainder a b
  rw [Arithmetic.checked, if_neg fun h => hzero (Arithmetic.eq_zero_iff.mpr h)] at happly
  exact happly

theorem rebuild {q r : Int64} (hq : q.toInt = a.toInt.tdiv b.toInt)
    (hr : r.toInt = a.toInt.tmod b.toInt) :
    (do apply .plus (← apply .times (int q) (int b)) (int r)) = .ok (int a) := by
  have hproduct : Integer.Fits (q.toInt * b.toInt) := by
    rw [hq]
    exact Integer.fits_tdiv_mul (Integer.fits_toInt a) b.toInt
  rcases (isExact_times q b).of_fits hproduct with ⟨p, hp, htimes⟩
  have hsum : p.toInt + r.toInt = a.toInt := by
    rw [hp, hq, hr, Int.tdiv_mul_add_tmod]
  have hplus := isExact_plus p r
  rw [hsum] at hplus
  rw [htimes]
  exact hplus.eq_ok

theorem exists_isDivision (h : HasQuotient a b) : ∃ q r, IsDivision a b q r := by
  have hzero : b.toInt ≠ 0 := fun hb => h.1 (Arithmetic.eq_zero_iff.mpr hb)
  have hquotient := (hasQuotient_iff h.1).mp h
  have hremainder : Integer.Fits (a.toInt.tmod b.toInt) :=
    Arithmetic.fits_tmod (Integer.fits_toInt b) hzero
  let q := Int64.ofInt (a.toInt.tdiv b.toInt)
  let r := Int64.ofInt (a.toInt.tmod b.toInt)
  have hq : q.toInt = a.toInt.tdiv b.toInt :=
    Int64.toInt_ofInt_of_le hquotient.1 hquotient.2
  have hr : r.toInt = a.toInt.tmod b.toInt :=
    Int64.toInt_ofInt_of_le hremainder.1 hremainder.2
  refine ⟨q, r, ?_, ?_, ?_, ?_, ?_, rebuild hq hr⟩
  · rw [apply_divide h.1, Arithmetic.inRange, if_pos hquotient]
    rfl
  · rw [apply_remainder h.1, Arithmetic.inRange, if_pos hquotient]
    rfl
  · rw [hq, Integer.cutOff_div]
  · rw [hr]
    exact Arithmetic.natAbs_tmod_lt a.toInt hzero
  · rw [Arithmetic.eq_zero_iff, hr, ← Int.sign_eq_zero_iff_zero, Int.sign_tmod]
    split
    · exact Or.inl rfl
    · exact Or.inr rfl

theorem division_byZero (a : Int64) :
    apply .divide (int a) (int 0) = .error .divisionByZero
    ∧ apply .remainder (int a) (int 0) = .error .remainderByZero :=
  ⟨rfl, rfl⟩

theorem division_overflows (hzero : b ≠ 0) (h : ¬ HasQuotient a b) :
    apply .divide (int a) (int b) = .error (.integerOverflow .division)
    ∧ apply .remainder (int a) (int b) = .error (.integerOverflow .remainder) := by
  have hfits := mt (hasQuotient_iff hzero).mpr h
  constructor
  · rw [apply_divide hzero, Arithmetic.inRange, if_neg hfits]
    rfl
  · rw [apply_remainder hzero, Arithmetic.inRange, if_neg hfits]
    rfl

theorem division_fails (h : ¬ HasQuotient a b) :
    (∃ cause, apply .divide (int a) (int b) = .error cause)
    ∧ ∃ cause, apply .remainder (int a) (int b) = .error cause := by
  by_cases hzero : b = 0
  · subst hzero
    exact ⟨⟨_, (division_byZero a).1⟩, _, (division_byZero a).2⟩
  · rcases division_overflows hzero h with ⟨hdivide, hremainder⟩
    exact ⟨⟨_, hdivide⟩, _, hremainder⟩

theorem divide_iff : (∃ value, apply .divide (int a) (int b) = .ok value) ↔ HasQuotient a b := by
  constructor
  · rintro ⟨value, hvalue⟩
    by_contra h
    rcases (division_fails h).1 with ⟨cause, hcause⟩
    cases hcause.symm.trans hvalue
  · intro h
    rcases exists_isDivision h with ⟨q, r, hdivision⟩
    exact ⟨_, hdivision.divide_eq⟩

theorem remainder_iff :
    (∃ value, apply .remainder (int a) (int b) = .ok value) ↔ HasQuotient a b := by
  constructor
  · rintro ⟨value, hvalue⟩
    by_contra h
    rcases (division_fails h).2 with ⟨cause, hcause⟩
    cases hcause.symm.trans hvalue
  · intro h
    rcases exists_isDivision h with ⟨q, r, hdivision⟩
    exact ⟨_, hdivision.remainder_eq⟩

/-!
## Order
-/

theorem equal_int (a b : Int64) : equal (int a) (int b) = decide (a = b) :=
  decide_eq_decide.mpr (iff_of_eq (int.injEq a b))

theorem count_trichotomy (a b : Int64) :
    [decide (a.toInt < b.toInt), decide (a = b), decide (b.toInt < a.toInt)].count true = 1 := by
  have hequal : a = b ↔ a.toInt = b.toInt := Int64.toInt_inj.symm
  rw [decide_eq_decide.mpr hequal]
  rcases Int.lt_trichotomy a.toInt b.toInt with h | h | h
  · rw [decide_eq_true h, decide_eq_false (by omega), decide_eq_false (by omega)]
    rfl
  · rw [decide_eq_false (by omega), decide_eq_true h, decide_eq_false (by omega)]
    rfl
  · rw [decide_eq_false (by omega), decide_eq_false (by omega), decide_eq_true h]
    rfl

structure IsOrder (a b : Int64) (less same greater : Bool) : Prop where
  less_eq : apply .less (int a) (int b) = .ok (bool less)
  equal_eq : apply .equal (int a) (int b) = .ok (bool same)
  greater_eq : apply .greater (int a) (int b) = .ok (bool greater)
  lessOrEqual_eq : apply .lessOrEqual (int a) (int b) = .ok (bool !greater)
  greaterOrEqual_eq : apply .greaterOrEqual (int a) (int b) = .ok (bool !less)
  count_eq : [less, same, greater].count true = 1

theorem isOrder_words (a b : Int64) :
    IsOrder a b (a.toInt < b.toInt) (a = b) (b.toInt < a.toInt) where
  less_eq := rfl
  equal_eq := congrArg (fun same => Except.ok (bool same)) (equal_int a b)
  greater_eq := rfl
  lessOrEqual_eq := by
    have hnot : decide (a.toInt ≤ b.toInt) = !decide (b.toInt < a.toInt) := by
      rw [← decide_not, decide_eq_decide]
      exact Int.not_lt.symm
    exact congrArg (fun holds => Except.ok (bool holds)) hnot
  greaterOrEqual_eq := by
    have hnot : decide (b.toInt ≤ a.toInt) = !decide (a.toInt < b.toInt) := by
      rw [← decide_not, decide_eq_decide]
      exact Int.not_lt.symm
    exact congrArg (fun holds => Except.ok (bool holds)) hnot
  count_eq := count_trichotomy a b

end Value

/-!
## Other operands
-/

def Operator.integral : List Operator :=
  [plus, minus, times, divide, remainder, less, lessOrEqual, greater, greaterOrEqual]

namespace Value

variable {op : Operator} {lhs rhs : Value} {cause : EvalError}

theorem integers_left (op : Operator) (rhs : Value) (h : lhs.int? = none) :
    integers op lhs rhs = .error (.notAnInteger (.operand op) lhs.kind) := by
  cases lhs with
  | int a => cases h
  | _ => rfl

theorem integers_right (op : Operator) (a : Int64) (h : rhs.int? = none) :
    integers op (int a) rhs = .error (.notAnInteger (.operand op) rhs.kind) := by
  cases rhs with
  | int b => cases h
  | _ => rfl

theorem apply_of_integers (hop : op ∈ Operator.integral)
    (h : integers op lhs rhs = .error cause) : apply op lhs rhs = .error cause := by
  cases op with
  | stop | or | and | equal | notEqual => exact absurd hop (by decide)
  | _ =>
      rw [apply, h]
      rfl

/-- Sums, differences and products are exact or overflow.  Quotients and remainders exist for the
same operands, are those of the fraction cut off toward zero, and give the dividend back.  One of
less, equal and greater holds, and the other two orderings are their negations.  An operand that is
no integer is blamed, the left one first. -/
theorem integer_operators :
    (∀ a b : Int64,
      IsExact .addition (a.toInt + b.toInt) (apply .plus (int a) (int b))
      ∧ IsExact .subtraction (a.toInt - b.toInt) (apply .minus (int a) (int b))
      ∧ IsExact .multiplication (a.toInt * b.toInt) (apply .times (int a) (int b))
      ∧ ((∃ value, apply .divide (int a) (int b) = .ok value) ↔ HasQuotient a b)
      ∧ ((∃ value, apply .remainder (int a) (int b) = .ok value) ↔ HasQuotient a b)
      ∧ (HasQuotient a b -> ∃ q r, IsDivision a b q r)
      ∧ (b = 0 -> apply .divide (int a) (int b) = .error .divisionByZero
        ∧ apply .remainder (int a) (int b) = .error .remainderByZero)
      ∧ (b ≠ 0 -> ¬ HasQuotient a b ->
        apply .divide (int a) (int b) = .error (.integerOverflow .division)
        ∧ apply .remainder (int a) (int b) = .error (.integerOverflow .remainder))
      ∧ ∃ less same greater, IsOrder a b less same greater ∧ (less = true ↔ a.toInt < b.toInt))
    ∧ ∀ op ∈ Operator.integral, ∀ lhs rhs : Value,
      (lhs.int? = none -> apply op lhs rhs = .error (.notAnInteger (.operand op) lhs.kind))
      ∧ ∀ a, lhs.int? = some a -> rhs.int? = none ->
        apply op lhs rhs = .error (.notAnInteger (.operand op) rhs.kind) := by
  constructor
  · intro a b
    refine ⟨isExact_plus a b, isExact_minus a b, isExact_times a b, divide_iff, remainder_iff,
      exists_isDivision, ?_, division_overflows, ?_⟩
    · rintro rfl
      exact division_byZero a
    · exact ⟨_, _, _, isOrder_words a b, decide_eq_true_iff⟩
  · intro op hop lhs rhs
    constructor
    · intro h
      exact apply_of_integers hop (integers_left op rhs h)
    · intro a ha h
      cases lhs with
      | int _ => exact apply_of_integers hop (integers_right op _ h)
      | _ => cases ha

/-- A division of numbers with different signs, the one pair of words without a zero that has no
remainder, and two operands that are both no integers. -/
theorem integer_operators_signs :
    (HasQuotient (-7) 2 ∧ ∃ q r, IsDivision (-7) 2 q r ∧ q = -3 ∧ r = -1)
    ∧ (¬ HasQuotient Int64.minValue (-1)
      ∧ apply .remainder (int Int64.minValue) (int (-1)) = .error (.integerOverflow .remainder))
    ∧ (null.int? = none
      ∧ apply .less null (str "1") = .error (.notAnInteger (.operand .less) .null)) := by
  rcases integer_operators with ⟨hwords, hothers⟩
  refine ⟨⟨?_, ?_⟩, ⟨?_, ?_⟩, rfl, ?_⟩
  · exact ⟨by decide, by decide⟩
  · rcases hwords (-7) 2 with ⟨_, _, _, _, _, hdivision, _⟩
    rcases hdivision ⟨by decide, by decide⟩ with ⟨q, r, hqr⟩
    refine ⟨q, r, hqr, ?_, ?_⟩
    · have hquotient : apply .divide (int (-7)) (int 2) = .ok (int (-3)) := rfl
      cases hquotient.symm.trans hqr.divide_eq
      rfl
    · have hremainder : apply .remainder (int (-7)) (int 2) = .ok (int (-1)) := rfl
      cases hremainder.symm.trans hqr.remainder_eq
      rfl
  · exact fun h => h.2 ⟨rfl, rfl⟩
  · rcases hwords Int64.minValue (-1) with ⟨_, _, _, _, _, _, _, hoverflow, _⟩
    exact (hoverflow (by decide) fun h => h.2 ⟨rfl, rfl⟩).2
  · exact (hothers .less (by decide) null (str "1")).1 rfl

end Value
end Stencil
