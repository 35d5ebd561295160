import Mathlib.Data.List.Basic
import Stencil.Evaluation.Expr

/-!
# Ranges

A range stands for the integers from its first bound to its last one, upward or downward, with both
bounds among them.  None of them leaves the 64 bits, however near to the ends the bounds are, and a
range that is too long is refused with the length it would have had.
-/

namespace Stencil

namespace Integer

/-!
## Steps from one integer to another
-/

/-- The integer that lies `k` steps from `a` on the way to `b`. -/
def toward (a b : Int64) (k : Nat) : Int :=
  if a.toInt ≤ b.toInt then a.toInt + k else a.toInt - k

theorem fits_toward {a b : Int64} {k : Nat} (h : k ≤ distance a b) : Fits (toward a b k) := by
  have ha := fits_toInt a
  have hb := fits_toInt b
  unfold Fits at *
  unfold distance at h
  unfold toward
  split <;> omega

theorem toInt_ofInt_toward {a b : Int64} {k : Nat} (h : k ≤ distance a b) :
    (Int64.ofInt (toward a b k)).toInt = toward a b k :=
  Int64.toInt_ofInt_of_le (fits_toward h).1 (fits_toward h).2

theorem toward_zero (a b : Int64) : toward a b 0 = a.toInt := by
  unfold toward
  split <;> omega

theorem distance_comm (a b : Int64) : distance a b = distance b a := by
  unfold distance
  omega

theorem toward_swap {a b : Int64} {k : Nat} (h : k ≤ distance a b) :
    toward b a k = toward a b (distance a b - k) := by
  unfold distance at *
  unfold toward
  split <;> split <;> omega

theorem distance_lt (a b : Int64) : distance a b < 18446744073709551616 := by
  have ha := fits_toInt a
  have hb := fits_toInt b
  unfold Fits at ha hb
  unfold distance
  omega

def between (a b : Int64) : List Int64 :=
  (List.range (distance a b + 1)).map fun k => Int64.ofInt (toward a b k)

theorem length_between (a b : Int64) : (between a b).length = distance a b + 1 := by
  simp [between]

theorem toInt_getElem_between (a b : Int64) (k : Nat) (h : k < (between a b).length) :
    (between a b)[k].toInt = toward a b k := by
  have hk : k ≤ distance a b := by
    rw [length_between] at h
    omega
  simp only [between, List.getElem_map, List.getElem_range]
  exact toInt_ofInt_toward hk

theorem head?_between (a b : Int64) : (between a b).head? = some a := by
  simp [between, List.head?_range, toward_zero, Int64.ofInt_toInt]

theorem between_comm (a b : Int64) : between b a = (between a b).reverse := by
  apply List.ext_getElem
  · simp [length_between, distance_comm a b]
  · intro k h h'
    have hk : k ≤ distance a b := by
      rw [length_between, distance_comm] at h
      omega
    have hlast : (between a b).length - 1 - k = distance a b - k := by
      rw [length_between]
      omega
    apply Int64.toInt_inj.mp
    rw [List.getElem_reverse, toInt_getElem_between, toInt_getElem_between, hlast]
    exact toward_swap hk

theorem getLast?_between (a b : Int64) : (between a b).getLast? = some b := by
  rw [← List.head?_reverse, ← between_comm]
  exact head?_between b a

end Integer

/-!
## Values of ranges
-/

namespace Value

theorem rangeItems_eq (a b : Int64) : rangeItems a b = (Integer.between a b).map int := by
  rw [Integer.between, List.map_map]
  rfl

theorem range_of_lt {a b : Int64} (h : Integer.distance a b < maxRangeLength) :
    range a b = .ok (list ((Integer.between a b).map int)) := by
  rw [range, if_pos h, rangeItems_eq]

theorem range_of_le {a b : Int64} (h : maxRangeLength ≤ Integer.distance a b) :
    range a b = .error (.rangeTooLarge (Integer.distance a b + 1) maxRangeLength) := by
  rw [range, if_neg (Nat.not_lt.mpr h)]

end Value

namespace Expr

variable {context : Context} {first last : Expr} {a b : Int64} {value : Value}

theorem bound_of_int?_eq_none (e : Expr) (h : value.int? = none) :
    e.bound (.ok value) = .error ⟨.notAnInteger .rangeBound value.kind, e.location⟩ := by
  cases value with
  | int n => cases h
  | _ => rfl

theorem evaluate_range_int (location : Location) (hfirst : first.evaluate context = .ok (.int a))
    (hlast : last.evaluate context = .ok (.int b)) :
    (range first last location).evaluate context = locate location (Value.range a b) := by
  rw [evaluate, hfirst, hlast]
  rfl

/-- Two bounds that are integers give exactly the integers between them, the other way round in the
opposite order, or an error with the exact length.  Otherwise the first bound that is none is to
blame, and the second one is not even evaluated if it is the first. -/
theorem evaluate_range (context : Context) (first last : Expr) (location : Location) :
    (∀ a b : Int64, first.evaluate context = .ok (.int a) ->
      last.evaluate context = .ok (.int b) ->
        let span := (a.toInt - b.toInt).natAbs
        (span < 1000000 -> ∃ items : List Int64,
          (range first last location).evaluate context = .ok (.list (items.map .int))
          ∧ items.length = span + 1
          ∧ (∀ (k : Nat) (h : k < items.length),
              items[k].toInt = if a.toInt ≤ b.toInt then a.toInt + k else a.toInt - k)
          ∧ items.head? = some a ∧ items.getLast? = some b
          ∧ (range last first location).evaluate context = .ok (.list (items.reverse.map .int)))
        ∧ (1000000 ≤ span ->
          (range first last location).evaluate context
            = .error ⟨.rangeTooLarge (span + 1) 1000000, location⟩
          ∧ span + 1 ≤ 18446744073709551616))
    ∧ (∀ value, first.evaluate context = .ok value -> value.int? = none ->
        (range first last location).evaluate context
          = .error ⟨.notAnInteger .rangeBound value.kind, first.location⟩)
    ∧ (∀ error, first.evaluate context = .error error ->
        (range first last location).evaluate context = .error error)
    ∧ (∀ a value, first.evaluate context = .ok (.int a) -> last.evaluate context = .ok value ->
        value.int? = none ->
        (range first last location).evaluate context
          = .error ⟨.notAnInteger .rangeBound value.kind, last.location⟩)
    ∧ (∀ a error, first.evaluate context = .ok (.int a) ->
        last.evaluate context = .error error ->
        (range first last location).evaluate context = .error error) := by
  refine ⟨?_, ?_, ?_, ?_, ?_⟩
  · intro a b hfirst hlast
    dsimp only
    constructor
    · intro hspan
      have hback : Integer.distance b a < maxRangeLength := by
        rw [Integer.distance_comm]
        exact hspan
      refine ⟨Integer.between a b, ?_, Integer.length_between a b,
        Integer.toInt_getElem_between a b, Integer.head?_between a b,
        Integer.getLast?_between a b, ?_⟩
      · rw [evaluate_range_int location hfirst hlast, Value.range_of_lt hspan]
        rfl
      · rw [evaluate_range_int location hlast hfirst, Value.range_of_lt hback,
          Integer.between_comm]
        rfl
    · intro hspan
      refine ⟨?_, Integer.distance_lt a b⟩
      rw [evaluate_range_int location hfirst hlast, Value.range_of_le hspan]
      rfl
  · intro value hvalue hnone
    rw [evaluate, hvalue, bound_of_int?_eq_none first hnone]
    rfl
  · intro error herror
    rw [evaluate, herror]
    rfl
  · intro a value hfirst hvalue hnone
    rw [evaluate, hfirst, hvalue, bound_of_int?_eq_none last hnone]
    rfl
  · intro a error hfirst herror
    rw [evaluate, hfirst, herror]
    rfl

/-- From end to end of the integers, down to the largest one, and from null to an undefined
variable. -/
theorem evaluate_range_ends :
    let place : Location := ⟨"t", 1⟩
    let context := Context.ofVariables []
    let int (n : Int64) := literal (.int n) place
    (range (int Int64.minValue) (int Int64.maxValue) place).evaluate context
        = .error ⟨.rangeTooLarge 18446744073709551616 1000000, place⟩
    ∧ (∃ items : List Int64,
      (range (int Int64.maxValue) (int 9223372036854775805) place).evaluate context
          = .ok (.list (items.map .int))
        ∧ items.length = 3 ∧ items.head? = some Int64.maxValue
        ∧ items.getLast? = some 9223372036854775805)
    ∧ (range (literal .null place) (reference (.plain "x" false place) place) place).evaluate
        context = .error ⟨.notAnInteger .rangeBound .null, place⟩ := by
  intro place context int
  have hint : ∀ n, (int n).evaluate context = .ok (.int n) := by
    intro n
    rw [evaluate]
    rfl
  have hnull : (literal .null place).evaluate context = .ok .null := by
    rw [evaluate]
    rfl
  refine ⟨?_, ?_, ?_⟩
  · exact (((evaluate_range context _ _ place).1 _ _ (hint _) (hint _)).2 (by decide)).1
  · rcases ((evaluate_range context _ _ place).1 _ _ (hint Int64.maxValue)
      (hint 9223372036854775805)).1 (by decide) with ⟨items, heq, hlength, _, hhead, hlast, _⟩
    exact ⟨items, heq, hlength, hhead, hlast⟩
  · exact (evaluate_range context _ _ place).2.1 .null hnull rfl

end Expr

end Stencil
