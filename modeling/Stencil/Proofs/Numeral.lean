import Stencil.Integer

/-!
# Numerals

What a decimal numeral stands for, and that writing an integer and reading the numeral gives the
integer back, for every 64-bit word.
-/

namespace Stencil
namespace Integer

def numeralOf (n : Int) : List Char :=
  (if n < 0 then ['-'] else []) ++ Nat.toDigits 10 n.natAbs

theorem toList_repr (n : Int) : n.repr.toList = numeralOf n := by
  cases n with
  | ofNat n =>
      have hpos : ¬ Int.ofNat n < 0 := Int.not_lt.mpr (Int.natCast_nonneg n)
      rw [numeralOf, if_neg hpos]
      exact Nat.toList_repr
  | negSucc n =>
      rw [numeralOf, if_pos (Int.negSucc_lt_zero n)]
      change ("-" ++ Nat.repr (n + 1)).toList = _
      rw [String.toList_append, Nat.toList_repr]
      rfl

theorem isDigit_of_mem_toDigits {n : Nat} {c : Char} (h : c ∈ Nat.toDigits 10 n) :
    c.isDigit = true :=
  Nat.isDigit_of_mem_toDigits (by decide) (by decide) h

theorem ofDigits?_toDigits (n : Int) :
    ofDigits? (decide (n < 0)) (Nat.toDigits 10 n.natAbs) = ofInt? n := by
  have hdigits : (Nat.toDigits 10 n.natAbs).all Char.isDigit = true :=
    List.all_eq_true.mpr fun c hc => isDigit_of_mem_toDigits hc
  rw [ofDigits?, if_pos ⟨Nat.toDigits_ne_nil, hdigits⟩, Nat.ofDigitChars_ten_toDigits]
  change ofInt? (if decide (n < 0) = true then -(n.natAbs : Int) else n.natAbs) = ofInt? n
  by_cases hneg : n < 0
  · rw [if_pos (decide_eq_true hneg), Int.ofNat_natAbs_of_nonpos (Int.le_of_lt hneg), Int.neg_neg]
  · rw [if_neg (by simpa using hneg), Int.natAbs_of_nonneg (Int.not_lt.mp hneg)]

/-!
## Signs and digits

A word may have leading zeros, a sign that says nothing, and a value that does not fit.
-/

def IsDigits (digits : List Char) : Prop :=
  digits ≠ [] ∧ digits.all Char.isDigit = true

instance (digits : List Char) : Decidable (IsDigits digits) :=
  inferInstanceAs (Decidable (_ ∧ _))

def signed (negative : Bool) (digits : List Char) : List Char :=
  (if negative then ['-'] else []) ++ digits

def signedValue (negative : Bool) (digits : List Char) : Int :=
  if negative then -(Nat.ofDigitChars 10 digits 0 : Int) else Nat.ofDigitChars 10 digits 0

/-- The word stands for the integer, be it too large or not. -/
inductive Spells : List Char → Int → Prop where
  | signed (negative : Bool) {digits : List Char} :
      IsDigits digits -> Spells (signed negative digits) (signedValue negative digits)
  | plus {digits : List Char} :
      IsDigits digits -> Spells ('+' :: digits) (signedValue false digits)

theorem IsDigits.exists_cons {digits : List Char} (h : IsDigits digits) :
    ∃ c more, digits = c :: more ∧ c.isDigit = true := by
  cases digits with
  | nil => exact absurd rfl h.1
  | cons c more => exact ⟨c, more, rfl, List.all_eq_true.mp h.2 c List.mem_cons_self⟩

theorem ofDigits?_eq (negative : Bool) {digits : List Char} (h : IsDigits digits) :
    ofDigits? negative digits = ofInt? (signedValue negative digits) :=
  if_pos h

theorem isDigits_of_ofDigits? {negative : Bool} {digits : List Char} {value : Int64}
    (h : ofDigits? negative digits = some value) : IsDigits digits := by
  by_cases hdigits : IsDigits digits
  · exact hdigits
  · have hnone : ofDigits? negative digits = none := if_neg hdigits
    rw [hnone] at h
    cases h

theorem ofText?_signed (negative : Bool) {digits : List Char} (h : IsDigits digits) :
    ofText? (signed negative digits) = ofDigits? negative digits := by
  cases negative with
  | true => rfl
  | false =>
      rcases h.exists_cons with ⟨c, more, rfl, hdigit⟩
      rw [signed, if_neg Bool.false_ne_true, List.nil_append, ofText?.eq_def]
      -- A digit in front is no sign.
      split
      · next heq =>
          cases heq
          cases hdigit
      · next heq =>
          cases heq
          cases hdigit
      · rfl

theorem ofText?_of_spells {word : List Char} {n : Int} (h : Spells word n) :
    ofText? word = ofInt? n := by
  cases h with
  | signed negative hdigits => rw [ofText?_signed negative hdigits, ofDigits?_eq negative hdigits]
  | plus hdigits => exact ofDigits?_eq false hdigits

theorem spells_of_ofDigits? {negative : Bool} {digits : List Char} {value : Int64}
    (h : ofDigits? negative digits = some value) :
    IsDigits digits ∧ signedValue negative digits = value.toInt := by
  have hdigits := isDigits_of_ofDigits? h
  rw [ofDigits?_eq negative hdigits] at h
  exact ⟨hdigits, (ofInt?_eq_some_iff.mp h).symm⟩

theorem ofText?_eq_some_iff {word : List Char} {value : Int64} :
    ofText? word = some value ↔ Spells word value.toInt := by
  constructor
  · intro h
    rw [ofText?.eq_def] at h
    split at h
    · rcases spells_of_ofDigits? h with ⟨hdigits, hvalue⟩
      exact hvalue ▸ Spells.signed true hdigits
    · rcases spells_of_ofDigits? h with ⟨hdigits, hvalue⟩
      exact hvalue ▸ Spells.plus hdigits
    · rcases spells_of_ofDigits? h with ⟨hdigits, hvalue⟩
      exact hvalue ▸ Spells.signed false hdigits
  · intro h
    rw [ofText?_of_spells h, ofInt?_toInt]

end Integer

/-!
## Numerals with a word
-/

structure Numeral where
  negative : Bool
  digits : List Char
  value : Int64
  ofDigits?_digits : Integer.ofDigits? negative digits = some value

namespace Numeral

def spelling (numeral : Numeral) : List Char :=
  (if numeral.negative then ['-'] else []) ++ numeral.digits

theorem isDigits (numeral : Numeral) : Integer.IsDigits numeral.digits :=
  Integer.isDigits_of_ofDigits? numeral.ofDigits?_digits

theorem ofText?_spelling (numeral : Numeral) :
    Integer.ofText? numeral.spelling = some numeral.value :=
  (Integer.ofText?_signed numeral.negative numeral.isDigits).trans numeral.ofDigits?_digits

def ofValue (value : Int64) : Numeral where
  negative := decide (value.toInt < 0)
  digits := Nat.toDigits 10 value.toInt.natAbs
  value := value
  ofDigits?_digits := by
    rw [Integer.ofDigits?_toDigits, Integer.ofInt?_toInt]

theorem spelling_ofValue (value : Int64) :
    (ofValue value).spelling = Integer.numeralOf value.toInt := by
  rw [spelling, Integer.numeralOf]
  simp only [ofValue, decide_eq_true_eq]

end Numeral

namespace Integer

theorem ofText?_numeralOf_toInt (value : Int64) :
    ofText? (numeralOf value.toInt) = some value := by
  rw [← Numeral.spelling_ofValue, Numeral.ofText?_spelling]
  rfl

end Integer

end Stencil
