/-!
# Integers

Template integers are signed 64-bit words.  Everything about them is said through their value as
an integer: what fits, how they are written, and which decimal numerals they come from.
-/

namespace Stencil
namespace Integer

def Fits (n : Int) : Prop :=
  -9223372036854775808 ≤ n ∧ n < 9223372036854775808

instance (n : Int) : Decidable (Fits n) :=
  inferInstanceAs (Decidable (_ ∧ _))

def ofInt? (n : Int) : Option Int64 :=
  if Fits n then some (Int64.ofInt n) else none

theorem fits_toInt (n : Int64) : Fits n.toInt :=
  ⟨n.le_toInt, n.toInt_lt⟩

theorem ofInt?_toInt (n : Int64) : ofInt? n.toInt = some n := by
  rw [ofInt?, if_pos (fits_toInt n), Int64.ofInt_toInt]

theorem ofInt?_eq_some_iff {n : Int} {w : Int64} : ofInt? n = some w ↔ w.toInt = n := by
  constructor
  · intro h
    by_cases fits : Fits n
    · rw [ofInt?, if_pos fits] at h
      cases h
      exact Int64.toInt_ofInt_of_le fits.1 fits.2
    · rw [ofInt?, if_neg fits] at h
      cases h
  · intro h
    rw [← h]
    exact ofInt?_toInt w

theorem ofInt?_eq_none_iff {n : Int} : ofInt? n = none ↔ ¬ Fits n := by
  rw [ofInt?]
  split
  · simp_all
  · simp_all

/-- A count as an integer; one too large becomes the largest integer. -/
def ofCount (n : Nat) : Int64 :=
  (ofInt? n).getD Int64.maxValue

/-!
## Decimal numerals
-/

def text (n : Int64) : String :=
  n.toInt.repr

def ofDigits? (negative : Bool) (digits : List Char) : Option Int64 :=
  if digits ≠ [] ∧ digits.all Char.isDigit then
    let magnitude := Nat.ofDigitChars 10 digits 0
    ofInt? (if negative then -(magnitude : Int) else magnitude)
  else
    none

def ofText? : List Char → Option Int64
  | '-' :: digits => ofDigits? true digits
  | '+' :: digits => ofDigits? false digits
  | digits => ofDigits? false digits

/-!
## Arithmetic

Each operation gives the exact result when that fits.  Quotients are cut off toward zero, and a
remainder takes the sign of the dividend.
-/

def add? (a b : Int64) : Option Int64 :=
  ofInt? (a.toInt + b.toInt)

def sub? (a b : Int64) : Option Int64 :=
  ofInt? (a.toInt - b.toInt)

def mul? (a b : Int64) : Option Int64 :=
  ofInt? (a.toInt * b.toInt)

def div? (a b : Int64) : Option Int64 :=
  if b.toInt = 0 then none else ofInt? (a.toInt.tdiv b.toInt)

/-- A remainder is defined just when the quotient is. -/
def rem? (a b : Int64) : Option Int64 :=
  if (div? a b).isSome then ofInt? (a.toInt.tmod b.toInt) else none

/-- The distance between two integers, which may exceed every integer. -/
def distance (a b : Int64) : Nat :=
  (a.toInt - b.toInt).natAbs

end Integer
end Stencil
