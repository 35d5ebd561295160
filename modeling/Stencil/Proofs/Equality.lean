import Mathlib.Data.List.Forall2
import Stencil.Proofs.Numeral
import Stencil.Proofs.SortedEntries
import Stencil.Value.Operation

/-!
# Equality and written form

Equality is put together from three rules: one for null, one for values of the same kind and one for
values of different kinds.  Values that are equal have the same text, and on truth values, integers
and strings that is all that equality asks for.  Inside lists and maps nothing is converted.
-/

namespace Stencil

namespace Integer

theorem text_injective {a b : Int64} (h : text a = text b) : a = b := by
  have hread := congrArg (fun s => ofText? s.toList) h
  simp only [text, toList_repr, ofText?_numeralOf_toInt] at hread
  exact Option.some.inj hread

end Integer

namespace Value

variable {a b : Value}

/-!
## The three rules
-/

theorem isNull_of_ne (h : a ≠ .null) : a.isNull = false := by
  cases a with
  | null => exact absurd rfl h
  | _ => rfl

theorem eq_null_iff_kind : a = .null ↔ a.kind = .null := by
  cases a with
  | null => exact iff_of_true rfl rfl
  | _ => exact iff_of_false (by rintro ⟨⟩) (by rintro ⟨⟩)

theorem eq_null_of_equal (h : equal .null b = true) : b = .null := by
  cases b with
  | null => rfl
  | _ => cases h

theorem equal_of_ne_null (ha : a ≠ .null) (hb : b ≠ .null) :
    equal a b = if a.kind = b.kind then decide (a = b) else decide (a.text = b.text) := by
  rw [equal, isNull_of_ne ha, isNull_of_ne hb]
  rfl

theorem equal_of_kind_eq (hkind : a.kind = b.kind) : equal a b = decide (a = b) := by
  by_cases ha : a = .null
  · have hb : b = .null := by
      rw [eq_null_iff_kind, ← hkind]
      exact eq_null_iff_kind.mp ha
    rw [ha, hb]
    rfl
  · have hb : b ≠ .null := by
      rw [Ne, eq_null_iff_kind, ← hkind]
      exact mt eq_null_iff_kind.mpr ha
    rw [equal_of_ne_null ha hb, if_pos hkind]

/-!
## Laws
-/

theorem equal_self (a : Value) : equal a a = true := by
  rw [equal_of_kind_eq rfl]
  exact decide_eq_true rfl

theorem equal_comm (a b : Value) : equal a b = equal b a := by
  rw [equal, equal, Bool.or_comm, Bool.and_comm]
  simp only [eq_comm]

theorem null_iff_of_equal (h : equal a b = true) : a = .null ↔ b = .null := by
  constructor
  · rintro rfl
    exact eq_null_of_equal h
  · rintro rfl
    rw [equal_comm] at h
    exact eq_null_of_equal h

theorem text_eq_of_equal (h : equal a b = true) : a.text = b.text := by
  by_cases ha : a = .null
  · rw [ha, (null_iff_of_equal h).mp ha]
  · rw [equal_of_ne_null ha (mt (null_iff_of_equal h).mpr ha)] at h
    split at h
    · exact congrArg text (of_decide_eq_true h)
    · exact of_decide_eq_true h

/-!
## Values without parts
-/

inductive IsScalar : Value → Prop
  | bool (value : Bool) : IsScalar (.bool value)
  | int (value : Int64) : IsScalar (.int value)
  | str (value : String) : IsScalar (.str value)

theorem IsScalar.ne_null (h : a.IsScalar) : a ≠ .null := by
  rintro rfl
  cases h

theorem text_int (n : Int64) : (int n).text = Integer.text n := by
  rw [text, write, String.empty_append]

theorem text_str (s : String) : (str s).text = s := by
  rw [text, write, String.empty_append]

theorem IsScalar.eq_of_text_eq (ha : a.IsScalar) (hb : b.IsScalar) (hkind : a.kind = b.kind)
    (htext : a.text = b.text) : a = b := by
  cases ha with
  | bool value =>
      cases hb with
      | bool other =>
          revert htext
          cases value <;> cases other <;> decide
      | int other => cases hkind
      | str other => cases hkind
  | int value =>
      cases hb with
      | bool other => cases hkind
      | int other =>
          rw [text_int, text_int] at htext
          rw [Integer.text_injective htext]
      | str other => cases hkind
  | str value =>
      cases hb with
      | bool other => cases hkind
      | int other => cases hkind
      | str other =>
          rw [text_str, text_str] at htext
          rw [htext]

theorem IsScalar.equal_iff (ha : a.IsScalar) (hb : b.IsScalar) :
    equal a b = true ↔ a.text = b.text := by
  constructor
  · exact text_eq_of_equal
  · intro htext
    rw [equal_of_ne_null ha.ne_null hb.ne_null]
    split
    · next hkind => exact decide_eq_true (ha.eq_of_text_eq hb hkind htext)
    · exact decide_eq_true htext

/-!
## Lists and maps
-/

/-- Equal without conversion. -/
def Identical (a b : Value) : Prop :=
  a.kind = b.kind ∧ equal a b = true

theorem identical_iff : Identical a b ↔ a = b := by
  constructor
  · rintro ⟨hkind, hequal⟩
    rw [equal_of_kind_eq hkind] at hequal
    exact of_decide_eq_true hequal
  · rintro rfl
    exact ⟨rfl, equal_self a⟩

theorem equal_list_iff {xs ys : List Value} :
    equal (list xs) (list ys) = true ↔ xs = ys := by
  have hequal : equal (list xs) (list ys) = decide (list xs = list ys) := equal_of_kind_eq rfl
  rw [hequal, decide_eq_true_iff, list.injEq]

theorem equal_map_iff {xs ys : Entries Value} :
    equal (map xs) (map ys) = true ↔ xs = ys := by
  have hequal : equal (map xs) (map ys) = decide (map xs = map ys) := equal_of_kind_eq rfl
  rw [hequal, decide_eq_true_iff, map.injEq]

theorem forall₂_identical_iff {xs ys : List Value} : List.Forall₂ Identical xs ys ↔ xs = ys := by
  have hrelation : Identical = (Eq : Value → Value → Prop) :=
    funext₂ fun _ _ => propext identical_iff
  rw [hrelation, List.forall₂_eq_eq_eq]

theorem forall₂_entries_iff {xs ys : Entries Value} :
    List.Forall₂ (fun x y => x.1 = y.1 ∧ Identical x.2 y.2) xs ys ↔ xs = ys := by
  have hrelation : (fun x y : String × Value => x.1 = y.1 ∧ Identical x.2 y.2) = Eq := by
    funext x y
    rw [identical_iff, Prod.ext_iff]
  rw [hrelation, List.forall₂_eq_eq_eq]

theorem equal_dictionary_iff (m n : Dictionary Value) :
    equal (map m.entries) (map n.entries) = true ↔ ∀ key, m.get? key = n.get? key := by
  rw [equal_map_iff]
  constructor
  · intro h key
    rw [Dictionary.get?, Dictionary.get?, h]
  · exact Entries.eq_of_find?_eq m.sorted n.sorted

/-- Equality is reflexive and symmetric, separates null from the rest and implies that the texts are
the same.  For truth values, integers and strings it is sameness of the texts.  Lists and maps are
equal if their parts are one by one of the same kind and equal; for maps this means that the same is
found under every key. -/
theorem equal_respects_text :
    (∀ a : Value, equal a a = true)
    ∧ (∀ a b : Value, equal a b = equal b a)
    ∧ (∀ a b : Value, equal a b = true -> (a = .null ↔ b = .null) ∧ a.text = b.text)
    ∧ (∀ a b : Value, a.IsScalar -> b.IsScalar -> (equal a b = true ↔ a.text = b.text))
    ∧ Equivalence (fun a b : { value : Value // value.IsScalar } => equal a.1 b.1 = true)
    ∧ (∀ xs ys : List Value, (equal (list xs) (list ys) = true ↔ xs = ys)
      ∧ (equal (list xs) (list ys) = true ↔ List.Forall₂ Identical xs ys))
    ∧ (∀ xs ys : Entries Value, (equal (map xs) (map ys) = true ↔ xs = ys)
      ∧ (equal (map xs) (map ys) = true
        ↔ List.Forall₂ (fun x y => x.1 = y.1 ∧ Identical x.2 y.2) xs ys))
    ∧ ∀ m n : Dictionary Value,
      equal (map m.entries) (map n.entries) = true ↔ ∀ key, m.get? key = n.get? key := by
  refine ⟨equal_self, equal_comm, ?_, ?_, ⟨?_, ?_, ?_⟩, ?_, ?_, equal_dictionary_iff⟩
  · exact fun a b h => ⟨null_iff_of_equal h, text_eq_of_equal h⟩
  · exact fun a b ha hb => ha.equal_iff hb
  · exact fun a => equal_self a.1
  · intro a b h
    rw [equal_comm]
    exact h
  · intro a b c hab hbc
    rw [a.2.equal_iff b.2] at hab
    rw [b.2.equal_iff c.2] at hbc
    rw [a.2.equal_iff c.2]
    exact hab.trans hbc
  · exact fun xs ys => ⟨equal_list_iff, equal_list_iff.trans forall₂_identical_iff.symm⟩
  · exact fun xs ys => ⟨equal_map_iff, equal_map_iff.trans forall₂_entries_iff.symm⟩

/-- An integer is equal to a string, and one inside a list to no string inside a list, although both
lists are equal to the string that they are written as. -/
theorem equal_respects_text_inside :
    (equal (int 5) (str "5") = true ∧ (int 5).text = (str "5").text)
    ∧ ¬ List.Forall₂ Identical [int 5] [str "5"]
    ∧ equal (list [int 5]) (str "[5]") = true ∧ equal (str "[5]") (list [str "5"]) = true
    ∧ equal (list [int 5]) (list [str "5"]) = false := by
  rcases equal_respects_text with ⟨_, hcomm, htext, _, _, hlists, _⟩
  have hequal : equal (int 5) (str "5") = true := by
    decide +kernel
  have hdifferent : equal (list [int 5]) (list [str "5"]) = false := by
    decide +kernel
  refine ⟨⟨hequal, (htext _ _ hequal).2⟩, ?_, ?_, ?_, hdifferent⟩
  · rw [← (hlists _ _).2, hdifferent]
    exact Bool.false_ne_true
  · decide +kernel
  · rw [hcomm]
    decide +kernel

end Value
end Stencil
