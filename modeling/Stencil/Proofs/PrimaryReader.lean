import Stencil.Expr.Primary
import Stencil.Proofs.Layout
import Stencil.Proofs.Numeral
import Stencil.Proofs.Reading

/-!
# Reading primaries back

What the readers of literals, references, lists and ranges give on a text that spells one of them.
Each rule below follows one reader through one form; the forms are put together by induction
elsewhere, so a rule assumes what the readers of the parts give.
-/

namespace Stencil

/-!
## Where a primary begins and ends

A primary begins with a character that neither is blank nor closes anything.  It ends in front of a
text that does not go on with it: a name would take in more letters, a member would become a call,
and any reference would take in an index or another member.
-/

structure EndsName (rest : List Char) : Prop where
  name : ∀ c ∈ rest.head?, Text.isIdentifierChar c = false
  call : rest.head? ≠ some '('

structure Boundary (rest : List Char) : Prop extends EndsName rest where
  index : rest.head? ≠ some '['
  member : ∀ c more, rest = '.' :: c :: more -> c.isAlpha = false

namespace Text

theorem isAlpha_eq (c : Char) :
    c.isAlpha = (decide (65 ≤ c.val ∧ c.val ≤ 90)
      || (decide (97 ≤ c.val) && decide (c.val ≤ 122))) :=
  rfl

theorem isBlank_of_isIdentifierChar {c : Char} (h : isIdentifierChar c = true) :
    isBlank c = false := by
  simp only [isIdentifierChar, Char.isAlphanum, isAlpha_eq, Char.isDigit, Bool.or_eq_true,
    Bool.and_eq_true, decide_eq_true_eq, beq_iff_eq, UInt32.le_iff_toNat_le, ge_iff_le] at h
  simp only [isBlank, Char.toNat]
  rcases h with (((h | h) | h) | h) | h
  · simp at h ⊢
    omega
  · simp at h ⊢
    omega
  · simp at h ⊢
    omega
  · rw [h]
    decide
  · rw [h]
    decide

theorem isIdentifierChar_of_isDigit {c : Char} (h : c.isDigit = true) :
    isIdentifierChar c = true := by
  simp [isIdentifierChar, Char.isAlphanum, h]

theorem isDigit_of_isAlpha {c : Char} (h : c.isAlpha = true) : c.isDigit = false := by
  simp only [isAlpha_eq, Bool.or_eq_true, Bool.and_eq_true, decide_eq_true_eq,
    UInt32.le_iff_toNat_le] at h
  rw [Char.isDigit, Bool.and_eq_false_iff, decide_eq_false_iff_not, decide_eq_false_iff_not,
    UInt32.le_iff_toNat_le, ge_iff_le, UInt32.le_iff_toNat_le]
  simp at h ⊢
  omega

def beginsPrimary (c : Char) : Bool :=
  c == '$' || c == '[' || isIdentifierChar c

theorem isBlank_of_beginsPrimary {c : Char} (h : beginsPrimary c = true) :
    isBlank c = false := by
  simp only [beginsPrimary, Bool.or_eq_true, beq_iff_eq] at h
  rcases h with (h | h) | h
  · rw [h]
    decide
  · rw [h]
    decide
  · exact isBlank_of_isIdentifierChar h

end Text

namespace Boundary

theorem of_head {c : Char} {rest : List Char} (hname : Text.isIdentifierChar c = false)
    (hother : c ≠ '(' ∧ c ≠ '[' ∧ c ≠ '.') : Boundary (c :: rest) where
  name := by
    intro found hfound
    cases hfound
    exact hname
  call := fun h => hother.1 (Option.some.inj h)
  index := fun h => hother.2.1 (Option.some.inj h)
  member := by
    intro d more h
    exact absurd (List.cons.inj h).1 hother.2.2

theorem dots (rest : List Char) : Boundary ('.' :: '.' :: rest) where
  name := by
    intro c hc
    cases hc
    decide
  call := by simp
  index := by simp
  member := by
    intro c more h
    cases h
    decide

theorem of_blanks {gap rest : List Char} (hgap : ∀ c ∈ gap, Text.isBlank c = true)
    (hne : gap ≠ []) : Boundary (gap ++ rest) := by
  cases gap with
  | nil => exact absurd rfl hne
  | cons c more =>
      have hblank := hgap c List.mem_cons_self
      refine of_head ?_ ⟨?_, ?_, ?_⟩
      · cases hname : Text.isIdentifierChar c with
        | false => rfl
        | true =>
            rw [Text.isBlank_of_isIdentifierChar hname] at hblank
            cases hblank
      · rintro rfl
        exact absurd hblank (by decide)
      · rintro rfl
        exact absurd hblank (by decide)
      · rintro rfl
        exact absurd hblank (by decide)

theorem blanks_append {gap rest : List Char} (hgap : ∀ c ∈ gap, Text.isBlank c = true)
    (h : Boundary rest) : Boundary (gap ++ rest) := by
  by_cases hne : gap = []
  · rw [hne]
    exact h
  · exact of_blanks hgap hne

end Boundary

/-!
## Integers and keywords
-/

namespace Literal

theorem isDigit_newline : Char.isDigit '\n' = false := by
  decide

/-- The character is not taken for a part of the literal in front of it. -/
def endsBefore (value : Literal) (c : Char) : Bool :=
  match value with
  | int _ => !c.isDigit
  | _ => !Text.isIdentifierChar c

theorem endsBefore_of_name {c : Char} (value : Literal) (h : Text.isIdentifierChar c = false) :
    value.endsBefore c = true := by
  have hdigit : c.isDigit = false := by
    cases hdigit : c.isDigit with
    | false => rfl
    | true =>
        rw [Text.isIdentifierChar_of_isDigit hdigit] at h
        cases h
  cases value with
  | int n => simp [endsBefore, hdigit]
  | _ => simp [endsBefore, h]

theorem isIdentifierChar_of_endsBefore {value : Literal} {c : Char} (hint : ∀ n, value ≠ int n)
    (h : value.endsBefore c = true) : Text.isIdentifierChar c = false := by
  cases value with
  | int n => exact absurd rfl (hint n)
  | _ => simpa [endsBefore] using h

section Signed

variable {digits rest : List Char} (hdigits : Integer.IsDigits digits)

include hdigits

theorem numeral_signed (negative : Bool) (r : String) (l : Nat)
    (hrest : ∀ c ∈ rest.head?, c.isDigit = false) :
    numeral ⟨r, Integer.signed negative digits ++ rest, l⟩ = Integer.signed negative digits
      ∧ ((⟨r, Integer.signed negative digits ++ rest, l⟩ : Cursor).accept '-').dropWhile
          Char.isDigit = ⟨r, rest, l⟩ := by
  have hall := List.all_eq_true.mp hdigits.2
  have hlines := Cursor.newlines_eq_zero isDigit_newline hall
  have htake := Cursor.takeWhile_append_stop hall hrest
  have hdrop := Cursor.dropWhile_append_stop hall hrest
  rw [numeral, Integer.signed]
  cases negative with
  | true =>
      rw [if_pos rfl, List.cons_append, List.nil_append, Cursor.accept_of_current rfl,
        List.cons_append, Cursor.advance_cons]
      simp only [Cursor.takeWhile, Cursor.dropWhile, htake, hdrop, hlines]
      exact ⟨rfl, rfl⟩
  | false =>
      have hcurrent : ∀ l', (⟨r, digits ++ rest, l'⟩ : Cursor).current ≠ some '-' := by
        intro l' h
        rcases hdigits.exists_cons with ⟨d, more, rfl, hdigit⟩
        cases h
        cases hdigit
      rw [if_neg Bool.false_ne_true, List.nil_append, Cursor.accept_of_ne (hcurrent l),
        if_neg (hcurrent l)]
      simp only [Cursor.takeWhile, Cursor.dropWhile, htake, hdrop, hlines]
      exact ⟨rfl, rfl⟩

theorem atInteger_signed (negative : Bool) (r : String) (l : Nat) :
    atInteger ⟨r, Integer.signed negative digits ++ rest, l⟩ = true := by
  rcases hdigits.exists_cons with ⟨d, more, rfl, hdigit⟩
  rw [Integer.signed]
  cases negative with
  | true => rfl
  | false =>
      rw [if_neg Bool.false_ne_true, List.nil_append, atInteger, Cursor.current,
        List.cons_append, List.head?_cons, Option.any_some, hdigit, Bool.or_true]

theorem begins_signed (negative : Bool) :
    ∃ c more, Integer.signed negative digits = c :: more ∧ Text.beginsPrimary c = true := by
  rcases hdigits.exists_cons with ⟨d, more, rfl, hdigit⟩
  rw [Integer.signed]
  cases negative with
  | true => exact ⟨_, _, rfl, rfl⟩
  | false =>
      refine ⟨d, more, rfl, ?_⟩
      rw [Text.beginsPrimary, Text.isIdentifierChar_of_isDigit hdigit, Bool.or_true]

theorem outcome_readInteger (negative : Bool) (r : String) (l : Nat)
    (hrest : ∀ c ∈ rest.head?, c.isDigit = false)
    (h : atInteger ⟨r, Integer.signed negative digits ++ rest, l⟩ = true) :
    (readInteger ⟨r, Integer.signed negative digits ++ rest, l⟩ h).outcome
      = match Integer.ofDigits? negative digits with
        | some n => .ok (int n, ⟨r, rest, l⟩)
        | none =>
            .error ⟨.invalidInteger (String.ofList (Integer.signed negative digits)), ⟨r, l⟩⟩ := by
  rcases numeral_signed hdigits negative r l hrest with ⟨hnumeral, hbehind⟩
  have hread := congrArg Integer.ofText? hnumeral
  rw [Integer.ofText?_signed negative hdigits] at hread
  rw [readInteger, hread]
  cases Integer.ofDigits? negative digits with
  | some n => simp only [Attempt.outcome_ok, hbehind]
  | none =>
      rw [hnumeral]
      rfl

end Signed

theorem begins_text (value : Literal) :
    ∃ c more, value.text.toList = c :: more ∧ Text.beginsPrimary c = true := by
  cases value with
  | null => exact ⟨_, _, rfl, rfl⟩
  | bool value =>
      cases value with
      | false => exact ⟨_, _, rfl, rfl⟩
      | true => exact ⟨_, _, rfl, rfl⟩
  | int n =>
      have htext : (int n).text.toList = (Numeral.ofValue n).spelling :=
        (Integer.toList_repr n.toInt).trans (Numeral.spelling_ofValue n).symm
      rw [htext]
      exact begins_signed (Numeral.ofValue n).isDigits _

theorem ofKeyword?_text {value : Literal} {nullAllowed : Bool} (hint : ∀ n, value ≠ int n)
    (hnull : value = .null → nullAllowed = true) :
    Text.IsIdentifier value.text.toList ∧ ofKeyword? nullAllowed value.text = some value := by
  cases value with
  | null =>
      rw [hnull rfl]
      decide
  | bool value =>
      cases value <;> cases nullAllowed <;> decide
  | int n => exact absurd rfl (hint n)

theorem outcome_readKeyword {value : Literal} {nullAllowed : Bool} (r : String) (l : Nat)
    {rest : List Char} (hrest : ∀ c ∈ rest.head?, Text.isIdentifierChar c = false)
    (hint : ∀ n, value ≠ int n) (hnull : value = .null → nullAllowed = true) :
    (readKeyword nullAllowed ⟨r, value.text.toList ++ rest, l⟩).outcome
      = .ok (value, ⟨r, rest, l⟩) := by
  rcases ofKeyword?_text hint hnull with ⟨hname, hkeyword⟩
  have hidentifier := Cursor.outcome_identifier "identifier without $" r l hname hrest
  rw [String.ofList_toList] at hidentifier
  rcases Attempt.eq_ok_of_outcome hidentifier with ⟨hlt, heq⟩
  rw [readKeyword, heq]
  dsimp only
  rw [hkeyword]
  rfl

end Literal

theorem EndsName.endsBefore {rest : List Char} (h : EndsName rest) (value : Literal) :
    ∀ c ∈ rest.head?, value.endsBefore c = true :=
  fun c hc => value.endsBefore_of_name (h.name c hc)

/-!
## Operands

The first character of an operand tells which form it has.
-/

namespace Expr

open Attempt

variable {nullAllowed : Bool} {r : String} {l : Nat} {rest : List Char}

theorem readOperand_integer {c : Cursor} (h : Literal.atInteger c = true) :
    readOperand nullAllowed c = (Literal.readInteger c h).mapValue (literal · c.location) := by
  rcases c with ⟨r, cs, l⟩
  cases cs with
  | nil => cases h
  | cons x cs =>
      have hx : x ≠ '$' ∧ ¬ (x = '"' ∨ x = '\'') := by
        constructor
        · rintro rfl
          cases h
        · rintro (rfl | rfl)
          · cases h
          · cases h
      rw [readOperand, Cursor.next?_cons]
      dsimp only
      rw [if_neg hx.1, if_neg hx.2, dif_pos h]

theorem readOperand_keyword {c : Cursor} (h : c.atLetter = true) :
    readOperand nullAllowed c
      = (Literal.readKeyword nullAllowed c).mapValue (literal · c.location) := by
  rcases c with ⟨r, cs, l⟩
  cases cs with
  | nil => cases h
  | cons x cs =>
      have hletter : x.isAlpha = true := h
      have hx : x ≠ '$' ∧ ¬ (x = '"' ∨ x = '\'') ∧ x ≠ '[' := by
        refine ⟨?_, ?_, ?_⟩
        · rintro rfl
          cases h
        · rintro (rfl | rfl)
          · cases h
          · cases h
        · rintro rfl
          cases h
      have hinteger : ¬ Literal.atInteger ⟨r, x :: cs, l⟩ = true := by
        rw [Literal.atInteger, Cursor.current, List.head?_cons, Option.any_some,
          Text.isDigit_of_isAlpha hletter, Bool.or_false, decide_eq_true_eq]
        rintro rfl
        cases hletter
      rw [readOperand, Cursor.next?_cons]
      dsimp only
      rw [if_neg hx.1, if_neg hx.2.1, dif_neg hinteger, if_neg hx.2.2, if_pos hletter]

theorem outcome_signed {digits : List Char} (hdigits : Integer.IsDigits digits) (negative : Bool)
    (hrest : ∀ c ∈ rest.head?, c.isDigit = false) :
    (readOperand nullAllowed ⟨r, Integer.signed negative digits ++ rest, l⟩).outcome
      = match Integer.ofDigits? negative digits with
        | some n => .ok (literal (.int n) ⟨r, l⟩, ⟨r, rest, l⟩)
        | none =>
            .error ⟨.invalidInteger (String.ofList (Integer.signed negative digits)), ⟨r, l⟩⟩ := by
  rw [readOperand_integer (Literal.atInteger_signed hdigits negative r l), outcome_mapValue,
    Literal.outcome_readInteger hdigits negative r l hrest]
  cases Integer.ofDigits? negative digits <;> rfl

theorem outcome_numeral (n : Numeral)
    (hrest : ∀ c ∈ rest.head?, (Literal.int n.value).endsBefore c = true) :
    (readOperand nullAllowed ⟨r, n.spelling ++ rest, l⟩).outcome
      = .ok (literal (.int n.value) ⟨r, l⟩, ⟨r, rest, l⟩) := by
  have hdigit : ∀ c ∈ rest.head?, c.isDigit = false := by
    intro c hc
    simpa [Literal.endsBefore] using hrest c hc
  have hread := @outcome_signed nullAllowed r l rest n.digits n.isDigits n.negative hdigit
  rw [n.ofDigits?_digits] at hread
  exact hread

theorem outcome_literal {value : Literal} (hnull : value = .null -> nullAllowed = true)
    (hrest : ∀ c ∈ rest.head?, value.endsBefore c = true) :
    (readOperand nullAllowed ⟨r, value.text.toList ++ rest, l⟩).outcome
      = .ok (literal value ⟨r, l⟩, ⟨r, rest, l⟩) := by
  by_cases hint : ∃ n, value = .int n
  · rcases hint with ⟨n, rfl⟩
    have htext : (Literal.int n).text.toList = (Numeral.ofValue n).spelling :=
      (Integer.toList_repr n.toInt).trans (Numeral.spelling_ofValue n).symm
    rw [htext]
    exact outcome_numeral (Numeral.ofValue n) hrest
  · have hword : ∀ n, value ≠ .int n := fun n h => hint ⟨n, h⟩
    have hletter : (⟨r, value.text.toList ++ rest, l⟩ : Cursor).atLetter = true :=
      Cursor.atLetter_append (Literal.ofKeyword?_text hword hnull).1 r l rest
    have hname : ∀ c ∈ rest.head?, Text.isIdentifierChar c = false :=
      fun c hc => Literal.isIdentifierChar_of_endsBefore hword (hrest c hc)
    rw [readOperand_keyword hletter, outcome_mapValue,
      Literal.outcome_readKeyword r l hname hword hnull]
    rfl

theorem gives_literal {value : Literal} (hnull : value = .null -> nullAllowed = true)
    (hrest : EndsName rest) :
    (readOperand nullAllowed ⟨r, value.text.toList ++ rest, l⟩).Gives r rest
      fun found => found = literal value ⟨r, l⟩ :=
  ⟨_, l, outcome_literal hnull (hrest.endsBefore value), rfl⟩

theorem gives_dollar {cs : List Char} {P : Expr → Prop}
    (h : ∀ l', (Reference.readRequired ⟨r, cs, l'⟩).Gives r rest fun ref => P (.ofReference ref)) :
    (readOperand nullAllowed ⟨r, '$' :: cs, l⟩).Gives r rest P := by
  rw [readOperand, Cursor.next?_cons]
  dsimp only
  rw [if_pos rfl]
  exact ((h _).after _).mapValue fun _ hp => hp

theorem gives_bracket {cs : List Char} {P : Expr → Prop}
    (h : ∀ l', (readListHere ⟨r, l⟩ ⟨r, cs, l'⟩).Gives r rest P)
    (hcs : ∀ c ∈ cs.head?, Text.isBlank c = false) {gap : List Char}
    (hgap : ∀ c ∈ gap, Text.isBlank c = true) :
    (readOperand nullAllowed ⟨r, '[' :: (gap ++ cs), l⟩).Gives r rest P := by
  have hinteger : ¬ Literal.atInteger ⟨r, '[' :: (gap ++ cs), l⟩ = true := by
    rw [Literal.atInteger, Cursor.current]
    exact Bool.false_ne_true
  rw [readOperand, Cursor.next?_cons]
  dsimp only
  rw [if_neg (by decide), if_neg (by decide), dif_neg hinteger, if_pos rfl, readList]
  refine (Gives.within ?_ _).after _
  rw [Cursor.skipSpace_append hgap hcs]
  exact h _

theorem gives_primary {gap cs : List Char} {P : Expr → Prop}
    (hgap : ∀ c ∈ gap, Text.isBlank c = true) (hcs : ∀ c ∈ cs.head?, Text.isBlank c = false)
    (h : ∀ l', (readOperand nullAllowed ⟨r, cs, l'⟩).Gives r rest P) :
    (readPrimary nullAllowed ⟨r, gap ++ cs, l⟩).Gives r (rest.dropWhile Text.isBlank) P := by
  rw [readPrimary]
  refine (Gives.within ?_ _).skipSpace
  rw [Cursor.skipSpace_append hgap hcs]
  exact h _

/-!
## Lists and ranges
-/

section Lists

variable {c : Cursor} {location : Location} {P : Expr → Prop} {Q : List Expr → Prop}
  {R : Expr → Prop} {mid : List Char}

theorem gives_listHere_nil :
    (readListHere location ⟨r, ']' :: rest, l⟩).Gives r rest
      fun found => found = .list [] location := by
  rw [readListHere, Cursor.take?_cons]
  exact ⟨_, _, rfl, rfl⟩

theorem gives_listHere_cons (hc : c.current ≠ some ']') (hmid : mid.head? ≠ some '.')
    (hfirst : (readPrimary false c).Gives r mid P)
    (hitems : ∀ l', (readItems ⟨r, mid, l'⟩).Gives r rest Q)
    (hlist : ∀ first items, P first -> Q items -> R (.list (first :: items) location)) :
    (readListHere location c).Gives r rest R := by
  rw [readListHere, Cursor.take?_of_ne hc]
  refine hfirst.andThen fun first l' _ hp => ?_
  have hdot : (⟨r, mid, l'⟩ : Cursor).current ≠ some '.' := hmid
  rw [Cursor.take?_of_ne hdot]
  exact (hitems l').mapValue fun items hq => hlist first items hp hq

theorem gives_listHere_range (hc : c.current ≠ some ']')
    (hfirst : (readPrimary false c).Gives r ('.' :: '.' :: mid) P)
    (hlast : ∀ l', (readPrimary false ⟨r, mid, l'⟩).Gives r (']' :: rest) P')
    (hrange : ∀ first last, P first -> P' last -> R (.range first last location)) :
    (readListHere location c).Gives r rest R := by
  rw [readListHere, Cursor.take?_of_ne hc]
  refine hfirst.andThen fun first l' _ hp => ?_
  rw [Cursor.take?_cons]
  refine Gives.after ?_ _
  rw [readRangeEnd]
  refine (Cursor.gives_require _).andThen fun _ l₁ _ _ => ?_
  refine (hlast l₁).andThen fun last l₂ _ hp' => ?_
  exact (Cursor.gives_require _).mapValue fun _ _ => hrange first last hp hp'

theorem gives_items_nil :
    (readItems ⟨r, ']' :: rest, l⟩).Gives r rest fun found => found = [] := by
  rw [readItems, Cursor.take?_of_ne (by simp [Cursor.current])]
  exact (Cursor.gives_require _).mapValue fun _ _ => rfl

theorem gives_items_cons {cs : List Char} {Q' : List Expr → Prop}
    (hitem : ∀ l', (readPrimary false ⟨r, cs, l'⟩).Gives r mid P)
    (hitems : ∀ l', (readItems ⟨r, mid, l'⟩).Gives r rest Q)
    (hcons : ∀ item items, P item -> Q items -> Q' (item :: items)) :
    (readItems ⟨r, ',' :: cs, l⟩).Gives r rest Q' := by
  rw [readItems, Cursor.take?_cons]
  refine Gives.after ?_ _
  refine (hitem _).andThen fun item l' _ hp => ?_
  exact (hitems l').mapValue fun items hq => hcons item items hp hq

end Lists

end Expr

/-!
## Arguments
-/

namespace Reference

open Attempt

variable {r : String} {l : Nat} {cs mid rest : List Char} {P : Expr → Prop}
  {Q Q' : List Expr → Prop}

theorem gives_arguments {gap : List Char} (hgap : ∀ c ∈ gap, Text.isBlank c = true)
    (hcs : ∀ c ∈ cs.head?, Text.isBlank c = false)
    (h : ∀ l', (readArgumentsHere ⟨r, cs, l'⟩).Gives r rest Q) :
    (readArguments ⟨r, gap ++ cs, l⟩).Gives r rest Q := by
  rw [readArguments]
  refine Gives.within ?_ _
  rw [Cursor.skipSpace_append hgap hcs]
  exact h _

theorem gives_argumentsHere_nil :
    (readArgumentsHere ⟨r, ')' :: rest, l⟩).Gives r rest fun found => found = [] := by
  rw [readArgumentsHere, Cursor.take?_cons]
  exact ⟨_, _, rfl, rfl⟩

theorem gives_argumentsHere_last {c : Cursor} (hc : c.current ≠ some ')')
    (hnone : c.current ≠ none)
    (harg : (Expr.readPrimary true c).Gives r (')' :: rest) P) (hlast : ∀ arg, P arg -> Q [arg]) :
    (readArgumentsHere c).Gives r rest Q := by
  rw [readArgumentsHere, Cursor.take?_of_ne hc]
  dsimp only
  rw [if_neg hnone]
  refine harg.andThen fun arg l' _ hp => ?_
  rw [Cursor.take?_of_ne (by simp [Cursor.current])]
  refine gives_argumentsHere_nil.mapValue fun args hargs => ?_
  rw [hargs]
  exact hlast arg hp

theorem gives_argumentsHere_cons {c : Cursor} {gap : List Char} (hc : c.current ≠ some ')')
    (hnone : c.current ≠ none)
    (harg : (Expr.readPrimary true c).Gives r (',' :: (gap ++ mid)) P)
    (hgap : ∀ c ∈ gap, Text.isBlank c = true) (hmid : ∀ c ∈ mid.head?, Text.isBlank c = false)
    (hclosed : mid.head? ≠ some ')')
    (hargs : ∀ l', (readArgumentsHere ⟨r, mid, l'⟩).Gives r rest Q)
    (hcons : ∀ arg args, P arg -> Q args -> Q' (arg :: args)) :
    (readArgumentsHere c).Gives r rest Q' := by
  rw [readArgumentsHere, Cursor.take?_of_ne hc]
  dsimp only
  rw [if_neg hnone]
  refine harg.andThen fun arg l' _ hp => ?_
  rw [Cursor.take?_cons]
  dsimp only
  rw [if_neg]
  · refine Gives.after ?_ _
    exact (gives_arguments hgap hmid hargs).mapValue fun args hq => hcons arg args hp hq
  · rw [Cursor.skipSpace_append hgap hmid]
    exact hclosed

/-!
## Reference chains
-/

section Chains

variable {S : Reference → Prop} {lhs : Reference} {name : List Char}

theorem takeDot?_letter (hname : Text.IsIdentifier name) :
    takeDot? ⟨r, '.' :: (name ++ rest), l⟩
      = some ⟨⟨r, name ++ rest, l + Cursor.newlines ['.']⟩, Cursor.size_cons_lt⟩ := by
  rw [takeDot?, Cursor.take?_cons]
  exact if_pos (Cursor.atLetter_append hname r _ rest)

theorem takeDot?_boundary (hrest : Boundary rest) : takeDot? ⟨r, rest, l⟩ = none := by
  rw [takeDot?]
  by_cases hdot : (⟨r, rest, l⟩ : Cursor).current = some '.'
  · cases rest with
    | nil => cases hdot
    | cons x more =>
        cases hdot
        rw [Cursor.take?_cons]
        apply if_neg
        cases more with
        | nil => exact Bool.false_ne_true
        | cons c more => exact Bool.eq_false_iff.mp (hrest.member c more rfl)
  · rw [Cursor.take?_of_ne hdot]

theorem gives_suffixes_stop (hrest : Boundary rest) :
    (readSuffixes lhs ⟨r, rest, l⟩).Gives r rest fun found => found = lhs := by
  have hindex : (⟨r, rest, l⟩ : Cursor).current ≠ some '[' := hrest.index
  rw [readSuffixes, takeDot?_boundary hrest]
  dsimp only
  rw [Cursor.take?_of_ne hindex]
  exact ⟨lhs, l, rfl, rfl⟩

theorem gives_suffixes_member (hname : Text.IsIdentifier name) (hmid : EndsName mid)
    (h : ∀ l', (readSuffixes (.member lhs (String.ofList name) lhs.silent ⟨r, l⟩)
      ⟨r, mid, l'⟩).Gives r rest S) :
    (readSuffixes lhs ⟨r, '.' :: (name ++ mid), l⟩).Gives r rest S := by
  rw [readSuffixes, takeDot?_letter hname]
  refine (Gives.after ?_ _).weaken
  refine (Cursor.gives_identifier _ hname hmid.name).andMaybe fun found l' _ hfound => ?_
  have hcall : (⟨r, mid, l'⟩ : Cursor).current ≠ some '(' := hmid.call
  rw [Cursor.take?_of_ne hcall, hfound]
  exact h l'

theorem gives_suffixes_method (hname : Text.IsIdentifier name)
    (hargs : ∀ l', (readArguments ⟨r, cs, l'⟩).Gives r mid Q)
    (h : ∀ args l', Q args -> (readSuffixes (.method lhs (String.ofList name) args lhs.silent
      ⟨r, l⟩) ⟨r, mid, l'⟩).Gives r rest S) :
    (readSuffixes lhs ⟨r, '.' :: (name ++ '(' :: cs), l⟩).Gives r rest S := by
  have hparen : ∀ c ∈ ('(' :: cs).head?, Text.isIdentifierChar c = false :=
    Cursor.forall_head_cons (by decide)
  rw [readSuffixes, takeDot?_letter hname]
  refine (Gives.after ?_ _).weaken
  refine (Cursor.gives_identifier _ hname hparen).andMaybe fun found l' _ hfound => ?_
  rw [Cursor.take?_cons, hfound]
  refine (Gives.after ?_ _).weaken
  exact (hargs _).andMaybe fun args l₁ _ hq => h args l₁ hq

theorem gives_suffixes_index (hindex : ∀ l', (Expr.readPrimary false ⟨r, cs, l'⟩).Gives r
      (']' :: mid) P)
    (h : ∀ index l', P index -> (readSuffixes (.index lhs index lhs.silent ⟨r, l⟩)
      ⟨r, mid, l'⟩).Gives r rest S) :
    (readSuffixes lhs ⟨r, '[' :: cs, l⟩).Gives r rest S := by
  have hdot : takeDot? ⟨r, '[' :: cs, l⟩ = none := by
    rw [takeDot?, Cursor.take?_of_ne (by simp [Cursor.current])]
  rw [readSuffixes, hdot]
  dsimp only
  rw [Cursor.take?_cons]
  refine (Gives.after ?_ _).weaken
  refine (hindex _).andThen fun index l₁ _ hp => ?_
  exact (Cursor.gives_require _).andMaybe fun _ l₂ _ _ => h index l₂ hp

theorem gives_named {silent : Bool} (hname : Text.IsIdentifier name)
    (hmid : ∀ c ∈ mid.head?, Text.isIdentifierChar c = false)
    (h : ∀ l', (readSuffixes (.plain (String.ofList name) silent ⟨r, l⟩) ⟨r, mid, l'⟩).Gives r
      rest S) :
    (readNamed silent ⟨r, name ++ mid, l⟩).Gives r rest S := by
  rw [readNamed]
  refine (Cursor.gives_identifier _ hname hmid).andMaybe fun found l' _ hfound => ?_
  rw [hfound]
  exact h l'

theorem gives_required {silent : Bool} {c : Char} (hletter : c.isAlpha = true)
    (h : ∀ l', (readNamed silent ⟨r, c :: cs, l'⟩).Gives r rest S) :
    (readRequired ⟨r, (if silent then ['!'] else []) ++ c :: cs, l⟩).Gives r rest S := by
  have hbrace : ∀ l', (⟨r, c :: cs, l'⟩ : Cursor).current ≠ some '\x7b' := by
    intro l' hc
    cases hc
    cases hletter
  cases silent with
  | false =>
      have hbang : (⟨r, c :: cs, l⟩ : Cursor).current ≠ some '!' := by
        intro hc
        cases hc
        cases hletter
      rw [if_neg Bool.false_ne_true, List.nil_append, readRequired, Cursor.take?_of_ne hbang]
      dsimp only
      rw [readBraced, Cursor.take?_of_ne (hbrace l)]
      exact h l
  | true =>
      rw [if_pos rfl, List.cons_append, List.nil_append, readRequired, Cursor.take?_cons]
      refine Gives.after ?_ _
      rw [readBraced, Cursor.take?_of_ne (hbrace _)]
      exact h _

end Chains

end Reference

end Stencil
