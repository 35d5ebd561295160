import Stencil.Expr.Reader
import Stencil.Proofs.Reading

/-!
# Reading expressions back

What the readers of operators, operands and chains give on a text whose beginning is known.  As for
primaries, each rule follows one reader through one form and assumes what the parts give.
-/

namespace Stencil

/-!
## Operators

The longest operator wins, so an operator of one character must not stand in front of an equals
sign.
-/

namespace Operator

theorem longest?_one {op : Operator} {x : Char} {next : Option Char}
    (hop : op.symbol.toList = [x]) (hnext : next ≠ some '=') : longest? x next = some op := by
  have hsecond : ∀ other ∈ startingWith x, other.length = 2 -> other.second? = some '=' := by
    revert hop
    cases op <;> intro hop <;> cases hop <;> decide
  have hnone : (startingWith x).find? (fun op => op.length = 2 ∧ op.second? = next) = none := by
    rw [List.find?_eq_none]
    intro other hother
    rw [decide_eq_true_eq]
    rintro ⟨hlength, hsame⟩
    exact hnext (hsame.symm.trans (hsecond other hother hlength))
  rw [longest?, hnone]
  revert hop
  cases op <;> intro hop <;> cases hop <;> decide

theorem longest?_two {op : Operator} {x y : Char} (hop : op.symbol.toList = [x, y]) :
    longest? x (some y) = some op := by
  revert hop
  cases op <;> intro hop <;> cases hop <;> decide

theorem symbol_chars {op : Operator} (hop : op ≠ stop) :
    (∃ x, op.symbol.toList = [x]) ∨ ∃ x y, op.symbol.toList = [x, y] := by
  cases op with
  | stop => exact absurd rfl hop
  | or => exact Or.inr ⟨'|', '|', rfl⟩
  | and => exact Or.inr ⟨'&', '&', rfl⟩
  | equal => exact Or.inr ⟨'=', '=', rfl⟩
  | notEqual => exact Or.inr ⟨'!', '=', rfl⟩
  | less => exact Or.inl ⟨'<', rfl⟩
  | lessOrEqual => exact Or.inr ⟨'<', '=', rfl⟩
  | greater => exact Or.inl ⟨'>', rfl⟩
  | greaterOrEqual => exact Or.inr ⟨'>', '=', rfl⟩
  | plus => exact Or.inl ⟨'+', rfl⟩
  | minus => exact Or.inl ⟨'-', rfl⟩
  | times => exact Or.inl ⟨'*', rfl⟩
  | divide => exact Or.inl ⟨'/', rfl⟩
  | remainder => exact Or.inl ⟨'%', rfl⟩

theorem newlines_symbol (op : Operator) : Cursor.newlines op.symbol.toList = 0 := by
  cases op <;> rfl

theorem read_symbol {op : Operator} (hop : op ≠ stop) (r : String) (l : Nat) {rest : List Char}
    (hrest : rest.head? ≠ some '=') :
    ∃ hlt, read ⟨r, op.symbol.toList ++ rest, l⟩ = .ok (some ⟨op, ⟨r, rest, l⟩, hlt⟩) := by
  have hread : ∃ p, read ⟨r, op.symbol.toList ++ rest, l⟩ = .ok (some p) ∧ p.value = op
      ∧ p.rest = ⟨r, rest, l + Cursor.newlines op.symbol.toList⟩ := by
    rcases symbol_chars hop with ⟨x, hsymbol⟩ | ⟨x, y, hsymbol⟩
    · have hlength : ¬ op.length = 2 := by
        rw [length, hsymbol]
        simp
      have hlongest : longest? x (⟨r, rest, l + Cursor.newlines [x]⟩ : Cursor).current = some op :=
        longest?_one hsymbol hrest
      rw [hsymbol, List.cons_append, List.nil_append, read, Cursor.next?_cons]
      dsimp only
      rw [hlongest]
      dsimp only
      rw [if_neg hlength]
      exact ⟨_, rfl, rfl, rfl⟩
    · have hlength : op.length = 2 := by
        rw [length, hsymbol]
        rfl
      have hlongest : longest? x (⟨r, y :: rest, l + Cursor.newlines [x]⟩ : Cursor).current
          = some op := longest?_two hsymbol
      have hlines : Cursor.newlines [x, y] = Cursor.newlines [x] + Cursor.newlines [y] :=
        Cursor.newlines_append [x] [y]
      rw [hsymbol, hlines, ← Nat.add_assoc, List.cons_append, List.cons_append, List.nil_append,
        read, Cursor.next?_cons]
      dsimp only
      rw [hlongest]
      dsimp only
      rw [if_pos hlength]
      exact ⟨_, rfl, rfl, rfl⟩
  rw [newlines_symbol] at hread
  rcases hread with ⟨p, hread, hvalue, hbehind⟩
  cases p with
  | mk value behind hlt =>
      have hvalue : value = op := hvalue
      have hbehind : behind = ⟨r, rest, l⟩ := hbehind
      subst hvalue hbehind
      exact ⟨hlt, hread⟩

theorem read_close (r : String) (l : Nat) (rest : List Char) :
    read ⟨r, ')' :: rest, l⟩ = .ok none := by
  have hnone : longest? ')' (⟨r, rest, l + Cursor.newlines [')']⟩ : Cursor).current = none := by
    have hstart : startingWith ')' = [] := by
      decide
    rw [longest?, hstart, List.find?_nil, List.find?_nil]
  rw [read, Cursor.next?_cons]
  dsimp only
  rw [hnone]
  exact if_pos (by decide)

end Operator

/-!
## Operands and chains
-/

namespace Expr

open Attempt

variable {r : String} {l : Nat} {cs mid rest : List Char} {P : Expr → Prop}
  {Q : List (Operator × Expr) → Prop}

theorem gives_unary {gap : List Char} (hgap : ∀ c ∈ gap, Text.isBlank c = true)
    (hcs : ∀ c ∈ cs.head?, Text.isBlank c = false)
    (h : ∀ l', (readUnaryHere ⟨r, cs, l'⟩).Gives r rest P) :
    (readUnary ⟨r, gap ++ cs, l⟩).Gives r (rest.dropWhile Text.isBlank) P := by
  rw [readUnary]
  refine (Gives.within ?_ _).skipSpace
  rw [Cursor.skipSpace_append hgap hcs]
  exact h _

theorem gives_unaryHere_group (h : ∀ l', (read ⟨r, cs, l'⟩).Gives r (')' :: rest) P) :
    (readUnaryHere ⟨r, '(' :: cs, l⟩).Gives r rest P := by
  rw [readUnaryHere, Cursor.take?_cons]
  refine Gives.after ?_ _
  refine (h _).andThen fun inner l' _ hp => ?_
  exact (Cursor.gives_expect (by decide)).mapValue fun _ _ => hp

theorem gives_unaryHere_not {R : Expr → Prop}
    (h : ∀ l', (readUnary ⟨r, cs, l'⟩).Gives r rest P)
    (hnot : ∀ operand, P operand -> R (.not operand ⟨r, l⟩)) :
    (readUnaryHere ⟨r, '!' :: cs, l⟩).Gives r rest R := by
  have hparen : (⟨r, '!' :: cs, l⟩ : Cursor).current ≠ some '(' := by
    intro hc
    cases hc
  rw [readUnaryHere, Cursor.take?_of_ne hparen]
  dsimp only
  rw [Cursor.take?_cons]
  refine Gives.after ?_ _
  exact (h _).mapValue hnot

theorem gives_unaryHere_primary {c : Cursor} (hparen : c.current ≠ some '(')
    (hbang : c.current ≠ some '!') (h : (readPrimary false c).Gives r rest P) :
    (readUnaryHere c).Gives r rest P := by
  rw [readUnaryHere, Cursor.take?_of_ne hparen]
  dsimp only
  rw [Cursor.take?_of_ne hbang]
  exact h

theorem gives_links {gap : List Char} (hgap : ∀ c ∈ gap, Text.isBlank c = true)
    (hcs : ∀ c ∈ cs.head?, Text.isBlank c = false)
    (h : ∀ l', (readLinksHere ⟨r, cs, l'⟩).Gives r rest Q) :
    (readLinks ⟨r, gap ++ cs, l⟩).Gives r rest Q := by
  rw [readLinks]
  refine Gives.afterSpace ?_
  rw [Cursor.skipSpace_append hgap hcs]
  exact h _

theorem gives_linksHere_close :
    (readLinksHere ⟨r, ')' :: rest, l⟩).Gives r (')' :: rest) fun found => found = [] := by
  rw [readLinksHere, Operator.read_close]
  exact ⟨[], l, rfl, rfl⟩

theorem gives_linksHere_cons {op : Operator} {Q' : List (Operator × Expr) → Prop}
    (hop : op ≠ .stop) (hcs : cs.head? ≠ some '=')
    (hoperand : ∀ l', (readUnary ⟨r, cs, l'⟩).Gives r mid P)
    (hlinks : ∀ l', (readLinks ⟨r, mid, l'⟩).Gives r rest Q)
    (hcons : ∀ operand links, P operand -> Q links -> Q' ((op, operand) :: links)) :
    (readLinksHere ⟨r, op.symbol.toList ++ cs, l⟩).Gives r rest Q' := by
  rcases Operator.read_symbol hop r l hcs with ⟨hlt, hread⟩
  rw [readLinksHere, hread]
  refine (Gives.after ?_ _).weaken
  refine (hoperand l).andMaybe fun operand l' _ hp => ?_
  exact (hlinks l').mapValue fun links hq => hcons operand links hp hq

theorem gives_read {c : Cursor} {R : Expr → Prop} (hfirst : (readUnary c).Gives r mid P)
    (hlinks : ∀ l', (readLinks ⟨r, mid, l'⟩).Gives r rest Q)
    (hchain : ∀ first links, P first -> Q links -> R (Grouping.ofChain first links).toExpr) :
    (read c).Gives r rest R := by
  rw [read]
  refine hfirst.andMaybe fun first l' _ hp => ?_
  exact (hlinks l').mapValue fun links hq => hchain first links hp hq

end Expr

end Stencil
