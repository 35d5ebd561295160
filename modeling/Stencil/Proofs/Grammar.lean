import Stencil.Expr.Grouping
import Stencil.Integer
import Stencil.Proofs.Consuming
import Stencil.Proofs.Layout

/-!
# The grammar of expressions

Which texts an expression may be written as, stated without the readers.  Blanks may stand around
operands and operators, operands may be put in parentheses, a reference may be put in braces, and
arguments may go without a comma.  Whatever the grammar allows is well formed.
-/

namespace Stencil

/-!
## Operands
-/

inductive Literal.Written (nullAllowed : Bool) : Literal → List Char → Prop where
  | integer {n : Int64} {sign digits : List Char} :
      sign = [] ∨ sign = ['-'] -> (∀ c ∈ digits, c.isDigit = true) ->
      Integer.ofText? (sign ++ digits) = some n ->
      Literal.Written nullAllowed (.int n) (sign ++ digits)
  | keyword {value : Literal} :
      (∀ n, value ≠ .int n) -> (value = .null -> nullAllowed = true) ->
      Literal.Written nullAllowed value value.text.toList

mutual

/-- A literal, a reference, a list or a range, without the blanks around it. -/
inductive Expr.WrittenOperand : Bool → Expr → List Char → Prop where
  | literal {nullAllowed : Bool} {value : Literal} {location : Location} {cs : List Char} :
      value.Written nullAllowed cs ->
      Expr.WrittenOperand nullAllowed (.literal value location) cs
  | reference {nullAllowed : Bool} {ref : Reference} {cs : List Char} :
      ref.Written cs -> Expr.WrittenOperand nullAllowed (.ofReference ref) cs
  | empty {nullAllowed : Bool} {location : Location} {gap : List Char} :
      Text.Blanks gap -> Expr.WrittenOperand nullAllowed (.list [] location) ('[' :: (gap ++ [']']))
  | list {nullAllowed : Bool} {items : List Expr} {location : Location} {cs : List Char} :
      Expr.WrittenItems items cs ->
      Expr.WrittenOperand nullAllowed (.list items location) ('[' :: (cs ++ [']']))
  | range {nullAllowed : Bool} {first last : Expr} {location : Location} {cs ds : List Char} :
      first.WrittenPrimary false cs -> last.WrittenPrimary false ds ->
      Expr.WrittenOperand nullAllowed (.range first last location)
        ('[' :: (cs ++ '.' :: '.' :: (ds ++ [']'])))

inductive Expr.WrittenPrimary : Bool → Expr → List Char → Prop where
  | spaced {nullAllowed : Bool} {e : Expr} {before cs behind : List Char} :
      Text.Blanks before -> e.WrittenOperand nullAllowed cs -> Text.Blanks behind ->
      Expr.WrittenPrimary nullAllowed e (before ++ (cs ++ behind))

inductive Expr.WrittenItems : List Expr → List Char → Prop where
  | one {e : Expr} {cs : List Char} : e.WrittenPrimary false cs -> Expr.WrittenItems [e] cs
  | more {e : Expr} {es : List Expr} {cs ds : List Char} :
      e.WrittenPrimary false cs -> Expr.WrittenItems es ds ->
      Expr.WrittenItems (e :: es) (cs ++ ',' :: ds)

/-- A reference with its dollar sign; blanks may stand in front of a closing brace. -/
inductive Reference.Written : Reference → List Char → Prop where
  | bare {silent : Bool} {ref : Reference} {cs : List Char} :
      ref.WrittenChain silent cs -> Reference.Written ref (Reference.sigil silent ++ cs)
  | braced {silent : Bool} {ref : Reference} {cs gap : List Char} :
      ref.WrittenChain silent cs -> Text.Blanks gap ->
      Reference.Written ref (Reference.sigil silent ++ '\x7b' :: (cs ++ (gap ++ ['\x7d'])))

inductive Reference.WrittenChain : Bool → Reference → List Char → Prop where
  | plain {silent : Bool} {name : String} {location : Location} :
      Text.IsIdentifier name.toList ->
      Reference.WrittenChain silent (.plain name silent location) name.toList
  | member {silent : Bool} {lhs : Reference} {name : String} {location : Location}
      {cs : List Char} :
      lhs.WrittenChain silent cs -> Text.IsIdentifier name.toList ->
      Reference.WrittenChain silent (.member lhs name silent location) (cs ++ '.' :: name.toList)
  | method {silent : Bool} {lhs : Reference} {name : String} {args : List Expr}
      {location : Location} {cs ds : List Char} :
      lhs.WrittenChain silent cs -> Text.IsIdentifier name.toList ->
      Expr.WrittenArguments args ds ->
      Reference.WrittenChain silent (.method lhs name args silent location)
        (cs ++ '.' :: (name.toList ++ '(' :: (ds ++ [')'])))
  | index {silent : Bool} {lhs : Reference} {index : Expr} {location : Location}
      {cs ds : List Char} :
      lhs.WrittenChain silent cs -> index.WrittenPrimary false ds ->
      Reference.WrittenChain silent (.index lhs index silent location)
        (cs ++ '[' :: (ds ++ [']']))

/-- What stands between the parentheses of a call; a comma between two arguments may be left
out. -/
inductive Expr.WrittenArguments : List Expr → List Char → Prop where
  | none {gap : List Char} : Text.Blanks gap -> Expr.WrittenArguments [] gap
  | one {e : Expr} {cs : List Char} : e.WrittenPrimary true cs -> Expr.WrittenArguments [e] cs
  | more {e other : Expr} {es : List Expr} {cs separator ds : List Char} :
      e.WrittenPrimary true cs -> separator = [] ∨ separator = [','] ->
      Expr.WrittenArguments (other :: es) ds ->
      Expr.WrittenArguments (e :: other :: es) (cs ++ (separator ++ ds))

end

/-!
## Chains of operands and operators
-/

mutual

inductive Expr.WrittenUnary : Expr → List Char → Prop where
  | primary {e : Expr} {cs : List Char} : e.WrittenPrimary false cs -> Expr.WrittenUnary e cs
  | group {e : Expr} {before cs gap behind : List Char} :
      Text.Blanks before -> e.Written cs -> Text.Blanks gap -> Text.Blanks behind ->
      Expr.WrittenUnary e (before ++ '(' :: (cs ++ (gap ++ ')' :: behind)))
  | not {operand : Expr} {location : Location} {before cs behind : List Char} :
      Text.Blanks before -> operand.WrittenUnary cs -> Text.Blanks behind ->
      Expr.WrittenUnary (.not operand location) (before ++ '!' :: (cs ++ behind))

inductive Expr.WrittenLinks : List (Operator × Expr) → List Char → Prop where
  | none {gap : List Char} : Text.Blanks gap -> Expr.WrittenLinks [] gap
  | more {op : Operator} {e : Expr} {links : List (Operator × Expr)} {gap cs ds : List Char} :
      Text.Blanks gap -> op ≠ .stop -> e.WrittenUnary cs -> Expr.WrittenLinks links ds ->
      Expr.WrittenLinks ((op, e) :: links) (gap ++ (op.symbol.toList ++ (cs ++ ds)))

inductive Expr.Written : Expr → List Char → Prop where
  | chain {first : Expr} {links : List (Operator × Expr)} {cs ds : List Char} :
      first.WrittenUnary cs -> Expr.WrittenLinks links ds ->
      Expr.Written (Grouping.ofChain first links).toExpr (cs ++ ds)

end

/-!
## Blanks around an operand
-/

namespace Expr.WrittenPrimary

variable {nullAllowed : Bool} {e : Expr} {gap cs : List Char}

theorem blanks_append (hgap : Text.Blanks gap) (h : e.WrittenPrimary nullAllowed cs) :
    e.WrittenPrimary nullAllowed (gap ++ cs) := by
  cases h with
  | spaced hbefore h hbehind =>
      rw [← List.append_assoc]
      exact .spaced (hgap.append hbefore) h hbehind

theorem append_blanks (h : e.WrittenPrimary nullAllowed cs) (hgap : Text.Blanks gap) :
    e.WrittenPrimary nullAllowed (cs ++ gap) := by
  cases h with
  | spaced hbefore h hbehind =>
      rw [List.append_assoc, List.append_assoc]
      exact .spaced hbefore h (hbehind.append hgap)

end Expr.WrittenPrimary

/-!
## Well-formedness
-/

theorem Literal.Written.null_of {nullAllowed : Bool} {value : Literal} {cs : List Char}
    (h : value.Written nullAllowed cs) : value = .null -> nullAllowed = true := by
  cases h with
  | integer => rintro ⟨⟩
  | keyword _ hnull => exact hnull

mutual

theorem Expr.WrittenOperand.wellFormed : ∀ {nullAllowed : Bool} {e : Expr} {cs : List Char},
    e.WrittenOperand nullAllowed cs -> e.isPrimary = true ∧ e.WellFormed nullAllowed
  | _, _, _, .literal h => ⟨rfl, h.null_of⟩
  | _, _, _, .reference h => ⟨rfl, Reference.Written.wellFormed h⟩
  | _, _, _, .empty _ => ⟨rfl, trivial⟩
  | _, _, _, .list h => ⟨rfl, Expr.WrittenItems.primaries h⟩
  | _, _, _, .range hfirst hlast =>
      ⟨rfl, Expr.WrittenPrimary.wellFormed hfirst, Expr.WrittenPrimary.wellFormed hlast⟩

theorem Expr.WrittenPrimary.wellFormed : ∀ {nullAllowed : Bool} {e : Expr} {cs : List Char},
    e.WrittenPrimary nullAllowed cs -> e.isPrimary = true ∧ e.WellFormed nullAllowed
  | _, _, _, .spaced _ h _ => Expr.WrittenOperand.wellFormed h

theorem Expr.WrittenItems.primaries : ∀ {items : List Expr} {cs : List Char},
    Expr.WrittenItems items cs -> Expr.Primaries false items
  | _, _, .one h => ⟨Expr.WrittenPrimary.wellFormed h, trivial⟩
  | _, _, .more h hmore => ⟨Expr.WrittenPrimary.wellFormed h, Expr.WrittenItems.primaries hmore⟩

theorem Reference.Written.wellFormed : ∀ {ref : Reference} {cs : List Char},
    ref.Written cs -> ref.WellFormed
  | _, _, .bare h => (Reference.WrittenChain.wellFormed h).1
  | _, _, .braced h _ => (Reference.WrittenChain.wellFormed h).1

theorem Reference.WrittenChain.wellFormed : ∀ {silent : Bool} {ref : Reference}
    {cs : List Char}, ref.WrittenChain silent cs -> ref.WellFormed ∧ ref.silent = silent
  | _, _, _, .plain hname => ⟨hname, rfl⟩
  | _, _, _, .member h hname => by
      rcases Reference.WrittenChain.wellFormed h with ⟨hlhs, hsilent⟩
      exact ⟨⟨hlhs, hname, hsilent.symm⟩, rfl⟩
  | _, _, _, .method h hname hargs => by
      rcases Reference.WrittenChain.wellFormed h with ⟨hlhs, hsilent⟩
      exact ⟨⟨hlhs, hname, hsilent.symm, Expr.WrittenArguments.primaries hargs⟩, rfl⟩
  | _, _, _, .index h hindex => by
      rcases Reference.WrittenChain.wellFormed h with ⟨hlhs, hsilent⟩
      exact ⟨⟨hlhs, hsilent.symm, Expr.WrittenPrimary.wellFormed hindex⟩, rfl⟩

theorem Expr.WrittenArguments.primaries : ∀ {args : List Expr} {cs : List Char},
    Expr.WrittenArguments args cs -> Expr.Primaries true args
  | _, _, .none _ => trivial
  | _, _, .one h => ⟨Expr.WrittenPrimary.wellFormed h, trivial⟩
  | _, _, .more h _ hmore =>
      ⟨Expr.WrittenPrimary.wellFormed h, Expr.WrittenArguments.primaries hmore⟩

end

theorem Grouping.wellFormed_toExpr (grouping : Grouping) (hfirst : grouping.first.WellFormed false)
    (hlinks : ∀ link ∈ grouping.links, link.1 ≠ .stop ∧ link.2.WellFormed false) :
    grouping.toExpr.WellFormed false := by
  induction grouping with
  | operand expr => exact hfirst
  | apply op lhs rhs ihl ihr =>
      have hop := hlinks (op, rhs.first) (List.mem_append_right _ List.mem_cons_self)
      refine ⟨hop.1, ihl hfirst fun link hlink => ?_, ihr hop.2 fun link hlink => ?_⟩
      · exact hlinks link (List.mem_append_left _ hlink)
      · exact hlinks link (List.mem_append_right _ (List.mem_cons_of_mem _ hlink))

theorem Grouping.links_ofChain (first : Expr) (links : List (Operator × Expr)) :
    (ofChain first links).first = first ∧ (ofChain first links).links = links := by
  have hgeneral : ∀ grouping : Grouping, (grouping.appendAll links).first = grouping.first
      ∧ (grouping.appendAll links).links = grouping.links ++ links := by
    induction links with
    | nil =>
        intro grouping
        exact ⟨rfl, (List.append_nil _).symm⟩
    | cons link rest ih =>
        intro grouping
        rcases ih (grouping.append link.1 link.2) with ⟨hfirst, hlinks⟩
        refine ⟨hfirst.trans (first_append _ _ _), hlinks.trans ?_⟩
        rw [links_append, List.append_assoc]
        rfl
  exact hgeneral (operand first)

mutual

theorem Expr.WrittenUnary.wellFormed : ∀ {e : Expr} {cs : List Char},
    e.WrittenUnary cs -> e.WellFormed false
  | _, _, .primary h => h.wellFormed.2
  | _, _, .group _ h _ _ => Expr.Written.wellFormed h
  | _, _, .not _ h _ => by
      rw [Expr.WellFormed]
      exact Expr.WrittenUnary.wellFormed h

theorem Expr.WrittenLinks.wellFormed : ∀ {links : List (Operator × Expr)} {cs : List Char},
    Expr.WrittenLinks links cs -> ∀ link ∈ links, link.1 ≠ .stop ∧ link.2.WellFormed false
  | _, _, .none _ => List.forall_mem_nil _
  | _, _, .more _ hop h hmore =>
      List.forall_mem_cons.mpr
        ⟨⟨hop, Expr.WrittenUnary.wellFormed h⟩, Expr.WrittenLinks.wellFormed hmore⟩

theorem Expr.Written.wellFormed : ∀ {e : Expr} {cs : List Char},
    e.Written cs -> e.WellFormed false
  | _, _, @Expr.Written.chain first links _ _ hfirst hlinks => by
      rcases Grouping.links_ofChain first links with ⟨hsame, hsame'⟩
      refine Grouping.wellFormed_toExpr _ ?_ ?_
      · rw [hsame]
        exact Expr.WrittenUnary.wellFormed hfirst
      · rw [hsame']
        exact Expr.WrittenLinks.wellFormed hlinks

end

end Stencil
