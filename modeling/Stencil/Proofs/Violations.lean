import Stencil.Template

/-!
# Violations of the grammar

Reading nodes never asks which macros there are.  Whatever goes wrong while a text is read is a
violation of the grammar, and a call of an unknown macro is none: it is found in the finished tree.
-/

namespace Stencil

/-- Every cause but a call of an unknown macro. -/
def ParseError.isViolation : ParseError → Bool
  | undefinedMacro _ => false
  | _ => true

namespace Attempt

/-!
## The judgment
-/

/-- If the attempt fails, the grammar is violated. -/
def Complains (x : Attempt α) : Prop :=
  ∀ e, x = .error e -> e.cause.isViolation = true

namespace Complains

theorem ok (value : α) : Complains (.ok value) := by
  intro e h
  cases h

theorem error {e : Located ParseError} (h : e.cause.isViolation = true) :
    Complains (.error e : Attempt α) := by
  intro found hfound
  cases hfound
  exact h

theorem map {x : Attempt α} (hx : x.Complains) (f : α → β) : Complains (x.map f) := by
  cases x with
  | ok value => exact .ok (f value)
  | error e => exact .error (hx e rfl)

variable {r : Cursor}

theorem within {x : Attempt (Parsed m α)} (hx : x.Complains) (h : m ≤ n) :
    (x.within h).Complains :=
  hx.map _

theorem weaken {x : Attempt (Parsed n α)} (hx : x.Complains) : x.weaken.Complains :=
  hx.map _

theorem after {x : Attempt (Parsed r.size α)} (hx : x.Complains) (h : r.size < n) :
    (x.after h).Complains :=
  hx.map _

theorem afterStep {x : Attempt (Parsed (r.size + 1) α)} (hx : x.Complains) (h : r.size < n) :
    (x.afterStep h).Complains :=
  hx.map _

theorem afterSpace {x : Attempt (Parsed (r.skipSpace.size + 1) α)} (hx : x.Complains) :
    x.afterSpace.Complains :=
  hx.map _

theorem skipSpace {x : Attempt (Parsed n α)} (hx : x.Complains) : x.skipSpace.Complains :=
  hx.map _

theorem accept {x : Attempt (Parsed n α)} (hx : x.Complains) (y : Char) :
    (x.accept y).Complains :=
  hx.map _

theorem mapValue {x : Attempt (Parsed n α)} (hx : x.Complains) (f : α → β) :
    (x.mapValue f).Complains :=
  hx.map _

theorem andThen {x : Attempt (Parsed n α)}
    {next : α → (r : Cursor) → r.size < n → Attempt (Parsed r.size β)} (hx : x.Complains)
    (hnext : ∀ value r h, (next value r h).Complains) : (x.andThen next).Complains := by
  cases x with
  | error e => exact .error (hx e rfl)
  | ok p => exact (hnext p.value p.rest p.size_rest_lt).map _

theorem andMaybe {x : Attempt (Parsed n α)}
    {next : α → (r : Cursor) → r.size < n → Attempt (Parsed (r.size + 1) β)} (hx : x.Complains)
    (hnext : ∀ value r h, (next value r h).Complains) : (x.andMaybe next).Complains := by
  cases x with
  | error e => exact .error (hx e rfl)
  | ok p => exact (hnext p.value p.rest p.size_rest_lt).map _

end Complains

end Attempt

open Attempt

/-!
## The smallest readers
-/

namespace Cursor

theorem complains_require (x : Char) (what : String) (c : Cursor) :
    (c.require x what).Complains := by
  rw [require]
  split
  · exact .ok _
  · exact .error rfl

theorem complains_expect (x : Char) (c : Cursor) : (c.expect x).Complains :=
  (complains_require x _ c.skipSpace).within _

theorem complains_identifier (what : String) (c : Cursor) : (c.identifier what).Complains := by
  rw [identifier]
  split
  · exact .ok _
  · exact .error rfl

end Cursor

namespace Literal

theorem complains_integer {c : Cursor} (h : atInteger c = true) :
    (readInteger c h).Complains := by
  rw [readInteger]
  split
  · exact .ok _
  · exact .error rfl

theorem complains_keyword (nullAllowed : Bool) (c : Cursor) :
    (readKeyword nullAllowed c).Complains := by
  rw [readKeyword]
  split
  · next e heq => exact .error (c.complains_identifier _ e heq)
  · split
    · exact .ok _
    · exact .error rfl

end Literal

/-!
## Operands
-/

mutual

theorem Expr.complains_primary (nullAllowed : Bool) (c : Cursor) :
    (Expr.readPrimary nullAllowed c).Complains := by
  rw [Expr.readPrimary]
  exact ((Expr.complains_operand nullAllowed c.skipSpace).within _).skipSpace
termination_by 4 * c.size + 2
decreasing_by
  have := c.size_skipSpace_le
  omega

theorem Expr.complains_operand (nullAllowed : Bool) (c : Cursor) :
    (Expr.readOperand nullAllowed c).Complains := by
  rw [Expr.readOperand]
  split
  · exact .error rfl
  · next x c₁ h₁ _ =>
      split
      · exact ((Reference.complains_required c₁).after _).mapValue _
      · split
        · exact .error rfl
        · split
          · next integer => exact (Literal.complains_integer integer).mapValue _
          · split
            · exact (Expr.complains_list c.location c₁).after _
            · split
              · exact (Literal.complains_keyword nullAllowed c).mapValue _
              · exact .error rfl
termination_by 4 * c.size + 1

theorem Expr.complains_list (location : Location) (c : Cursor) :
    (Expr.readList location c).Complains := by
  rw [Expr.readList]
  exact (Expr.complains_listHere location c.skipSpace).within _
termination_by 4 * c.size + 4
decreasing_by
  have := c.size_skipSpace_le
  omega

theorem Expr.complains_listHere (location : Location) (c : Cursor) :
    (Expr.readListHere location c).Complains := by
  rw [Expr.readListHere]
  split
  · exact .ok _
  · refine (Expr.complains_primary false c).andThen fun first c₁ h₁ => ?_
    split
    · next c₂ h₂ _ => exact (Expr.complains_rangeEnd first location c₂).after _
    · exact (Expr.complains_items c₁).mapValue _
termination_by 4 * c.size + 3

theorem Expr.complains_rangeEnd (first : Expr) (location : Location) (c : Cursor) :
    (Expr.readRangeEnd first location c).Complains := by
  rw [Expr.readRangeEnd]
  refine (c.complains_require '.' _).andThen fun _ c₁ h₁ => ?_
  refine (Expr.complains_primary false c₁).andThen fun last c₂ h₂ => ?_
  exact (c₂.complains_require ']' _).mapValue _
termination_by 4 * c.size

theorem Expr.complains_items (c : Cursor) : (Expr.readItems c).Complains := by
  rw [Expr.readItems]
  split
  · next c₁ h₁ _ =>
      refine Complains.after ?_ _
      refine (Expr.complains_primary false c₁).andThen fun item c₂ h₂ => ?_
      exact (Expr.complains_items c₂).mapValue _
  · exact (c.complains_require ']' _).mapValue _
termination_by 4 * c.size

theorem Reference.complains_required (c : Cursor) : (Reference.readRequired c).Complains := by
  rw [Reference.readRequired]
  split
  · next c₁ h₁ _ => exact (Reference.complains_braced true c₁).after _
  · exact Reference.complains_braced false c
termination_by 4 * c.size + 2

theorem Reference.complains_braced (silent : Bool) (c : Cursor) :
    (Reference.readBraced silent c).Complains := by
  rw [Reference.readBraced]
  split
  · next c₁ h₁ _ =>
      refine Complains.after ?_ _
      refine (Reference.complains_named silent c₁).andThen fun ref c₂ h₂ => ?_
      exact (c₂.complains_expect '\x7d').mapValue _
  · exact Reference.complains_named silent c
termination_by 4 * c.size + 1

theorem Reference.complains_named (silent : Bool) (c : Cursor) :
    (Reference.readNamed silent c).Complains := by
  rw [Reference.readNamed]
  refine (c.complains_identifier _).andMaybe fun name c₁ h₁ => ?_
  exact Reference.complains_suffixes _ c₁
termination_by 4 * c.size

theorem Reference.complains_suffixes (lhs : Reference) (c : Cursor) :
    (Reference.readSuffixes lhs c).Complains := by
  rw [Reference.readSuffixes]
  split
  · next c₁ h₁ _ =>
      refine Complains.weaken (Complains.after ?_ _)
      refine (c₁.complains_identifier _).andMaybe fun name c₂ h₂ => ?_
      split
      · next c₃ h₃ _ =>
          refine Complains.weaken (Complains.after ?_ _)
          refine (Reference.complains_arguments c₃).andMaybe fun args c₄ h₄ => ?_
          exact Reference.complains_suffixes _ c₄
      · exact Reference.complains_suffixes _ c₂
  · split
    · next c₁ h₁ _ =>
        refine Complains.weaken (Complains.after ?_ _)
        refine (Expr.complains_primary false c₁).andThen fun index c₂ h₂ => ?_
        refine (c₂.complains_require ']' _).andMaybe fun _ c₃ h₃ => ?_
        exact Reference.complains_suffixes _ c₃
    · exact .ok _
termination_by 4 * c.size

theorem Reference.complains_arguments (c : Cursor) : (Reference.readArguments c).Complains := by
  rw [Reference.readArguments]
  exact (Reference.complains_argumentsHere c.skipSpace).within _
termination_by 4 * c.size + 4
decreasing_by
  have := c.size_skipSpace_le
  omega

theorem Reference.complains_argumentsHere (c : Cursor) :
    (Reference.readArgumentsHere c).Complains := by
  rw [Reference.readArgumentsHere]
  split
  · exact .ok _
  · split
    · exact .error rfl
    · refine (Expr.complains_primary true c).andThen fun arg c₁ h₁ => ?_
      split
      · next c₂ h₂ _ =>
          split
          · exact .error rfl
          · exact ((Reference.complains_arguments c₂).mapValue _).after _
      · exact (Reference.complains_argumentsHere c₁).mapValue _
termination_by 4 * c.size + 3

end

/-!
## Chains
-/

theorem Operator.complains_read (c : Cursor) : (Operator.read c).Complains := by
  rw [Operator.read]
  split
  · exact .ok _
  · split
    · split
      · exact .ok _
      · exact .ok _
    · split
      · exact .ok _
      · exact .error rfl

mutual

theorem Expr.complains (c : Cursor) : (Expr.read c).Complains := by
  rw [Expr.read]
  refine (Expr.complains_unary c).andMaybe fun first c₁ h₁ => ?_
  exact (Expr.complains_links c₁).mapValue _
termination_by 3 * c.size + 2

theorem Expr.complains_unary (c : Cursor) : (Expr.readUnary c).Complains := by
  rw [Expr.readUnary]
  exact ((Expr.complains_unaryHere c.skipSpace).within _).skipSpace
termination_by 3 * c.size + 1
decreasing_by
  have := c.size_skipSpace_le
  omega

theorem Expr.complains_unaryHere (c : Cursor) : (Expr.readUnaryHere c).Complains := by
  rw [Expr.readUnaryHere]
  split
  · next c₁ h₁ _ =>
      refine Complains.after ?_ _
      refine (Expr.complains c₁).andThen fun inner c₂ h₂ => ?_
      exact (c₂.complains_expect ')').mapValue _
  · split
    · next c₁ h₁ _ => exact ((Expr.complains_unary c₁).mapValue _).after _
    · exact Expr.complains_primary false c
termination_by 3 * c.size

theorem Expr.complains_links (c : Cursor) : (Expr.readLinks c).Complains := by
  rw [Expr.readLinks]
  exact (Expr.complains_linksHere c.skipSpace).afterSpace
termination_by 3 * c.size + 1
decreasing_by
  have := c.size_skipSpace_le
  omega

theorem Expr.complains_linksHere (c : Cursor) : (Expr.readLinksHere c).Complains := by
  rw [Expr.readLinksHere]
  split
  · next e heq => exact .error (Operator.complains_read c e heq)
  · exact .ok _
  · next op c₁ h₁ _ =>
      refine Complains.weaken (Complains.after ?_ _)
      refine (Expr.complains_unary c₁).andMaybe fun operand c₂ h₂ => ?_
      exact (Expr.complains_links c₂).mapValue _
termination_by 3 * c.size

end

/-!
## Nodes
-/

namespace Node

theorem complains_quotedBlock (location : Location) (c : Cursor) :
    (readQuotedBlock location c).Complains := by
  rw [readQuotedBlock]
  split
  · exact .ok _
  · exact .error rfl

theorem complains_hash (location : Location) (c : Cursor) :
    (readHash location c).Complains := by
  rw [readHash]
  split
  · exact .ok _
  · split
    · exact .ok _
    · split
      · split
        · next c₂ h₂ _ => exact (((complains_quotedBlock location c₂).afterStep _).after _).weaken
        · exact .ok _
      · exact .ok _

theorem complains_output (silent : Bool) (opening : List Char) (location : Location)
    (c : Cursor) : (readOutput silent opening location c).Complains := by
  rw [readOutput]
  split
  · next c₁ h₁ _ =>
      split
      · refine Complains.weaken (Complains.after ?_ _)
        refine (Reference.complains_named silent c₁).andThen fun ref c₂ h₂ => ?_
        exact (c₂.complains_expect '\x7d').mapValue _
      · exact .ok _
  · split
    · exact ((Reference.complains_named silent c).mapValue _).weaken
    · exact .ok _

theorem complains_dollar (location : Location) (c : Cursor) :
    (readDollar location c).Complains := by
  rw [readDollar]
  split
  · next c₁ h₁ _ => exact ((complains_output true _ location c₁).afterStep _).weaken
  · exact complains_output false _ location c

theorem complains_name (c : Cursor) : (Directive.readName c).Complains := by
  rw [Directive.readName]
  split
  · next c₁ h₁ _ =>
      refine Complains.after ?_ _
      refine (c₁.complains_identifier _).andThen fun name c₂ h₂ => ?_
      exact (c₂.complains_expect '\x7d').mapValue _
  · exact c.complains_identifier _

theorem complains_set (location : Location) (c : Cursor) : (readSet location c).Complains := by
  rw [readSet]
  refine (c.complains_expect '(').andThen fun _ c₁ h₁ => ?_
  refine (c₁.complains_expect '$').andThen fun _ c₂ h₂ => ?_
  refine (c₂.complains_identifier _).andThen fun name c₃ h₃ => ?_
  refine (c₃.complains_expect '=').andThen fun _ c₄ h₄ => ?_
  refine (Expr.complains c₄).andThen fun value c₅ h₅ => ?_
  exact ((c₅.complains_expect ')').mapValue _).accept '\n'

theorem complains_call (name : String) (location : Location) (c : Cursor) :
    (readCall name location c).Complains := by
  rw [readCall]
  refine ((c.skipSpace.complains_require '(' _).within _).andThen fun _ c₁ h₁ => ?_
  exact ((Reference.complains_arguments c₁).mapValue _).accept '\n'

theorem complains_inKeyword (c : Cursor) : (readInKeyword c).Complains := by
  rw [readInKeyword]
  refine (c.complains_require 'i' _).andThen fun _ c₁ h₁ => ?_
  exact c₁.complains_require 'n' _

theorem complains_loopHead (c : Cursor) : (readLoopHead c).Complains := by
  rw [readLoopHead]
  refine (c.complains_expect '(').andThen fun _ c₁ h₁ => ?_
  refine (c₁.complains_expect '$').andThen fun _ c₂ h₂ => ?_
  refine (c₂.complains_identifier _).skipSpace.andThen fun name c₃ h₃ => ?_
  refine (complains_inKeyword c₃).andThen fun _ c₄ h₄ => ?_
  refine (Expr.complains c₄).andThen fun collection c₅ h₅ => ?_
  exact ((c₅.complains_expect ')').mapValue _).accept '\n'

theorem complains_condition (c : Cursor) : (readCondition c).Complains := by
  rw [readCondition]
  refine (c.complains_expect '(').andThen fun _ c₁ h₁ => ?_
  refine (Expr.complains c₁).andThen fun condition c₂ h₂ => ?_
  exact ((c₂.complains_expect ')').mapValue _).accept '\n'

mutual

theorem complains_piece (c : Cursor) : (readPiece c).Complains := by
  rw [readPiece]
  split
  · exact .ok _
  · next x c₁ h₁ _ =>
      split
      · exact (((complains_dollar c.location c₁).afterStep _).mapValue _).map _
      · split
        · split
          · exact ((complains_directive c.location c₁).after _).map _
          · exact (((complains_hash c.location c₁).afterStep _).mapValue _).map _
        · exact .ok _
termination_by 5 * c.size

theorem complains_directive (location : Location) (c : Cursor) :
    (readDirective location c).Complains := by
  rw [readDirective]
  refine (complains_name c).andMaybe fun name c₁ h₁ => ?_
  split
  · exact .ok _
  · exact ((complains_conditional .conditional location c₁).mapValue _).weaken
  · refine Complains.weaken ((complains_loopHead c₁).andMaybe fun head c₂ h₂ => ?_)
    exact (complains_body _ c₂).mapValue _
  · exact ((complains_set location c₁).mapValue _).weaken
  · exact .error rfl
  · next name' _ => exact ((complains_call name' location c₁).mapValue _).weaken
termination_by 5 * c.size

theorem complains_conditional (opener : Opener) (location : Location) (c : Cursor) :
    (readConditional opener location c).Complains := by
  rw [readConditional]
  refine (complains_condition c).andMaybe fun condition c₁ h₁ => ?_
  refine (complains_body _ c₁).andMaybe fun body c₂ h₂ => ?_
  dsimp only
  split
  · exact .ok _
  · exact ((complains_conditional .elseIf body.location c₂).mapValue _).weaken
  · exact (complains_body _ c₂).mapValue _
  · next hstop => exact absurd hstop body.stop_ne_endOfFile
termination_by 5 * c.size

theorem complains_body (construct : Construct) (c : Cursor) :
    (readBody construct c).Complains := by
  rw [readBody]
  split
  · next e heq => exact .error (complains_piece c e heq)
  · split
    · exact .ok _
    · exact .error rfl
  · split
    · exact .ok _
    · exact .error rfl
  · next node c₁ h₁ _ =>
      exact (((complains_body construct c₁).mapValue _).afterStep _).weaken
termination_by 5 * c.size + 1

end

end Node

theorem Template.complains_nodes (resource text : String) :
    (readNodes resource text).Complains := by
  intro e h
  cases hbody : Node.readBody .outside (Cursor.ofText resource text) with
  | error found =>
      rw [readNodes, hbody] at h
      cases h
      exact Node.complains_body _ _ _ hbody
  | ok body =>
      rw [readNodes, hbody] at h
      cases h

end Stencil
