import Stencil.Proofs.Reading
import Stencil.Template

/-!
# Reading nodes

What the readers of pieces, directives and bodies give, one rule for each way they can go.  The
rules keep lines exact: a piece is blamed on the line of its first character.
-/

namespace Stencil

open Attempt

/-!
## Names of directives
-/

namespace Directive

variable {name : List Char} {rest : List Char}

theorem outcome_readName (r : String) (l : Nat) (hname : Text.IsIdentifier name)
    (hrest : ∀ c ∈ rest.head?, Text.isIdentifierChar c = false) :
    (readName ⟨r, name ++ rest, l⟩).outcome = .ok (String.ofList name, ⟨r, rest, l⟩) := by
  have hbrace : (⟨r, name ++ rest, l⟩ : Cursor).current ≠ some '\x7b' := by
    intro hc
    have hletter := Cursor.atLetter_append hname r l rest
    rw [Cursor.atLetter, hc] at hletter
    cases hletter
  rw [readName, Cursor.take?_of_ne hbrace]
  exact Cursor.outcome_identifier _ r l hname hrest

theorem outcome_readName_braced (r : String) (l : Nat) (hname : Text.IsIdentifier name) :
    (readName ⟨r, '\x7b' :: (name ++ '\x7d' :: rest), l⟩).outcome
      = .ok (String.ofList name, ⟨r, rest, l⟩) := by
  have hclose : ∀ c ∈ ('\x7d' :: rest).head?, Text.isIdentifierChar c = false :=
    Cursor.forall_head_cons (by decide)
  rw [readName, Cursor.take?_cons, outcome_after]
  refine outcome_andThen (Cursor.outcome_identifier _ r _ hname hclose) fun _ => ?_
  rw [outcome_mapValue, Cursor.outcome_expect_here r _ rfl]
  rfl

theorem beginsAt_append (hname : Text.IsIdentifier name) (r : String) (l : Nat) :
    beginsAt ⟨r, name ++ rest, l⟩ = true := by
  rw [beginsAt, Cursor.atLetter_append hname, Bool.or_true]

end Directive

namespace Node

variable {r : String} {l : Nat} {cs : List Char} {c inner behind : Cursor}
  {location : Location} {e : Located ParseError}

/-!
## Pieces
-/

/-- One piece is there, and the cursor `behind` is the one behind it. -/
def ReadsPiece (c : Cursor) (piece : Piece) (behind : Cursor) : Prop :=
  ∃ h, readPiece c = .ok (some ⟨piece, behind, h⟩)

theorem readPiece_nil : readPiece ⟨r, [], l⟩ = .ok none := by
  rw [readPiece]
  rfl

theorem readsPiece_of_outcome {x : Attempt (Parsed c.size Piece)} {piece : Piece}
    (hc : readPiece c = x.map some) (hx : x.outcome = .ok (piece, behind)) :
    ReadsPiece c piece behind := by
  rcases eq_ok_of_outcome hx with ⟨h, rfl⟩
  exact ⟨h, hc⟩

theorem readPiece_plain {x : Char} (hx : Text.isPlain x = true) :
    readPiece ⟨r, x :: cs, l⟩
      = (Except.ok (((readText [x] ⟨r, l⟩ ⟨r, cs, l + Cursor.newlines [x]⟩).afterStep
          Cursor.size_cons_lt).map Piece.node) : Attempt _).map some := by
  have hdollar : x ≠ '$' := by
    rintro rfl
    cases hx
  have hhash : x ≠ '#' := by
    rintro rfl
    cases hx
  rw [readPiece, Cursor.next?_cons]
  dsimp only
  rw [if_neg hdollar, if_neg hhash]
  rfl

theorem readsPiece_text {x : Char} {more rest : List Char} (hx : Text.isPlain x = true)
    (hmore : ∀ c ∈ more, Text.isPlain c = true) (hrest : ∀ c ∈ rest.head?, Text.isPlain c = false) :
    ReadsPiece ⟨r, x :: (more ++ rest), l⟩ (.node (.text (String.ofList (x :: more)) ⟨r, l⟩))
      ⟨r, rest, l + Cursor.newlines (x :: more)⟩ := by
  have hlines : l + Cursor.newlines [x] + Cursor.newlines more
      = l + Cursor.newlines (x :: more) := by
    rw [Nat.add_assoc, ← Cursor.newlines_append]
    rfl
  refine readsPiece_of_outcome (readPiece_plain hx) ?_
  rw [outcome_ok, ← hlines]
  simp only [Parsed.map, Parsed.afterStep, Parsed.within, readText, Cursor.takeWhile,
    Cursor.dropWhile, List.singleton_append]
  rw [Cursor.takeWhile_append_stop hmore hrest, Cursor.dropWhile_append_stop hmore hrest]

theorem readPiece_directive (hbegins : Directive.beginsAt ⟨r, cs, l⟩ = true) :
    readPiece ⟨r, '#' :: cs, l⟩
      = ((readDirective ⟨r, l⟩ ⟨r, cs, l⟩).after Cursor.size_cons_lt).map some := by
  have hhash : '#' ≠ '$' := by
    decide
  rw [readPiece, Cursor.next?_cons]
  dsimp only
  rw [if_neg hhash, if_pos rfl]
  exact if_pos hbegins

theorem readsPiece_directive {piece : Piece} (hbegins : Directive.beginsAt ⟨r, cs, l⟩ = true)
    (h : (readDirective ⟨r, l⟩ ⟨r, cs, l⟩).outcome = .ok (piece, behind)) :
    ReadsPiece ⟨r, '#' :: cs, l⟩ piece behind :=
  readsPiece_of_outcome (readPiece_directive hbegins) ((outcome_after _ _).trans h)

theorem readPiece_directive_error (hbegins : Directive.beginsAt ⟨r, cs, l⟩ = true)
    (h : (readDirective ⟨r, l⟩ ⟨r, cs, l⟩).outcome = .error e) :
    readPiece ⟨r, '#' :: cs, l⟩ = .error e := by
  rw [readPiece_directive hbegins, eq_error_of_outcome h]
  rfl

/-!
## Directives

What follows the name of a directive depends on which one it is.
-/

section

variable {name : String}

theorem outcome_directive_stop {stop : Stop}
    (hname : (Directive.readName c).outcome = .ok (name, inner))
    (h : Directive.ofName name = .stop stop) :
    (readDirective location c).outcome = .ok (.stop stop location, inner.accept '\n') := by
  rw [readDirective]
  refine outcome_andMaybe hname fun _ => ?_
  rw [h]
  rfl

theorem outcome_directive_conditional
    (hname : (Directive.readName c).outcome = .ok (name, inner))
    (h : Directive.ofName name = .conditional) :
    (readDirective location c).outcome
      = (readConditional .conditional location inner).outcome.map
          fun found => (.node found.1, found.2) := by
  rw [readDirective]
  refine outcome_andMaybe hname fun _ => ?_
  rw [h]
  dsimp only
  rw [outcome_weaken, outcome_mapValue]

theorem outcome_directive_set
    (hname : (Directive.readName c).outcome = .ok (name, inner))
    (h : Directive.ofName name = .set) :
    (readDirective location c).outcome
      = (readSet location inner).outcome.map fun found => (.node found.1, found.2) := by
  rw [readDirective]
  refine outcome_andMaybe hname fun _ => ?_
  rw [h]
  dsimp only
  rw [outcome_weaken, outcome_mapValue]

theorem outcome_directive_forEach {head : String × Expr}
    (hname : (Directive.readName c).outcome = .ok (name, inner))
    (h : Directive.ofName name = .forEach)
    (hhead : (readLoopHead inner).outcome = .ok (head, behind)) :
    (readDirective location c).outcome
      = (readBody (.inside .forEach location.line) behind).outcome.map fun found =>
          (.node (.forEach head.1 head.2 (.sequence found.1.nodes location) location),
            found.2) := by
  rw [readDirective]
  refine outcome_andMaybe hname fun _ => ?_
  rw [h]
  dsimp only
  rw [outcome_weaken]
  refine outcome_andMaybe hhead fun _ => ?_
  rw [outcome_mapValue]

end

section

variable {word rest : List Char} {stop : Stop} {x : Char}

theorem readsPiece_stop_braced (hword : Text.IsIdentifier word)
    (hstop : Directive.ofName (String.ofList word) = .stop stop) :
    ReadsPiece ⟨r, '#' :: '\x7b' :: (word ++ '\x7d' :: rest), l⟩ (.stop stop ⟨r, l⟩)
      ((⟨r, rest, l⟩ : Cursor).accept '\n') :=
  readsPiece_directive rfl
    (outcome_directive_stop (Directive.outcome_readName_braced r l hword) hstop)

theorem readsPiece_stop (hword : Text.IsIdentifier word)
    (hstop : Directive.ofName (String.ofList word) = .stop stop)
    (hname : Text.isIdentifierChar x = false) (hline : x ≠ '\n') :
    ReadsPiece ⟨r, '#' :: (word ++ x :: rest), l⟩ (.stop stop ⟨r, l⟩) ⟨r, x :: rest, l⟩ := by
  have haccept : (⟨r, x :: rest, l⟩ : Cursor).accept '\n' = ⟨r, x :: rest, l⟩ :=
    Cursor.accept_of_ne fun h => hline (Option.some.inj h)
  have hrest : ∀ c ∈ (x :: rest).head?, Text.isIdentifierChar c = false :=
    Cursor.forall_head_cons hname
  have hread := Directive.outcome_readName r l hword hrest
  rw [← haccept]
  exact readsPiece_directive (Directive.beginsAt_append hword r l)
    (outcome_directive_stop hread hstop)

end

/-!
## Bodies
-/

section

variable {construct : Construct}

theorem outcome_body_node {node : Node} (h : ReadsPiece c (.node node) behind) :
    (readBody construct c).outcome
      = (readBody construct behind).outcome.map fun found => (found.1.cons node, found.2) := by
  rcases h with ⟨hlt, h⟩
  rw [readBody, h]
  dsimp only
  rw [outcome_weaken, outcome_afterStep, outcome_mapValue]

theorem outcome_body_stop {stop : Stop} (h : ReadsPiece c (.stop stop location) behind)
    (haccepts : construct.accepts stop = true) :
    (readBody construct c).outcome = .ok (⟨[], stop, haccepts, location⟩, behind) := by
  rcases h with ⟨hlt, h⟩
  rw [readBody, h]
  dsimp only
  rw [dif_pos haccepts]
  rfl

theorem outcome_body_rejects {stop : Stop} (h : ReadsPiece c (.stop stop location) behind)
    (hrejects : construct.accepts stop = false) :
    (readBody construct c).outcome = .error ⟨.unexpectedStop stop construct, location⟩ := by
  rcases h with ⟨hlt, h⟩
  rw [readBody, h]
  dsimp only
  rw [dif_neg (Bool.eq_false_iff.mp hrejects)]
  rfl

theorem outcome_body_error (h : readPiece c = .error e) :
    (readBody construct c).outcome = .error e := by
  rw [readBody, h]
  rfl

theorem outcome_body_end (haccepts : construct.accepts .endOfFile = true) :
    (readBody construct ⟨r, [], l⟩).outcome
      = .ok (⟨[], .endOfFile, haccepts, ⟨r, l⟩⟩, ⟨r, [], l⟩) := by
  rw [readBody, readPiece_nil]
  dsimp only
  rw [dif_pos haccepts]
  rfl

theorem outcome_body_unfinished (hrejects : construct.accepts .endOfFile = false) :
    (readBody construct ⟨r, [], l⟩).outcome
      = .error ⟨.unexpectedStop .endOfFile construct, ⟨r, l⟩⟩ := by
  rw [readBody, readPiece_nil]
  dsimp only
  rw [dif_neg (Bool.eq_false_iff.mp hrejects)]
  rfl

end

/-!
## Heads

The parentheses of a directive may have blanks in front of them, and take one line end behind them
along.
-/

section

variable {gap rest : List Char} {l' : Nat}

theorem outcome_closing (f : Unit → α) :
    (((⟨r, ')' :: rest, l⟩ : Cursor).expect ')').mapValue f |>.accept '\n').outcome
      = .ok (f (), (⟨r, rest, l⟩ : Cursor).accept '\n') := by
  rw [outcome_accept, outcome_mapValue, Cursor.outcome_expect_here r l rfl]
  rfl

theorem outcome_condition {condition : Expr} (hgap : ∀ c ∈ gap, Text.isBlank c = true)
    (hread : (Expr.read ⟨r, cs, l + Cursor.newlines gap⟩).outcome
      = .ok (condition, ⟨r, ')' :: rest, l'⟩)) :
    (readCondition ⟨r, gap ++ '(' :: cs, l⟩).outcome
      = .ok (condition, (⟨r, rest, l'⟩ : Cursor).accept '\n') := by
  rw [readCondition]
  refine outcome_andThen (Cursor.outcome_expect r l hgap rfl) fun _ => ?_
  refine outcome_andThen hread fun _ => ?_
  exact outcome_closing _

end

/-!
## Conditionals

The stop behind the body of a condition decides how the conditional goes on.
-/

section

variable {opener : Opener} {condition : Expr} {nodes : List Node} {stopLocation : Location}

theorem outcome_conditional_closing
    (hcondition : (readCondition c).outcome = .ok (condition, inner))
    {h : (Construct.inside opener location.line).accepts .closing = true}
    (hbody : (readBody (.inside opener location.line) inner).outcome
      = .ok (⟨nodes, .closing, h, stopLocation⟩, behind)) :
    (readConditional opener location c).outcome
      = .ok (.conditional condition (.sequence nodes location) (.sequence [] stopLocation) location,
          behind) := by
  rw [readConditional]
  refine outcome_andMaybe hcondition fun _ => ?_
  refine outcome_andMaybe hbody fun _ => ?_
  rfl

theorem outcome_conditional_elseIf
    (hcondition : (readCondition c).outcome = .ok (condition, inner))
    {h : (Construct.inside opener location.line).accepts .elseIf = true}
    (hbody : (readBody (.inside opener location.line) inner).outcome
      = .ok (⟨nodes, .elseIf, h, stopLocation⟩, behind)) :
    (readConditional opener location c).outcome
      = (readConditional .elseIf stopLocation behind).outcome.map fun found =>
          (.conditional condition (.sequence nodes location) found.1 location, found.2) := by
  rw [readConditional]
  refine outcome_andMaybe hcondition fun _ => ?_
  refine outcome_andMaybe hbody fun _ => ?_
  exact (outcome_weaken _).trans (outcome_mapValue _ _)

theorem outcome_conditional_elseBranch
    (hcondition : (readCondition c).outcome = .ok (condition, inner))
    {h : (Construct.inside opener location.line).accepts .elseBranch = true}
    (hbody : (readBody (.inside opener location.line) inner).outcome
      = .ok (⟨nodes, .elseBranch, h, stopLocation⟩, behind)) :
    (readConditional opener location c).outcome
      = (readBody (.inside .elseBranch stopLocation.line) behind).outcome.map fun found =>
          (.conditional condition (.sequence nodes location)
            (.sequence found.1.nodes stopLocation) location, found.2) := by
  rw [readConditional]
  refine outcome_andMaybe hcondition fun _ => ?_
  refine outcome_andMaybe hbody fun _ => ?_
  exact outcome_mapValue _ _

theorem outcome_conditional_error
    (hcondition : (readCondition c).outcome = .ok (condition, inner))
    (hbody : (readBody (.inside opener location.line) inner).outcome = .error e) :
    (readConditional opener location c).outcome = .error e := by
  rw [readConditional]
  refine outcome_andMaybe hcondition fun _ => ?_
  exact outcome_andMaybe_error hbody

end

end Node

/-!
## Templates
-/

namespace Template

variable {resource text : String} {e : Located ParseError}

theorem parse_of_body {body : Body .outside} {rest : Cursor}
    (h : (Node.readBody .outside (Cursor.ofText resource text)).outcome = .ok (body, rest)) :
    parse resource text = (ofNodes resource body.nodes).checkMacros := by
  rcases eq_ok_of_outcome h with ⟨hlt, h⟩
  rw [parse, readNodes, h]
  rfl

theorem parse_of_body_error
    (h : (Node.readBody .outside (Cursor.ofText resource text)).outcome = .error e) :
    parse resource text = .error e := by
  rw [parse, readNodes, eq_error_of_outcome h]
  rfl

end Template

end Stencil
