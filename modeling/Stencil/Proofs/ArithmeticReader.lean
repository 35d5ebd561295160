import Stencil.Proofs.Consuming
import Stencil.Proofs.FlatArithmetic
import Stencil.Proofs.HeadReader
import Stencil.Proofs.NodeForms
import Stencil.Rendering

/-!
# Arithmetic from text to text

A template that assigns a chain of numerals and writes the variable gives the value of the chain in
decimal, or fails for the first cause that is met when the chain is worked off as it stands.
-/

namespace Stencil

open Attempt

namespace Arithmetic

def linksSpelling : List (Arithmetic × Numeral) → List Char
  | [] => []
  | link :: rest =>
      ' ' :: (link.1.operator.symbol.toList ++ ' ' :: (link.2.spelling ++ linksSpelling rest))

def chainSpelling (first : Numeral) (rest : List (Arithmetic × Numeral)) : List Char :=
  first.spelling ++ linksSpelling rest

variable {r : String} {l : Nat}

theorem boundary_links (rest : List (Arithmetic × Numeral)) (after : List Char) :
    Boundary (linksSpelling rest ++ ')' :: after) := by
  cases rest with
  | nil => exact .of_head (by decide) (by decide)
  | cons link rest => exact .of_head (by decide) (by decide)

/-!
## Reading
-/

theorem outcome_unary_numeral (n : Numeral) {after : List Char} (hafter : EndsName after) :
    (Expr.readUnary ⟨r, ' ' :: (n.spelling ++ after), l⟩).outcome
      = .ok (n.literal ⟨r, l⟩, (⟨r, after, l⟩ : Cursor).skipSpace) := by
  have hbegins : ∀ c ∈ (n.spelling ++ after).head?, Text.beginsPrimary c = true := by
    rcases Literal.begins_signed n.isDigits n.negative with ⟨c, more, hspelling, hc⟩
    rw [Numeral.spelling, ← Integer.signed, hspelling]
    exact Cursor.forall_head_cons hc
  have hoperand : (Expr.readOperand false ⟨r, n.spelling ++ after, l⟩).outcome
      = .ok (n.literal ⟨r, l⟩, ⟨r, after, l⟩) := Expr.outcome_numeral n (hafter.endsBefore _)
  rw [← Cursor.skipSpace_skipSpace]
  exact (@Expr.outcome_unary_operand r l [' '] _ Node.isBlank_space hbegins).trans
    (congrArg _ hoperand)

theorem outcome_links_skipSpace (c : Cursor) :
    (Expr.readLinks c.skipSpace).outcome = (Expr.readLinks c).outcome := by
  rw [Expr.readLinks, Expr.readLinks, outcome_afterSpace, outcome_afterSpace,
    Cursor.skipSpace_skipSpace]

theorem outcome_links (rest : List (Arithmetic × Numeral)) (after : List Char) :
    (Expr.readLinks ⟨r, linksSpelling rest ++ ')' :: after, l⟩).outcome
      = .ok (Grouping.arithmeticLinks ⟨r, l⟩ rest, ⟨r, ')' :: after, l⟩) := by
  induction rest with
  | nil => exact Expr.outcome_links_close
  | cons link rest ih =>
      have hop : link.1.operator ≠ .stop := by
        cases link.1 <;> decide
      have hsymbol : ∀ c ∈ (link.1.operator.symbol.toList ++ ' ' :: (link.2.spelling
          ++ (linksSpelling rest ++ ')' :: after))).head?, Text.isBlank c = false := by
        cases link.1 <;> exact Cursor.forall_head_cons (by decide)
      have hspace : (' ' :: (link.2.spelling ++ (linksSpelling rest ++ ')' :: after))).head?
          ≠ some '=' := by
        intro h
        cases h
      have hoperand := @outcome_unary_numeral r l link.2 _ (boundary_links rest after).toEndsName
      rcases Operator.read_symbol hop r l hspace with ⟨hlt, hread⟩
      have htext : linksSpelling (link :: rest) ++ ')' :: after
          = [' '] ++ (link.1.operator.symbol.toList ++ ' ' :: (link.2.spelling
            ++ (linksSpelling rest ++ ')' :: after))) := by
        rw [linksSpelling]
        simp only [List.cons_append, List.nil_append, List.append_assoc]
      have hline : l + Cursor.newlines [' '] = l := rfl
      rw [htext, Expr.readLinks, outcome_afterSpace,
        Cursor.skipSpace_append Node.isBlank_space hsymbol, hline, Expr.readLinksHere, hread]
      dsimp only
      rw [outcome_weaken, outcome_after]
      refine outcome_andMaybe hoperand fun _ => ?_
      rw [outcome_mapValue, outcome_links_skipSpace, ih]
      rfl

theorem outcome_chain (first : Numeral) (rest : List (Arithmetic × Numeral)) (after : List Char) :
    (Expr.read ⟨r, ' ' :: (chainSpelling first rest ++ ')' :: after), l⟩).outcome
      = .ok ((Grouping.ofChain (first.literal ⟨r, l⟩)
          (Grouping.arithmeticLinks ⟨r, l⟩ rest)).toExpr, ⟨r, ')' :: after, l⟩) := by
  have hfirst := @outcome_unary_numeral r l first _ (boundary_links rest after).toEndsName
  rw [chainSpelling, List.append_assoc, Expr.read]
  refine outcome_andMaybe hfirst fun _ => ?_
  rw [outcome_mapValue, outcome_links_skipSpace, outcome_links]
  rfl

/-!
## The template
-/

theorem isIdentifier_variable : Text.IsIdentifier ['r'] := by
  decide

def assignment (location : Location) (e : Expr) : List Node :=
  [.set "r" e location, .output (.ofReference (.plain "r" false location)) location]

theorem readsPiece_assignment {cs after : List Char} {e : Expr}
    (hread : (Expr.read ⟨r, ' ' :: cs, l⟩).outcome = .ok (e, ⟨r, ')' :: '$' :: after, l⟩)) :
    Node.ReadsPiece
      ⟨r, '#' :: (['s', 'e', 't'] ++ '(' :: '$' :: (['r'] ++ ' ' :: '=' :: ' ' :: cs)), l⟩
      (.node (.set "r" e ⟨r, l⟩)) ⟨r, '$' :: after, l⟩ := by
  have hstop : ∀ c ∈ (' ' :: '=' :: ' ' :: cs).head?, Text.isIdentifierChar c = false :=
    Cursor.forall_head_cons (by decide)
  have hname := Directive.outcome_readName r l Node.isIdentifier_set
    (Cursor.forall_head_cons (by decide) :
      ∀ c ∈ ('(' :: '$' :: (['r'] ++ ' ' :: '=' :: ' ' :: cs)).head?,
        Text.isIdentifierChar c = false)
  have haccept : (⟨r, '$' :: after, l⟩ : Cursor).accept '\n' = ⟨r, '$' :: after, l⟩ :=
    Cursor.accept_of_ne fun h => absurd (Option.some.inj h) (by decide)
  have hset : (Node.readSet ⟨r, l⟩
      ⟨r, '(' :: '$' :: (['r'] ++ ' ' :: '=' :: ' ' :: cs), l⟩).outcome
        = .ok (.set "r" e ⟨r, l⟩, ⟨r, '$' :: after, l⟩) := by
    rw [Node.readSet]
    refine outcome_andThen (Cursor.outcome_expect_here r l rfl) fun _ => ?_
    refine outcome_andThen (Cursor.outcome_expect_here r _ rfl) fun _ => ?_
    refine outcome_andThen (Cursor.outcome_identifier _ r _ isIdentifier_variable hstop) fun _ => ?_
    refine outcome_andThen (@Cursor.outcome_expect '=' [' '] _ r _ Node.isBlank_space rfl)
      fun _ => ?_
    refine outcome_andThen hread fun _ => ?_
    rw [← haccept]
    exact Node.outcome_closing _
  exact Node.readsPiece_directive (Directive.beginsAt_append Node.isIdentifier_set r l)
    ((Node.outcome_directive_set hname rfl).trans (congrArg _ hset))

theorem readsPiece_variable :
    Node.ReadsPiece ⟨r, ['$', 'r'], l⟩
      (.node (.output (.ofReference (.plain "r" false ⟨r, l⟩)) ⟨r, l⟩)) ⟨r, [], l⟩ := by
  have hnone : ∀ c ∈ ([] : List Char).head?, Text.isIdentifierChar c = false :=
    Cursor.forall_head_nil
  have hnamed : (Reference.readNamed false ⟨r, ['r'], l⟩).outcome
      = .ok (.plain "r" false ⟨r, l⟩, ⟨r, [], l⟩) := by
    rw [Reference.readNamed]
    apply outcome_andMaybe (Cursor.outcome_identifier _ r l isIdentifier_variable hnone)
    intro _
    rw [Reference.readSuffixes]
    rfl
  have hletter : (⟨r, ['r'], l⟩ : Cursor).atLetter = true := rfl
  refine Node.readsPiece_of_outcome Node.readPiece_dollar ?_
  rw [outcome_mapValue, outcome_afterStep, Node.readDollar, Cursor.take?_cons_of_ne (by decide)]
  dsimp only
  rw [Node.readOutput, Cursor.take?_cons_of_ne (by decide)]
  dsimp only
  rw [if_pos hletter, outcome_weaken, outcome_mapValue, hnamed]
  rfl

def assignmentSpelling (first : Numeral) (rest : List (Arithmetic × Numeral)) : List Char :=
  ['s', 'e', 't'] ++ '(' :: '$' :: (['r'] ++ ' ' :: '=' :: ' ' ::
    (chainSpelling first rest ++ ')' :: ['$', 'r']))

theorem toList_assignment (first : Numeral) (rest : List (Arithmetic × Numeral)) :
    "#set($r = " ++ String.ofList (chainSpelling first rest) ++ ")$r"
      = String.ofList ('#' :: assignmentSpelling first rest) := by
  have hchain : (String.ofList (chainSpelling first rest)).toList = chainSpelling first rest :=
    String.toList_ofList
  have hwhole : (String.ofList ('#' :: assignmentSpelling first rest)).toList
      = '#' :: assignmentSpelling first rest := String.toList_ofList
  apply String.toList_injective
  rw [String.toList_append, String.toList_append, hchain, hwhole, List.append_assoc]
  rfl

theorem parse_assignment (resource : String) (first : Numeral)
    (rest : List (Arithmetic × Numeral)) :
    Template.parse resource ("#set($r = " ++ String.ofList (chainSpelling first rest) ++ ")$r")
      = .ok ⟨assignment ⟨resource, 1⟩ (Grouping.ofChain (first.literal ⟨resource, 1⟩)
          (Grouping.arithmeticLinks ⟨resource, 1⟩ rest)).toExpr, ⟨resource, 1⟩, []⟩ := by
  have hchain := @outcome_chain resource 1 first rest ['$', 'r']
  have hbody : (Node.readBody .outside
      (Cursor.ofText resource (String.ofList ('#' :: assignmentSpelling first rest)))).outcome
        = .ok (⟨assignment ⟨resource, 1⟩ (Grouping.ofChain (first.literal ⟨resource, 1⟩)
          (Grouping.arithmeticLinks ⟨resource, 1⟩ rest)).toExpr, .endOfFile, rfl, ⟨resource, 1⟩⟩,
          ⟨resource, [], 1⟩) := by
    rw [Cursor.ofText_ofList, assignmentSpelling,
      Node.outcome_body_node (readsPiece_assignment hchain),
      Node.outcome_body_node readsPiece_variable, Node.outcome_body_end rfl]
    rfl
  rw [toList_assignment, Template.parse_of_body hbody]
  rfl

/-!
## Rendering
-/

theorem render_assignment {location : Location} {e : Expr} {x : Except EvalError Int}
    {context : Context} (h : Evaluates context location e x) :
    ((Node.sequence (assignment location e) location).render (.start context)).result
      = locate location (x.map Int.repr) := by
  have hset : ∀ session : Session, session.context = context ->
      (Node.set "r" e location).render session = match x with
        | .ok n => (session.assign "r" (.int (Int64.ofInt n))).done
        | .error cause => session.fail ⟨cause, location⟩ := by
    intro session hsession
    rw [Node.render, hsession, h.evaluate_eq]
    cases x <;> rfl
  rw [assignment, Node.render, Node.renderAll, hset _ rfl]
  cases x with
  | error cause => rfl
  | ok n =>
      have hvariable : (Expr.ofReference (.plain "r" false location)).evaluate
          (context.set "r" (.int (Int64.ofInt n))) = .ok (.int (Int64.ofInt n)) := by
        rw [Expr.ofReference, Expr.evaluate, Reference.resolve, Context.get?_set, if_pos rfl]
      have htext : (Value.int (Int64.ofInt n)).write "" = n.repr := by
        have hfits : Integer.Fits n := h.fits n rfl
        rw [Value.write, Integer.text, Int64.toInt_ofInt_of_le hfits.1 hfits.2, String.empty_append]
      change (Node.renderAll [.output _ location] _).result = _
      rw [Node.renderAll, Node.render]
      dsimp only [Session.start, Session.assign, Session.done]
      rw [hvariable]
      exact congrArg Except.ok htext

/-- A chain of numerals comes out as its exact value, worked off from the left in terms and factors,
or fails for the first cause on the way. -/
theorem render_chain (resource : String) (first : Numeral) (rest : List (Arithmetic × Numeral))
    (bindings : List (String × Value)) :
    Template.render resource
        ("#set($r = " ++ String.ofList (chainSpelling first rest) ++ ")$r") bindings
      = match total first rest with
        | .ok n => .ok n.repr
        | .error cause => .error (.evaluation ⟨cause, ⟨resource, 1⟩⟩) := by
  have hvalue := render_assignment (@evaluates_ofChain (.ofVariables bindings) ⟨resource, 1⟩
    first rest)
  rw [Template.render, parse_assignment]
  dsimp only [Template.evaluate, Template.root]
  rw [hvalue]
  cases total first rest <;> rfl

end Arithmetic

end Stencil
