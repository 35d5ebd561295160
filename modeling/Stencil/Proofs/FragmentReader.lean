import Stencil.Proofs.Fragments
import Stencil.Proofs.HeadReader
import Stencil.Proofs.Outline

/-!
# Reading fragments

A text that is put together from fragments is read as the grammar says.  Texts that stand side by
side are read as one, and a line end behind a directive belongs to it, so a cursor is compared with
the fragments up to the text in front of the next directive.
-/

namespace Stencil

open Attempt

/-!
## Cursors in front of fragments
-/

namespace Fragment

def isText : Fragment → Bool
  | text .. => true
  | _ => false

theorem newlines_spelling {fragment : Fragment} (h : fragment.isText = false) :
    Cursor.newlines fragment.spelling.toList = 0 := by
  cases fragment with
  | text content plain => cases h
  | _ => rfl

theorem exists_spelling {fragment : Fragment} (h : fragment.isText = false) :
    ∃ cs, fragment.spelling.toList = '#' :: cs := by
  cases fragment with
  | text content plain => cases h
  | _ => exact ⟨_, rfl⟩

end Fragment

/-- The cursor is in front of the fragments, or has read a part of the text that they begin with.
The whole text ends on line `n`. -/
inductive Shows (r : String) (n : Nat) : Cursor → List Placed → Prop where
  | finish {lead : List Char} {l : Nat} :
      (∀ c ∈ lead, Text.isPlain c = true) -> l + Cursor.newlines lead = n ->
      Shows r n ⟨r, lead, l⟩ []
  | text {c : Cursor} {content : String} {plain : ∀ c ∈ content.toList, Text.isPlain c = true}
      {location : Location} {rest : List Placed} :
      Shows r n c rest -> Shows r n c ((.text content plain, location) :: rest)
  | directive {fragment : Fragment} {lead tail : List Char} {l : Nat} {rest : List Placed} :
      (∀ c ∈ lead, Text.isPlain c = true) -> fragment.isText = false ->
      Shows r n ⟨r, tail, l + Cursor.newlines lead⟩ rest ->
      Shows r n ⟨r, lead ++ (fragment.spelling.toList ++ tail), l⟩
        ((fragment, ⟨r, l + Cursor.newlines lead⟩) :: rest)

namespace Cursor

theorem accept_append {lead rest : List Char} (hrest : ∀ c ∈ rest.head?, c ≠ '\n') (r : String)
    (l : Nat) :
    ∃ lead' l', (⟨r, lead ++ rest, l⟩ : Cursor).accept '\n' = ⟨r, lead' ++ rest, l'⟩
      ∧ (∀ c ∈ lead', c ∈ lead) ∧ l' + newlines lead' = l + newlines lead := by
  cases lead with
  | nil =>
      refine ⟨[], l, accept_of_ne fun h => hrest _ h rfl, List.forall_mem_nil _, rfl⟩
  | cons x more =>
      by_cases hx : x = '\n'
      · rw [hx]
        refine ⟨more, l + newlines ['\n'], accept_of_current rfl,
          fun c hc => List.mem_cons_of_mem _ hc, ?_⟩
        rw [Nat.add_assoc, ← newlines_append]
        rfl
      · exact ⟨x :: more, l, accept_of_ne fun h => hx (Option.some.inj h), fun c hc => hc, rfl⟩

end Cursor

namespace Shows

variable {r : String} {n : Nat} {c : Cursor} {placed : List Placed}

theorem head_spelling {fragment : Fragment} (h : fragment.isText = false) (tail : List Char) :
    ∀ c ∈ (fragment.spelling.toList ++ tail).head?, c = '#' := by
  rcases Fragment.exists_spelling h with ⟨cs, hspelling⟩
  rw [hspelling]
  intro c hc
  cases hc
  rfl

theorem accept (h : Shows r n c placed) : Shows r n (c.accept '\n') placed := by
  induction h with
  | @finish lead l hlead hlast =>
      have hnone : ∀ c ∈ ([] : List Char).head?, c ≠ '\n' :=
        Cursor.forall_head_nil
      rcases @Cursor.accept_append lead _ hnone r l with ⟨lead', l', haccept, hmem, hline⟩
      rw [List.append_nil, List.append_nil] at haccept
      rw [haccept]
      exact .finish (fun c hc => hlead c (hmem c hc)) (hline.trans hlast)
  | text _ ih => exact .text ih
  | @directive fragment lead tail l rest hlead hdirective h _ =>
      have hhash : ∀ c ∈ (fragment.spelling.toList ++ tail).head?, c ≠ '\n' := by
        intro c hc
        rw [head_spelling hdirective tail c hc]
        decide
      rcases @Cursor.accept_append lead _ hhash r l with ⟨lead', l', haccept, hmem, hline⟩
      rw [haccept, ← hline]
      rw [← hline] at h
      exact .directive (fun c hc => hlead c (hmem c hc)) hdirective h

theorem plain_append (h : Shows r n c placed) {text : List Char} {l : Nat}
    (htext : ∀ c ∈ text, Text.isPlain c = true) (hline : c.line = l + Cursor.newlines text) :
    Shows r n ⟨r, text ++ c.remaining, l⟩ placed := by
  have happend : ∀ {lead : List Char}, (∀ c ∈ lead, Text.isPlain c = true) ->
      ∀ c ∈ text ++ lead, Text.isPlain c = true :=
    fun hlead c hc => (List.mem_append.mp hc).elim (htext c) (hlead c)
  induction h with
  | @finish lead l' hlead hlast =>
      refine .finish (happend hlead) ?_
      rw [Cursor.newlines_append, ← Nat.add_assoc, ← hline]
      exact hlast
  | text _ ih => exact .text (ih hline)
  | @directive fragment lead tail l' rest hlead hdirective h _ =>
      have hlines : l' + Cursor.newlines lead = l + Cursor.newlines (text ++ lead) := by
        rw [Cursor.newlines_append, ← Nat.add_assoc, ← hline]
      dsimp only
      rw [hlines, ← List.append_assoc]
      rw [hlines] at h
      exact .directive (happend hlead) hdirective h

theorem place (fragments : List Fragment) (l : Nat)
    (hlast : (Fragment.finish r l fragments).line = n) :
    Shows r n ⟨r, (Fragment.source fragments).toList, l⟩ (Fragment.place r l fragments) := by
  induction fragments generalizing l with
  | nil => exact .finish (List.forall_mem_nil _) hlast
  | cons fragment rest ih =>
      have hrest : (Fragment.finish r (l + Cursor.newlines fragment.spelling.toList) rest).line
          = n := by
        rw [← hlast, Fragment.finish, Fragment.finish, Fragment.source, String.toList_append,
          Cursor.newlines_append, Nat.add_assoc]
      have hshows := ih _ hrest
      rw [Fragment.source, Fragment.place, String.toList_append]
      by_cases htext : fragment.isText = true
      · cases fragment with
        | text content plain => exact .text (hshows.plain_append plain rfl)
        | _ => cases htext
      · have hdirective := Bool.eq_false_iff.mpr htext
        rw [Fragment.newlines_spelling hdirective] at hshows ⊢
        exact @directive r n fragment [] _ l _ (List.forall_mem_nil _) hdirective hshows

end Shows

/-!
## Directives of a fixed form
-/

namespace Fragment

variable {r : String} {l : Nat} {tail rest : List Char}

theorem endsName_close : EndsName (')' :: rest) :=
  (Boundary.of_head (by decide) (by decide)).toEndsName

theorem endsName_bracket : EndsName (']' :: rest) :=
  (Boundary.of_head (by decide) (by decide)).toEndsName

theorem outcome_one {nullAllowed : Bool} (hrest : EndsName rest) :
    (Expr.readOperand nullAllowed ⟨r, '1' :: rest, l⟩).outcome
      = .ok (.literal (.int 1) ⟨r, l⟩, ⟨r, rest, l⟩) :=
  @Expr.outcome_literal nullAllowed r l rest (.int 1) (by simp) (hrest.endsBefore _)

theorem outcome_true {nullAllowed : Bool} (hrest : EndsName rest) :
    (Expr.readOperand nullAllowed ⟨r, 't' :: 'r' :: 'u' :: 'e' :: rest, l⟩).outcome
      = .ok (.literal (.bool true) ⟨r, l⟩, ⟨r, rest, l⟩) :=
  @Expr.outcome_literal nullAllowed r l rest (.bool true) (by simp) (hrest.endsBefore _)

def condition (tail : List Char) : List Char :=
  ' ' :: '(' :: 't' :: 'r' :: 'u' :: 'e' :: ')' :: tail

theorem outcome_condition :
    (Node.readCondition ⟨r, condition tail, l⟩).outcome
      = .ok (.literal (.bool true) ⟨r, l⟩, (⟨r, tail, l⟩ : Cursor).accept '\n') :=
  Node.outcome_condition_simple (Cursor.forall_head_cons rfl) (outcome_true endsName_close)

theorem readsPiece_set :
    Node.ReadsPiece ⟨r, set.spelling.toList ++ tail, l⟩ (.node (assignment ⟨r, l⟩))
      ((⟨r, tail, l⟩ : Cursor).accept '\n') := by
  have hspelling : set.spelling.toList ++ tail = '#' :: (['s', 'e', 't'] ++ ' ' :: '(' :: '$' ::
      (['x'] ++ ' ' :: '=' :: ' ' :: '1' :: ')' :: tail)) := rfl
  have hname : Text.IsIdentifier ['s', 'e', 't'] := by decide
  have hset := @Node.outcome_set_simple r l ('1' :: ')' :: tail) tail _ ['x'] ⟨r, l⟩ (by decide)
    (Cursor.forall_head_cons rfl) (outcome_one endsName_close)
  rw [hspelling]
  exact Node.readsPiece_directive (Directive.beginsAt_append hname r l)
    ((Node.outcome_directive_set
      (Directive.outcome_readName r l hname (Cursor.forall_head_cons rfl)) rfl).trans
        (congrArg _ hset))

theorem outcome_directive_forEach :
    (Node.readDirective ⟨r, l⟩
        ⟨r, ['f', 'o', 'r', 'e', 'a', 'c', 'h'] ++ ' ' :: '(' :: '$' ::
          (['i'] ++ ' ' :: 'i' :: 'n' :: ' ' :: '[' :: '1' :: ']' :: ')' :: tail), l⟩).outcome
      = (Node.readBody (.inside .forEach l) ((⟨r, tail, l⟩ : Cursor).accept '\n')).outcome.map
          fun found => (.node (loop ⟨r, l⟩ found.1.nodes), found.2) := by
  have hname : Text.IsIdentifier ['f', 'o', 'r', 'e', 'a', 'c', 'h'] := by decide
  have hlist := @Expr.outcome_list_single false r l l ('1' :: ']' :: ')' :: tail) (')' :: tail) _
    (Cursor.forall_head_cons rfl) (outcome_one endsName_bracket)
  have hhead := @Node.outcome_loopHead_simple r l ('[' :: '1' :: ']' :: ')' :: tail) tail _ ['i']
    (by decide) (Cursor.forall_head_cons rfl) hlist
  exact Node.outcome_directive_forEach
    (Directive.outcome_readName r l hname (Cursor.forall_head_cons rfl)) rfl hhead

theorem outcome_directive_conditional :
    (Node.readDirective ⟨r, l⟩ ⟨r, ['i', 'f'] ++ condition tail, l⟩).outcome
      = (Node.readConditional .conditional ⟨r, l⟩ ⟨r, condition tail, l⟩).outcome.map
          fun found => (.node found.1, found.2) := by
  have hname : Text.IsIdentifier ['i', 'f'] := by decide
  exact Node.outcome_directive_conditional
    (Directive.outcome_readName r l hname (Cursor.forall_head_cons rfl)) rfl

theorem readsPiece_closing :
    Node.ReadsPiece ⟨r, closing.spelling.toList ++ tail, l⟩ (.stop .closing ⟨r, l⟩)
      ((⟨r, tail, l⟩ : Cursor).accept '\n') := by
  have hspelling : closing.spelling.toList ++ tail
      = '#' :: '\x7b' :: (['e', 'n', 'd'] ++ '\x7d' :: tail) := rfl
  have hword : Text.IsIdentifier ['e', 'n', 'd'] := by decide
  rw [hspelling]
  exact Node.readsPiece_stop_braced hword rfl

theorem readsPiece_elseBranch :
    Node.ReadsPiece ⟨r, elseBranch.spelling.toList ++ tail, l⟩ (.stop .elseBranch ⟨r, l⟩)
      ((⟨r, tail, l⟩ : Cursor).accept '\n') := by
  have hspelling : elseBranch.spelling.toList ++ tail
      = '#' :: '\x7b' :: (['e', 'l', 's', 'e'] ++ '\x7d' :: tail) := rfl
  have hword : Text.IsIdentifier ['e', 'l', 's', 'e'] := by decide
  rw [hspelling]
  exact Node.readsPiece_stop_braced hword rfl

theorem readsPiece_elseIf :
    Node.ReadsPiece ⟨r, elseIf.spelling.toList ++ tail, l⟩ (.stop .elseIf ⟨r, l⟩)
      ⟨r, condition tail, l⟩ := by
  have hspelling : elseIf.spelling.toList ++ tail
      = '#' :: (['e', 'l', 's', 'e', 'i', 'f'] ++ condition tail) := rfl
  have hword : Text.IsIdentifier ['e', 'l', 's', 'e', 'i', 'f'] := by decide
  rw [hspelling]
  exact Node.readsPiece_stop hword rfl (by decide) (by decide)

end Fragment

end Stencil
