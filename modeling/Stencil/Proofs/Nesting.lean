import Stencil.Proofs.FragmentReader

/-!
# Reading nested constructs

Reading a body of fragments ends in one of three ways: at a rejected stop, at an accepted one, or at
the end of the text.  What was read by then is balanced.  The proof goes by the number of fragments,
with a step for bodies and a step for conditionals.
-/

namespace Stencil

open Attempt
open Fragment (innermost firstRejected firstRejected_accepted firstRejected_rejected choice loop)

/-!
## Results
-/

/-- The cursor behind a stop.  Behind an `#elseif` the condition comes first. -/
def Follows (r : String) (n : Nat) : Placed → Cursor → List Placed → Prop
  | (.elseIf, location), behind, rest =>
      ∃ l tail, location = ⟨r, l⟩ ∧ behind = ⟨r, Fragment.condition tail, l⟩
        ∧ Shows r n ⟨r, tail, l⟩ rest
  | _, behind, rest => Shows r n behind rest

inductive BodyResult (r : String) (n : Nat) (construct : Construct) (placed : List Placed) :
    Attempt (Body construct × Cursor) → Prop where
  | rejected {e : Located ParseError} :
      (∀ opened, innermost opened = construct -> firstRejected ⟨r, n⟩ opened placed = some e) ->
      BodyResult r n construct placed (.error e)
  | stopped {items : List Node} {fragment : Fragment} {stop : Stop} {location : Location}
      {accepted : construct.accepts stop = true} {before rest : List Placed} {behind : Cursor} :
      placed = before ++ (fragment, location) :: rest -> fragment.stop? = some stop ->
      Balanced before (Node.outlineAll items) -> Follows r n (fragment, location) behind rest ->
      BodyResult r n construct placed (.ok (⟨items, stop, accepted, location⟩, behind))
  | finished {items : List Node} {location : Location}
      {accepted : construct.accepts .endOfFile = true} {behind : Cursor} :
      Balanced placed (Node.outlineAll items) ->
      BodyResult r n construct placed (.ok (⟨items, .endOfFile, accepted, location⟩, behind))

inductive ConditionalResult (r : String) (n : Nat) (opener : Opener) (l : Nat)
    (placed : List Placed) : Attempt (Node × Cursor) → Prop where
  | rejected {e : Located ParseError} :
      (∀ opened, firstRejected ⟨r, n⟩ (.inside opener l :: opened) placed = some e) ->
      ConditionalResult r n opener l placed (.error e)
  | closed {node outline : Node} {branches rest : List Placed} {behind : Cursor} :
      placed = branches ++ rest -> Branches ⟨r, l⟩ branches outline -> node.outline = outline ->
      node.isText = false -> Shows r n behind rest ->
      ConditionalResult r n opener l placed (.ok (node, behind))

def BodyReadable (r : String) (n : Nat) (placed : List Placed) : Prop :=
  ∀ (construct : Construct) (c : Cursor), Shows r n c placed ->
    BodyResult r n construct placed (Node.readBody construct c).outcome

def ConditionalReadable (r : String) (n : Nat) (placed : List Placed) : Prop :=
  ∀ (opener : Opener) (l : Nat) (tail : List Char), Shows r n ⟨r, tail, l⟩ placed ->
    ConditionalResult r n opener l placed
      (Node.readConditional opener ⟨r, l⟩ ⟨r, Fragment.condition tail, l⟩).outcome

section

variable {r : String} {n : Nat} {construct : Construct} {placed front : List Placed}
  {result : Attempt (Body construct × Cursor)}

namespace BodyResult

theorem cons (h : BodyResult r n construct placed result) {node : Node}
    (hfront : Balanced front (Node.outlineAll [node])) :
    BodyResult r n construct (front ++ placed)
      (result.map fun found => (found.1.cons node, found.2)) := by
  cases h with
  | rejected h =>
      refine rejected fun opened hopened => ?_
      rw [hfront.firstRejected_append]
      exact h opened hopened
  | @stopped items fragment stop location accepted before rest behind heq hstop hbefore hbehind =>
      refine stopped (heq ▸ (List.append_assoc _ _ _).symm) hstop ?_ hbehind
      have happend := hfront.append hbefore
      rw [← Node.outlineAll_append] at happend
      exact happend
  | finished h =>
      refine finished ?_
      have happend := hfront.append h
      rw [← Node.outlineAll_append] at happend
      exact happend

theorem text (h : BodyResult r n construct placed result) (content : String)
    (plain : ∀ c ∈ content.toList, Text.isPlain c = true) (location : Location) :
    BodyResult r n construct ((.text content plain, location) :: placed) result := by
  cases h with
  | rejected h => exact rejected h
  | @stopped items _ _ _ _ before _ _ heq hstop hbefore hbehind =>
      have htext : Balanced ((.text content plain, location) :: before)
          (Node.outlineAll items) := .text hbefore
      refine stopped ?_ hstop htext hbehind
      rw [heq, List.cons_append]
  | finished h => exact finished (.text h)

theorem plain_append {lead rest : List Char} {l : Nat} (hlead : ∀ c ∈ lead, Text.isPlain c = true)
    (hrest : ∀ c ∈ rest.head?, Text.isPlain c = false)
    (h : BodyResult r n construct placed
      (Node.readBody construct ⟨r, rest, l + Cursor.newlines lead⟩).outcome) :
    BodyResult r n construct placed (Node.readBody construct ⟨r, lead ++ rest, l⟩).outcome := by
  cases lead with
  | nil => exact h
  | cons x more =>
      have hpiece := @Node.readsPiece_text r l x more rest (hlead x List.mem_cons_self)
        (fun c hc => hlead c (List.mem_cons_of_mem _ hc)) hrest
      rw [List.cons_append, Node.outcome_body_node hpiece]
      exact @cons r n construct placed [] _ h _ .nil

end BodyResult

end

/-!
## Steps
-/

section

variable {r : String} {n : Nat} {placed : List Placed}

def ShorterReadable (r : String) (n : Nat) (placed : List Placed) : Prop :=
  ∀ shorter : List Placed, shorter.length < placed.length ->
    BodyReadable r n shorter ∧ ConditionalReadable r n shorter

theorem length_rest_lt {placed before rest : List Placed} {next : Placed}
    (h : placed = before ++ next :: rest) : rest.length < placed.length := by
  rw [h, List.length_append, List.length_cons]
  omega

theorem outline_choice (l : Nat) (items : List Node) (other : Node) :
    (Node.conditional (.literal (.bool true) ⟨r, l⟩) (.sequence items ⟨r, l⟩) other ⟨r, l⟩).outline
      = choice ⟨r, l⟩ (Node.outlineAll items) other.outline := by
  rw [Node.outline, Node.outline, choice]

theorem BodyResult.of_closed {opener : Opener} {l : Nat} {body : Body (.inside opener l)}
    {behind : Cursor} (hopener : opener = .elseBranch ∨ opener = .forEach)
    (h : BodyResult r n (.inside opener l) placed (.ok (body, behind))) :
    ∃ before location rest, placed = before ++ (.closing, location) :: rest
      ∧ Balanced before (Node.outlineAll body.nodes) ∧ Shows r n behind rest := by
  cases h with
  | @finished items location accepted behind h =>
      rw [Construct.accepts_endOfFile_inside] at accepted
      cases accepted
  | @stopped items fragment stop location accepted before rest behind heq hstop hbefore hbehind =>
      have hclosing : stop = .closing := by
        rcases hopener with rfl | rfl <;> cases stop <;> first | rfl | cases accepted
      subst hclosing
      rcases Fragment.eq_closing hstop with rfl
      exact ⟨before, location, rest, heq, hbefore, hbehind⟩

theorem conditionalReadable (hbody : BodyReadable r n placed)
    (hshorter : ShorterReadable r n placed) : ConditionalReadable r n placed := by
  intro opener l tail hshows
  have hcondition := @Fragment.outcome_condition r l tail
  have hresult := hbody (.inside opener l) _ hshows.accept
  generalize hout : (Node.readBody (.inside opener l)
    ((⟨r, tail, l⟩ : Cursor).accept '\n')).outcome = out at hresult
  cases hresult with
  | rejected h =>
      rw [Node.outcome_conditional_error hcondition hout]
      exact .rejected fun opened => h _ rfl
  | @finished items location accepted behind h =>
      rw [Construct.accepts_endOfFile_inside] at accepted
      cases accepted
  | @stopped items fragment stop location accepted before rest behind heq hstop hbefore hbehind =>
      have hrest := hshorter rest (length_rest_lt heq)
      cases stop with
      | endOfFile => exact absurd hstop fragment.stop?_ne_endOfFile
      | closing =>
          rcases Fragment.eq_closing hstop with rfl
          rw [Node.outcome_conditional_closing hcondition hout]
          have hbranches := @Branches.closing ⟨r, l⟩ location before _ hbefore
          refine .closed ?_ hbranches (outline_choice l items _) rfl hbehind
          rw [heq, List.append_assoc, List.singleton_append]
      | elseIf =>
          rcases Fragment.eq_elseIf hstop with rfl
          rcases hbehind with ⟨l', tail', rfl, rfl, hshows'⟩
          rw [Node.outcome_conditional_elseIf hcondition hout]
          have hother := hrest.2 .elseIf l' tail' hshows'
          generalize (Node.readConditional .elseIf ⟨r, l'⟩
            ⟨r, Fragment.condition tail', l'⟩).outcome = other at hother ⊢
          cases hother with
          | rejected h =>
              refine .rejected fun opened => ?_
              rw [heq, hbefore.firstRejected_append, firstRejected_accepted hstop accepted]
              exact h opened
          | closed heq' hother houtline _ hbehind' =>
              rw [← houtline] at hother
              have hbranches := @Branches.elseIf ⟨r, l⟩ ⟨r, l'⟩ before _ _ _ hbefore hother
              refine .closed ?_ hbranches (outline_choice l items _) rfl hbehind'
              rw [heq, heq', List.append_assoc, List.cons_append]
      | elseBranch =>
          rcases Fragment.eq_elseBranch hstop with rfl
          rw [Node.outcome_conditional_elseBranch hcondition hout]
          have hother := hrest.1 (.inside .elseBranch location.line) behind hbehind
          generalize (Node.readBody (.inside .elseBranch location.line) behind).outcome = other
            at hother ⊢
          cases other with
          | error e =>
              cases hother with
              | rejected h =>
                  refine .rejected fun opened => ?_
                  rw [heq, hbefore.firstRejected_append, firstRejected_accepted hstop accepted]
                  exact h (.inside .elseBranch location.line :: opened) rfl
          | ok found =>
              rcases hother.of_closed (Or.inl rfl)
                with ⟨between, last, rest', heq', hbetween, hbehind'⟩
              have hbranches := @Branches.elseBranch ⟨r, l⟩ location last before between _ _
                hbefore hbetween
              refine .closed ?_ hbranches (outline_choice l items _) rfl hbehind'
              simp [heq, heq']

/-!
The next fragment of a body is a stop, or becomes a node in front of what the rest gives.
-/

variable {construct : Construct} {l : Nat} {tail : List Char} {rest : List Placed}

theorem BodyResult.of_stop {c behind : Cursor} {fragment : Fragment} {stop : Stop}
    (hpiece : Node.ReadsPiece c (.stop stop ⟨r, l⟩) behind)
    (hstop : fragment.stop? = some stop) (hbehind : Follows r n (fragment, ⟨r, l⟩) behind rest) :
    BodyResult r n construct ((fragment, ⟨r, l⟩) :: rest)
      (Node.readBody construct c).outcome := by
  by_cases haccepts : construct.accepts stop = true
  · rw [Node.outcome_body_stop hpiece haccepts]
    exact @stopped r n construct _ [] fragment stop ⟨r, l⟩ haccepts [] rest behind rfl hstop .nil
      hbehind
  · rw [Node.outcome_body_rejects hpiece (Bool.eq_false_iff.mpr haccepts)]
    refine rejected fun opened hopened => ?_
    rw [← hopened] at haccepts ⊢
    exact firstRejected_rejected hstop (Bool.eq_false_iff.mpr haccepts)

theorem BodyResult.of_conditional (hshorter : ShorterReadable r n ((.conditional, ⟨r, l⟩) :: rest))
    (h : Shows r n ⟨r, tail, l⟩ rest) :
    BodyResult r n construct ((.conditional, ⟨r, l⟩) :: rest)
      (Node.readBody construct
        ⟨r, Fragment.conditional.spelling.toList ++ tail, l⟩).outcome := by
  have hspelling : Fragment.conditional.spelling.toList ++ tail
      = '#' :: (['i', 'f'] ++ Fragment.condition tail) := rfl
  have hdirective := @Fragment.outcome_directive_conditional r l tail
  have hresult := (hshorter rest (Nat.lt_succ_self _)).2 .conditional l tail h
  rw [hspelling]
  generalize (Node.readConditional .conditional ⟨r, l⟩ ⟨r, Fragment.condition tail, l⟩).outcome
    = result at hdirective hresult
  cases hresult with
  | rejected h =>
      rw [Node.outcome_body_error (Node.readPiece_directive_error rfl hdirective)]
      exact rejected fun opened _ => h opened
  | @closed node outline branches rest' behind heq hbranches houtline htext hbehind =>
      have hlt : rest'.length < ((Fragment.conditional, (⟨r, l⟩ : Location)) :: rest).length := by
        rw [heq, List.length_cons, List.length_append]
        omega
      have hfront : Balanced ((.conditional, ⟨r, l⟩) :: branches) (Node.outlineAll [node]) := by
        rw [Node.outlineAll, if_neg (Bool.eq_false_iff.mp htext), houtline,
          ← List.append_nil branches]
        exact .conditional hbranches .nil
      rw [Node.outcome_body_node (Node.readsPiece_directive rfl hdirective), heq]
      exact ((hshorter rest' hlt).1 construct behind hbehind).cons hfront

theorem BodyResult.of_forEach (hshorter : ShorterReadable r n ((.forEach, ⟨r, l⟩) :: rest))
    (h : Shows r n ⟨r, tail, l⟩ rest) :
    BodyResult r n construct ((.forEach, ⟨r, l⟩) :: rest)
      (Node.readBody construct ⟨r, Fragment.forEach.spelling.toList ++ tail, l⟩).outcome := by
  have hspelling : Fragment.forEach.spelling.toList ++ tail
      = '#' :: (['f', 'o', 'r', 'e', 'a', 'c', 'h'] ++ ' ' :: '(' :: '$' ::
          (['i'] ++ ' ' :: 'i' :: 'n' :: ' ' :: '[' :: '1' :: ']' :: ')' :: tail)) := rfl
  have hdirective := @Fragment.outcome_directive_forEach r l tail
  have hresult := (hshorter rest (Nat.lt_succ_self _)).1 (.inside .forEach l) _ h.accept
  rw [hspelling]
  generalize (Node.readBody (.inside .forEach l) ((⟨r, tail, l⟩ : Cursor).accept '\n')).outcome
    = result at hdirective hresult
  cases result with
  | error e =>
      cases hresult with
      | rejected h =>
          rw [Node.outcome_body_error (Node.readPiece_directive_error rfl hdirective)]
          exact rejected fun opened _ => h (.inside .forEach l :: opened) rfl
  | ok found =>
      rcases hresult.of_closed (Or.inr rfl) with ⟨body, last, rest', heq, hbody, hbehind⟩
      have hlt : rest'.length < ((Fragment.forEach, (⟨r, l⟩ : Location)) :: rest).length :=
        Nat.lt_succ_of_lt (length_rest_lt heq)
      have hfront : Balanced ((.forEach, ⟨r, l⟩) :: (body ++ [(.closing, last)]))
          (Node.outlineAll [loop ⟨r, l⟩ found.1.nodes]) := .forEach hbody .nil
      have happend : (Fragment.forEach, (⟨r, l⟩ : Location)) :: rest
          = ((.forEach, ⟨r, l⟩) :: (body ++ [(.closing, last)])) ++ rest' := by
        simp [heq]
      rw [Node.outcome_body_node (Node.readsPiece_directive rfl hdirective), happend]
      exact ((hshorter rest' hlt).1 construct found.2 hbehind).cons hfront

theorem bodyReadable (hshorter : ShorterReadable r n placed) : BodyReadable r n placed := by
  intro construct c hshows
  cases hshows with
  | @finish lead l hlead hlast =>
      have hnone : ∀ c ∈ ([] : List Char).head?, Text.isPlain c = false :=
        Cursor.forall_head_nil
      rw [← List.append_nil lead]
      refine BodyResult.plain_append hlead hnone ?_
      by_cases haccepts : construct.accepts .endOfFile = true
      · rw [Node.outcome_body_end haccepts]
        exact .finished .nil
      · rw [Node.outcome_body_unfinished (Bool.eq_false_iff.mpr haccepts), hlast]
        refine .rejected fun opened hopened => ?_
        rw [firstRejected, hopened]
        exact if_neg haccepts
  | @text c content plain location rest h =>
      exact ((hshorter rest (Nat.lt_succ_self _)).1 construct c h).text content plain location
  | @directive fragment lead tail l rest hlead hdirective h =>
      have hhash : ∀ c ∈ (fragment.spelling.toList ++ tail).head?, Text.isPlain c = false := by
        intro c hc
        rw [Shows.head_spelling hdirective tail c hc]
        decide
      refine BodyResult.plain_append hlead hhash ?_
      generalize l + Cursor.newlines lead = l' at h hshorter ⊢
      cases fragment with
      | text content plain => cases hdirective
      | set =>
          have hfront : Balanced [(.set, ⟨r, l'⟩)]
              (Node.outlineAll [Fragment.assignment ⟨r, l'⟩]) := .set .nil
          rw [Node.outcome_body_node Fragment.readsPiece_set]
          exact ((hshorter rest (Nat.lt_succ_self _)).1 construct _ h.accept).cons hfront
      | conditional => exact .of_conditional hshorter h
      | elseIf => exact .of_stop Fragment.readsPiece_elseIf rfl ⟨l', tail, rfl, rfl, h⟩
      | elseBranch => exact .of_stop Fragment.readsPiece_elseBranch rfl h.accept
      | forEach => exact .of_forEach hshorter h
      | closing => exact .of_stop Fragment.readsPiece_closing rfl h.accept

/-!
## All sequences
-/

theorem readable (r : String) (n : Nat) (placed : List Placed) :
    BodyReadable r n placed ∧ ConditionalReadable r n placed := by
  induction hlength : placed.length using Nat.strongRecOn generalizing placed with
  | ind m ih =>
      have hshorter : ShorterReadable r n placed := by
        intro shorter hlt
        exact ih shorter.length (hlength ▸ hlt) shorter rfl
      exact ⟨bodyReadable hshorter, conditionalReadable (bodyReadable hshorter) hshorter⟩

end

/-!
## Parsing

The outline of a balanced sequence calls no macros, so a text that was read is also parsed.
-/

mutual

theorem Balanced.callsAll_eq_nil : ∀ {placed : List Placed} {nodes : List Node},
    Balanced placed nodes -> Node.callsAll nodes = []
  | _, _, .nil => rfl
  | _, _, .text h => Balanced.callsAll_eq_nil h
  | _, _, .set h => by
      rw [Node.callsAll, Balanced.callsAll_eq_nil h]
      rfl
  | _, _, .conditional hbranches h => by
      rw [Node.callsAll, Branches.calls_eq_nil hbranches, Balanced.callsAll_eq_nil h]
      rfl
  | _, _, .forEach hbody h => by
      rw [Node.callsAll, loop, Node.calls, Node.calls, Balanced.callsAll_eq_nil hbody,
        Balanced.callsAll_eq_nil h]
      rfl

theorem Branches.calls_eq_nil : ∀ {location : Location} {placed : List Placed} {node : Node},
    Branches location placed node -> node.calls = []
  | _, _, _, .closing hbody => by
      rw [choice, Node.calls, Node.calls, Node.calls, Balanced.callsAll_eq_nil hbody]
      rfl
  | _, _, _, .elseIf hbody h => by
      rw [choice, Node.calls, Node.calls, Balanced.callsAll_eq_nil hbody, Branches.calls_eq_nil h]
      rfl
  | _, _, _, .elseBranch hbody h => by
      rw [choice, Node.calls, Node.calls, Node.calls, Balanced.callsAll_eq_nil hbody,
        Balanced.callsAll_eq_nil h]
      rfl

end

namespace Fragment

/-- Fragments either are balanced, and then the parser gives the tree that they stand for, or a stop
among them is rejected, and then the parser blames the first one. -/
theorem parse_fragments_cases (resource : String) (fragments : List Fragment) :
    (∃ template, Template.parse resource (source fragments) = .ok template
      ∧ Balanced (place resource 1 fragments) (Node.outlineAll template.nodes))
    ∨ ∃ error, Template.parse resource (source fragments) = .error error
      ∧ firstRejected (finish resource 1 fragments) [] (place resource 1 fragments)
        = some error := by
  have hshows := Shows.place fragments (r := resource) 1 rfl
  have hresult := (readable resource _ _).1 .outside _ hshows
  generalize hout : (Node.readBody .outside
    ⟨resource, (source fragments).toList, 1⟩).outcome = out at hresult
  cases hresult with
  | rejected h => exact Or.inr ⟨_, Template.parse_of_body_error hout, h [] rfl⟩
  | @stopped items fragment stop location accepted before rest behind heq hstop hbefore hbehind =>
      rw [of_decide_eq_true accepted] at hstop
      exact absurd hstop fragment.stop?_ne_endOfFile
  | @finished items location accepted behind h =>
      rcases Template.checkMacros_ofNodes resource h.callsAll_eq_nil with ⟨hcheck, houtline⟩
      refine Or.inl ⟨_, (Template.parse_of_body hout).trans hcheck, ?_⟩
      rw [houtline]
      exact h

/-- The parser accepts exactly the balanced sequences, with the tree that they stand for.  For any
other sequence it blames the first stop that the innermost open construct does not accept. -/
theorem parse_fragments (resource : String) (fragments : List Fragment) :
    (∀ nodes, Balanced (place resource 1 fragments) nodes ↔
      ∃ template, Template.parse resource (source fragments) = .ok template
        ∧ Node.outlineAll template.nodes = nodes)
    ∧ ((¬ ∃ nodes, Balanced (place resource 1 fragments) nodes) ->
        ∃ error, firstRejected (finish resource 1 fragments) [] (place resource 1 fragments)
            = some error
          ∧ Template.parse resource (source fragments) = .error error) := by
  rcases parse_fragments_cases resource fragments
    with ⟨template, hparse, hbalanced⟩ | ⟨e, hparse, he⟩
  · refine ⟨fun nodes => ⟨fun h => ⟨template, hparse, ?_⟩, ?_⟩, fun h => absurd ⟨_, hbalanced⟩ h⟩
    · have hsame : place resource 1 fragments ++ [] = place resource 1 fragments ++ [] := rfl
      exact (hbalanced.unique h .nil .nil hsame).1
    · rintro ⟨found, hfound, rfl⟩
      rw [hparse] at hfound
      cases hfound
      exact hbalanced
  · have hnone : ¬ ∃ nodes, Balanced (place resource 1 fragments) nodes := by
      rintro ⟨nodes, h⟩
      have hfirst := h.firstRejected_append (finish resource 1 fragments) [] []
      rw [List.append_nil, he] at hfirst
      cases hfirst
    refine ⟨fun nodes => ⟨fun h => absurd ⟨nodes, h⟩ hnone, ?_⟩, fun _ => ⟨e, he, hparse⟩⟩
    rintro ⟨template, htemplate, _⟩
    rw [hparse] at htemplate
    cases htemplate

end Fragment

end Stencil
