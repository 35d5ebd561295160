import Stencil.Proofs.HeadReader
import Stencil.Proofs.Quoting

/-!
# Chains of conditions

A chain of conditions is written flat and read as a tree in which every branch but the first hangs
in the one before it.  Rendering goes down this tree to the first condition that holds and looks at
no condition behind it.
-/

namespace Stencil

open Attempt

/-!
## Branches as they are written
-/

/-- A text that directives can stand around without anything of it being read as theirs. -/
structure PlainText where
  content : String
  plain : ∀ c ∈ content.toList, Text.isPlain c = true
  begins : ∀ c ∈ content.toList.head?, c ≠ '\n'

/-- A condition that is a complete expression in front of a closing parenthesis, and what is written
if it holds. -/
structure Branch (resource : String) where
  condition : String
  expr : Expr
  complete : ∃ line, (Expr.read (Cursor.ofText resource (condition ++ ")"))).outcome
    = .ok (expr, ⟨resource, [')'], line⟩)
  body : PlainText

namespace Branch

variable {resource : String}

def chain (word : String) : List (Branch resource) → String
  | [] => ""
  | branch :: rest =>
      word ++ " (" ++ branch.condition ++ ")" ++ branch.body.content ++ chain "#elseif" rest

def ending : Option PlainText → String
  | none => "#\x7bend\x7d"
  | some other => "#\x7belse\x7d" ++ other.content ++ "#\x7bend\x7d"

def source (branches : List (Branch resource)) (other : Option PlainText) : String :=
  chain "#if" branches ++ ending other

def height (branch : Branch resource) : Nat :=
  Cursor.newlines branch.condition.toList + Cursor.newlines branch.body.content.toList

/-!
## Their characters

The same texts as lists, each branch behind its word and in front of what follows it.
-/

def spelling (branch : Branch resource) (tail : List Char) : List Char :=
  ' ' :: '(' :: (branch.condition.toList ++ ')' :: (branch.body.content.toList ++ tail))

def closing : List Char :=
  '#' :: '\x7b' :: (['e', 'n', 'd'] ++ ['\x7d'])

def behindLast : Option PlainText → List Char
  | none => closing
  | some text =>
      '#' :: '\x7b' :: (['e', 'l', 's', 'e'] ++ '\x7d' :: (text.content.toList ++ closing))

def behind (other : Option PlainText) : List (Branch resource) → List Char
  | [] => behindLast other
  | branch :: rest =>
      '#' :: (['e', 'l', 's', 'e', 'i', 'f'] ++ branch.spelling (behind other rest))

theorem toList_chain_cons (word : String) (branch : Branch resource)
    (rest : List (Branch resource)) (more : String) :
    (chain word (branch :: rest) ++ more).toList
      = word.toList ++ branch.spelling (chain "#elseif" rest ++ more).toList := by
  have hopen : " (".toList = [' ', '('] := rfl
  have hclose : ")".toList = [')'] := rfl
  simp [chain, spelling, hopen, hclose]

theorem toList_behind (other : Option PlainText) (rest : List (Branch resource)) :
    (chain "#elseif" rest ++ ending other).toList = behind other rest := by
  induction rest with
  | nil =>
      have hend : "#\x7bend\x7d".toList = closing := rfl
      rw [chain, String.empty_append, behind]
      cases other with
      | none => exact hend
      | some text =>
          have helse : "#\x7belse\x7d".toList = ['#', '\x7b', 'e', 'l', 's', 'e', '\x7d'] := rfl
          simp [ending, behindLast, helse, hend]
  | cons branch rest ih =>
      have hword : "#elseif".toList = ['#', 'e', 'l', 's', 'e', 'i', 'f'] := rfl
      rw [toList_chain_cons, ih, hword, behind]
      rfl

theorem toList_source (branch : Branch resource) (rest : List (Branch resource))
    (other : Option PlainText) :
    (source (branch :: rest) other).toList
      = '#' :: (['i', 'f'] ++ branch.spelling (behind other rest)) := by
  have hword : "#if".toList = ['#', 'i', 'f'] := rfl
  rw [source, toList_chain_cons, toList_behind, hword]
  rfl

end Branch

/-!
## Reading one branch
-/

namespace PlainText

/-- An empty text leaves no node. -/
def nodes (text : PlainText) (place : Location) : List Node :=
  if text.content = "" then [] else [.text text.content place]

theorem head_append (text : PlainText) {cs : List Char} (hcs : ∀ c ∈ cs.head?, c ≠ '\n') :
    ∀ c ∈ (text.content.toList ++ cs).head?, c ≠ '\n' := by
  intro c hc
  cases hchars : text.content.toList with
  | nil =>
      rw [hchars] at hc
      exact hcs c hc
  | cons x more =>
      rw [hchars] at hc
      apply text.begins c
      rw [hchars]
      exact hc

theorem outcome_body (text : PlainText) {construct : Construct} {r : String} {l : Nat}
    {cs : List Char} {stop : Stop} {location : Location} {behind : Cursor}
    (hcs : ∀ c ∈ cs.head?, Text.isPlain c = false)
    (hstop : Node.ReadsPiece ⟨r, cs, l + Cursor.newlines text.content.toList⟩
      (.stop stop location) behind)
    (haccepts : construct.accepts stop = true) :
    (Node.readBody construct ⟨r, text.content.toList ++ cs, l⟩).outcome
      = .ok (⟨text.nodes ⟨r, l⟩, stop, haccepts, location⟩, behind) := by
  rcases text with ⟨content, plain, begins⟩
  have hcontent : String.ofList content.toList = content := String.ofList_toList
  rw [nodes]
  dsimp only at hstop ⊢
  cases hchars : content.toList with
  | nil =>
      rw [hchars] at hcontent hstop
      rw [if_pos hcontent.symm, List.nil_append]
      exact Node.outcome_body_stop hstop haccepts
  | cons x more =>
      rw [hchars] at hcontent plain hstop
      rw [List.forall_mem_cons] at plain
      have hne : content ≠ "" := by
        rintro rfl
        cases hchars
      have htext := @Node.readsPiece_text r l x more cs plain.1 plain.2 hcs
      rw [hcontent] at htext
      rw [if_neg hne, List.cons_append, Node.outcome_body_node htext,
        Node.outcome_body_stop hstop haccepts]
      rfl

theorem tidied_nodes (text : PlainText) (place : Location) :
    Node.dropYielding (Node.tidyAll (text.nodes place)) = text.nodes place := by
  rw [nodes]
  split
  · rfl
  · rfl

theorem callsAll_nodes (text : PlainText) (place : Location) :
    Node.callsAll (text.nodes place) = [] := by
  rw [nodes]
  split
  · rfl
  · rfl

theorem renderAll_nodes (text : PlainText) (place : Location) (session : Session) :
    Node.renderAll (text.nodes place) session = (session.write text.content).done := by
  rw [nodes]
  split
  · next hempty =>
      rw [Node.renderAll, hempty, session.write_empty]
  · rw [Node.renderAll_singleton, Node.render]

end PlainText

namespace Branch

variable {r : String} {d : Nat} {tail : List Char}

theorem outcome_condition (branch : Branch r) (htail : ∀ c ∈ tail.head?, c ≠ '\n') :
    (Node.readCondition
        ⟨r, ' ' :: '(' :: (branch.condition.toList ++ ')' :: tail), 1 + d⟩).outcome
      = .ok (branch.expr.relocate (Location.shift d),
          ⟨r, tail, 1 + d + Cursor.newlines branch.condition.toList⟩) := by
  rcases branch.complete with ⟨line, hread⟩
  rcases Expr.reads _ _ _ hread with ⟨front, hpasses, _⟩
  have hfront : branch.condition.toList = front := by
    have hwhole : (branch.condition ++ ")").toList = front ++ [')'] := hpasses.remaining_eq
    rw [String.toList_append] at hwhole
    exact List.append_cancel_right hwhole
  have hline : line + d = 1 + d + Cursor.newlines branch.condition.toList := by
    have hpassed : line = 1 + Cursor.newlines front := hpasses.line_eq
    rw [hfront, hpassed, Nat.add_right_comm]
  have hfirm : Text.Firm tail (Cursor.ofText r (branch.condition ++ ")")).remaining := by
    apply Or.inr
    intro x hx
    rw [Cursor.ofText, String.toList_append] at hx
    have hlast : (branch.condition.toList ++ [')']).getLast? = some x := hx
    rw [List.getLast?_concat] at hlast
    cases hlast
    decide
  have hmoved := ((Expr.carries (d := d) hfirm).ok _ _ hread).2 (Or.inr (List.cons_ne_nil _ _))
  have haccept : (⟨r, tail, line + d⟩ : Cursor).accept '\n' = ⟨r, tail, line + d⟩ :=
    Cursor.accept_of_ne fun h => htail _ h rfl
  have hcursor : (Cursor.ofText r (branch.condition ++ ")")).move d tail
      = ⟨r, branch.condition.toList ++ ')' :: tail, 1 + d⟩ := by
    rw [Cursor.ofText, Cursor.move, String.toList_append, List.append_assoc]
    rfl
  rw [hcursor] at hmoved
  rw [← hline, ← haccept]
  exact @Node.outcome_condition r (1 + d) _ [' '] tail (line + d) _ Node.isBlank_space hmoved

/-!
## The tree of a chain
-/

/-- The branches as they hang in one another, `d` lines down. -/
def tree (other : Option PlainText) : Nat → List (Branch r) → Node
  | d, [] => .sequence (other.elim [] (PlainText.nodes · ⟨r, 1 + d⟩)) ⟨r, 1 + d⟩
  | d, branch :: rest =>
      .conditional (branch.expr.relocate (Location.shift d))
        (.sequence
          (branch.body.nodes ⟨r, 1 + d + Cursor.newlines branch.condition.toList⟩) ⟨r, 1 + d⟩)
        (tree other (d + branch.height) rest) ⟨r, 1 + d⟩

theorem outcome_up_to (branch : Branch r) {cs : List Char} {opener : Opener} {stop : Stop}
    {location : Location} {behind : Cursor}
    (hstop : Node.ReadsPiece ⟨r, '#' :: cs, 1 + (d + branch.height)⟩ (.stop stop location) behind)
    (haccepts : (Construct.inside opener (1 + d)).accepts stop = true) :
    (Node.readCondition ⟨r, branch.spelling ('#' :: cs), 1 + d⟩).outcome
      = .ok (branch.expr.relocate (Location.shift d),
          ⟨r, branch.body.content.toList ++ '#' :: cs,
            1 + d + Cursor.newlines branch.condition.toList⟩)
    ∧ (Node.readBody (.inside opener (1 + d))
        ⟨r, branch.body.content.toList ++ '#' :: cs,
          1 + d + Cursor.newlines branch.condition.toList⟩).outcome
      = .ok (⟨branch.body.nodes ⟨r, 1 + d + Cursor.newlines branch.condition.toList⟩, stop,
          haccepts, location⟩, behind) := by
  have hlines : 1 + (d + branch.height) = 1 + d + Cursor.newlines branch.condition.toList
      + Cursor.newlines branch.body.content.toList := by
    rw [height]
    omega
  rw [hlines] at hstop
  constructor
  · apply branch.outcome_condition
    exact branch.body.head_append (Cursor.forall_head_cons (by decide))
  · exact branch.body.outcome_body (Cursor.forall_head_cons rfl) hstop haccepts

theorem readsPiece_closing (l : Nat) :
    Node.ReadsPiece ⟨r, closing, l⟩ (.stop .closing ⟨r, l⟩) ⟨r, [], l⟩ :=
  @Node.readsPiece_stop_braced r l ['e', 'n', 'd'] [] .closing (by decide) rfl

theorem readsPiece_elseIf (branch : Branch r) (tail : List Char) (l : Nat) :
    Node.ReadsPiece ⟨r, '#' :: (['e', 'l', 's', 'e', 'i', 'f'] ++ branch.spelling tail), l⟩
      (.stop .elseIf ⟨r, l⟩) ⟨r, branch.spelling tail, l⟩ :=
  Node.readsPiece_stop (by decide) rfl (by decide) (by decide)

theorem readsPiece_elseBranch (text : PlainText) (l : Nat) :
    Node.ReadsPiece
      ⟨r, '#' :: '\x7b' :: (['e', 'l', 's', 'e'] ++ '\x7d' :: (text.content.toList ++ closing)), l⟩
      (.stop .elseBranch ⟨r, l⟩) ⟨r, text.content.toList ++ closing, l⟩ := by
  have haccept : (⟨r, text.content.toList ++ closing, l⟩ : Cursor).accept '\n'
      = ⟨r, text.content.toList ++ closing, l⟩ :=
    Cursor.accept_of_ne fun h => text.head_append (Cursor.forall_head_cons (by decide)) _ h rfl
  have hstop := @Node.readsPiece_stop_braced r l ['e', 'l', 's', 'e']
    (text.content.toList ++ closing) .elseBranch (by decide) rfl
  rw [haccept] at hstop
  exact hstop

/-- The recursion over the branches is the one of the reader.  All of them share the last stop. -/
theorem outcome_conditional (other : Option PlainText) (d : Nat) (branch : Branch r)
    (rest : List (Branch r)) {opener : Opener}
    (hopener : opener = .conditional ∨ opener = .elseIf) :
    ∃ line, (Node.readConditional opener ⟨r, 1 + d⟩
        ⟨r, branch.spelling (behind other rest), 1 + d⟩).outcome
      = .ok (tree other d (branch :: rest), ⟨r, [], line⟩) := by
  have haccepts : opener.accepts .closing = true ∧ opener.accepts .elseBranch = true
      ∧ opener.accepts .elseIf = true := by
    rcases hopener with rfl | rfl
    · exact ⟨rfl, rfl, rfl⟩
    · exact ⟨rfl, rfl, rfl⟩
  induction rest generalizing branch d opener with
  | nil =>
      cases other with
      | none =>
          rcases branch.outcome_up_to (readsPiece_closing _) haccepts.1 with ⟨hcondition, hbody⟩
          exact ⟨_, Node.outcome_conditional_closing hcondition hbody⟩
      | some text =>
          let l := 1 + (d + branch.height)
          have hother : (Node.readBody (.inside .elseBranch l)
              ⟨r, text.content.toList ++ closing, l⟩).outcome
                = .ok (⟨text.nodes ⟨r, l⟩, .closing, rfl, _⟩, _) :=
            text.outcome_body (Cursor.forall_head_cons rfl) (readsPiece_closing _) rfl
          rcases branch.outcome_up_to (readsPiece_elseBranch text l) haccepts.2.1 with
            ⟨hcondition, hbody⟩
          refine ⟨l + Cursor.newlines text.content.toList, ?_⟩
          apply (Node.outcome_conditional_elseBranch hcondition hbody).trans
          rw [hother]
          rfl
  | cons next rest ih =>
      rcases ih (d + branch.height) next (Or.inr rfl) ⟨rfl, rfl, rfl⟩ with ⟨line, hnext⟩
      rcases branch.outcome_up_to (readsPiece_elseIf next _ _) haccepts.2.2 with ⟨hcondition, hbody⟩
      refine ⟨line, ?_⟩
      apply (Node.outcome_conditional_elseIf hcondition hbody).trans
      rw [hnext]
      rfl

theorem tidy_tree (other : Option PlainText) (d : Nat) (branches : List (Branch r)) :
    (tree other d branches).tidy = tree other d branches := by
  induction branches generalizing d with
  | nil =>
      rw [tree, Node.tidy]
      cases other with
      | none => rfl
      | some text => rw [Option.elim_some, text.tidied_nodes]
  | cons branch rest ih =>
      rw [tree, Node.tidy, Node.tidy, branch.body.tidied_nodes, ih]

theorem calls_tree (other : Option PlainText) (d : Nat) (branches : List (Branch r)) :
    (tree other d branches).calls = [] := by
  induction branches generalizing d with
  | nil =>
      rw [tree, Node.calls]
      cases other with
      | none => rfl
      | some text => exact text.callsAll_nodes _
  | cons branch rest ih =>
      rw [tree, Node.calls, Node.calls, branch.body.callsAll_nodes, ih]
      rfl

theorem parse_branches (branch : Branch r) (rest : List (Branch r)) (other : Option PlainText) :
    Template.parse r (source (branch :: rest) other)
      = .ok ⟨[tree other 0 (branch :: rest)], ⟨r, 1⟩, []⟩ := by
  have hword : Text.IsIdentifier ['i', 'f'] := by decide
  rcases outcome_conditional other 0 branch rest (Or.inl rfl) with ⟨line, hconditional⟩
  have hpiece : Node.ReadsPiece (Cursor.ofText r (source (branch :: rest) other))
      (.node (tree other 0 (branch :: rest))) ⟨r, [], line⟩ := by
    have hstop : ∀ c ∈ (branch.spelling (behind other rest)).head?,
        Text.isIdentifierChar c = false := Cursor.forall_head_cons (by decide)
    rw [Cursor.ofText, toList_source]
    apply Node.readsPiece_directive (Directive.beginsAt_append hword r 1)
    rw [Node.outcome_directive_conditional (Directive.outcome_readName r 1 hword hstop) rfl,
      hconditional]
    rfl
  have hcalls : Node.callsAll [tree other 0 (branch :: rest)] = [] := by
    rw [Node.callsAll, calls_tree]
    rfl
  rw [Template.parse_of_readNodes (Template.readNodes_of_run (.cons hpiece .nil)) hcalls,
    Template.ofNodes, Node.tidyAll, tidy_tree]
  rfl

/-!
## Rendering a chain
-/

def depth : List (Branch r) → Nat
  | [] => 0
  | branch :: rest => branch.height + depth rest

theorem newlines_chain (word : String) (hword : Cursor.newlines word.toList = 0)
    (branches : List (Branch r)) :
    Cursor.newlines (chain word branches).toList = depth branches := by
  induction branches generalizing word with
  | nil => rfl
  | cons branch rest ih =>
      have hopen : Cursor.newlines " (".toList = 0 := rfl
      have hclose : Cursor.newlines ")".toList = 0 := rfl
      have hrest := ih "#elseif" rfl
      simp only [chain, String.toList_append, Cursor.newlines_append, hword, hopen, hclose, hrest,
        depth, height]
      omega

section

variable {session : Session} {other : Option PlainText} {branch : Branch r}
  {front rest back branches : List (Branch r)}

theorem render_tree_false (hfalse : branch.expr.isTrue session.context = .ok false) :
    (tree other d (branch :: rest)).render session
      = (tree other (d + branch.height) rest).render session := by
  rw [tree, Node.render, Expr.isTrue_relocate, hfalse]
  rfl

theorem render_tree_true (htrue : branch.expr.isTrue session.context = .ok true) :
    (tree other d (branch :: rest)).render session = (session.write branch.body.content).done := by
  rw [tree, Node.render, Expr.isTrue_relocate, htrue]
  show Node.render _ session = _
  rw [Node.render, branch.body.renderAll_nodes]

theorem render_tree_error {error : Located EvalError}
    (herror : branch.expr.isTrue session.context = .error error) :
    (tree other d (branch :: rest)).render session
      = session.fail (error.relocate (Location.shift d)) := by
  rw [tree, Node.render, Expr.isTrue_relocate, herror]
  rfl

theorem render_tree_nil :
    (tree other d ([] : List (Branch r))).render session
      = (session.write (other.elim "" PlainText.content)).done := by
  rw [tree, Node.render]
  cases other with
  | none =>
      rw [Option.elim_none, Node.renderAll, Option.elim_none, session.write_empty]
  | some text => exact text.renderAll_nodes _ session

/-- All conditions can be evaluated, and none holds. -/
def NoneHolds (context : Context) (branches : List (Branch r)) : Prop :=
  ∀ branch ∈ branches, branch.expr.isTrue context = .ok false

theorem render_tree_append (hfront : NoneHolds session.context front) :
    (tree other d (front ++ rest)).render session
      = (tree other (d + depth front) rest).render session := by
  induction front generalizing d with
  | nil => rfl
  | cons passed front ih =>
      rw [NoneHolds, List.forall_mem_cons] at hfront
      rw [List.cons_append, render_tree_false hfront.1, ih hfront.2, depth, Nat.add_assoc]

theorem render_of_noneHolds (hbranches : NoneHolds session.context branches) :
    (tree other 0 branches).render session
      = (session.write (other.elim "" PlainText.content)).done := by
  have hpassed : (tree other 0 (branches ++ [])).render session = _ := render_tree_append hbranches
  rw [List.append_nil] at hpassed
  exact hpassed.trans render_tree_nil

theorem render_of_true (heq : branches = front ++ branch :: back)
    (hfront : NoneHolds session.context front)
    (htrue : branch.expr.isTrue session.context = .ok true) :
    (tree other 0 branches).render session = (session.write branch.body.content).done := by
  rw [heq, render_tree_append hfront, render_tree_true htrue]

theorem render_of_error {error : Located EvalError} (heq : branches = front ++ branch :: back)
    (hfront : NoneHolds session.context front)
    (herror : branch.expr.isTrue session.context = .error error) :
    (tree other 0 branches).render session
      = session.fail (error.relocate
          (Location.shift (Cursor.newlines (chain "#if" front).toList))) := by
  rw [heq, render_tree_append hfront, render_tree_error herror, newlines_chain "#if" rfl,
    Nat.zero_add]

theorem exists_first (context : Context) (branches : List (Branch r)) :
    NoneHolds context branches
    ∨ ∃ front branch back, branches = front ++ branch :: back ∧ NoneHolds context front
      ∧ branch.expr.isTrue context ≠ .ok false := by
  induction branches with
  | nil => exact Or.inl (List.forall_mem_nil _)
  | cons branch rest ih =>
      by_cases hfalse : branch.expr.isTrue context = .ok false
      · rcases ih with hall | ⟨front, first, back, heq, hfront, hfirst⟩
        · exact Or.inl (List.forall_mem_cons.mpr ⟨hfalse, hall⟩)
        · refine Or.inr ⟨branch :: front, first, back, ?_, ?_, hfirst⟩
          · rw [heq, List.cons_append]
          · exact List.forall_mem_cons.mpr ⟨hfalse, hfront⟩
      · exact Or.inr ⟨[], branch, rest, rfl, List.forall_mem_nil _, hfalse⟩

theorem render_ends (session : Session) (other : Option PlainText) (branches : List (Branch r)) :
    (((tree other 0 branches).render session).failure? = none
      ∧ ((tree other 0 branches).render session).session.context = session.context)
    ∨ ∃ front branch back cause, branches = front ++ branch :: back
      ∧ NoneHolds session.context front
      ∧ branch.expr.isTrue session.context = .error cause := by
  rcases exists_first session.context branches with
    hall | ⟨front, branch, back, heq, hfront, hfirst⟩
  · left
    rw [render_of_noneHolds hall]
    exact ⟨rfl, rfl⟩
  · cases hbranch : branch.expr.isTrue session.context with
    | ok holds =>
        cases holds with
        | false => exact absurd hbranch hfirst
        | true =>
            left
            rw [render_of_true heq hfront hbranch]
            exact ⟨rfl, rfl⟩
    | error cause => exact Or.inr ⟨front, branch, back, cause, heq, hfront, hbranch⟩

theorem exists_complete {condition : String} {line : Nat} (body : PlainText)
    (h : ((Expr.read (Cursor.ofText r (condition ++ ")"))).outcome.map Prod.snd).toOption
      = some ⟨r, [')'], line⟩) :
    ∃ branch : Branch r, branch.condition = condition ∧ branch.body = body
      ∧ (Expr.read (Cursor.ofText r (condition ++ ")"))).outcome
        = .ok (branch.expr, ⟨r, [')'], line⟩) := by
  cases hread : (Expr.read (Cursor.ofText r (condition ++ ")"))).outcome with
  | error e =>
      rw [hread] at h
      cases h
  | ok found =>
      rcases found with ⟨expr, rest⟩
      rw [hread] at h
      cases h
      exact ⟨⟨condition, expr, ⟨line, hread⟩, body⟩, rfl, rfl, rfl⟩

theorem isTrue_of_read {branch : Branch r} {context : Context} {c rest : Cursor} {holds : Bool}
    (hread : (Expr.read c).outcome = .ok (branch.expr, rest))
    (h : ((Expr.read c).outcome.map fun found => found.1.isTrue context).toOption.bind
      Except.toOption = some holds) :
    branch.expr.isTrue context = .ok holds := by
  rw [hread] at h
  have htruth : (branch.expr.isTrue context).toOption = some holds := h
  cases hvalue : branch.expr.isTrue context with
  | error e =>
      rw [hvalue] at htruth
      cases htruth
  | ok found =>
      rw [hvalue] at htruth
      cases htruth
      rfl

end

end Branch

namespace Template

open Branch

/-- A chain writes the body of its first condition that holds, or what it has for the case that none
does.  It fails if a condition fails before one holds, with the error of that condition where it
stands, and then writes nothing.  No variable changes in any case. -/
theorem first_true_branch {resource : String} (first : Branch resource)
    (rest : List (Branch resource)) (other : Option PlainText) :
    ∃ template, parse resource (source (first :: rest) other) = .ok template
      ∧ ∀ session : Session,
        let outcome := template.root.render session
        (∀ front branch back, first :: rest = front ++ branch :: back ->
          NoneHolds session.context front -> branch.expr.isTrue session.context = .ok true ->
            outcome = (session.write branch.body.content).done)
        ∧ (NoneHolds session.context (first :: rest) ->
            outcome = (session.write (other.elim "" PlainText.content)).done)
        ∧ (∀ error, outcome.failure? = some error ↔ ∃ front branch back cause,
            first :: rest = front ++ branch :: back ∧ NoneHolds session.context front
            ∧ branch.expr.isTrue session.context = .error cause
            ∧ error = cause.relocate
                (Location.shift (Cursor.newlines (chain "#if" front).toList)))
        ∧ (outcome.failure? ≠ none -> outcome.session.output = session.output)
        ∧ outcome.session.context = session.context := by
  refine ⟨_, parse_branches first rest other, ?_⟩
  intro session
  have hroot : (root ⟨[tree other 0 (first :: rest)], ⟨resource, 1⟩, []⟩).render session
      = (tree other 0 (first :: rest)).render session := by
    rw [root, Node.render, Node.renderAll_singleton]
  rw [hroot]
  intro outcome
  refine ⟨fun _ _ _ heq hfront htrue => render_of_true heq hfront htrue, render_of_noneHolds, ?_,
    ?_⟩
  · intro error
    constructor
    · intro hfailed
      rcases render_ends session other (first :: rest) with
        ⟨hdone, _⟩ | ⟨front, branch, back, cause, heq, hfront, hfails⟩
      · cases hdone.symm.trans hfailed
      · have houtcome : outcome = _ := render_of_error heq hfront hfails
        rw [houtcome] at hfailed
        cases hfailed
        exact ⟨front, branch, back, cause, heq, hfront, hfails, rfl⟩
    · intro hcause
      rcases hcause with ⟨front, branch, back, cause, heq, hfront, hfails, rfl⟩
      have houtcome : outcome = _ := render_of_error heq hfront hfails
      rw [houtcome]
      rfl
  · rcases render_ends session other (first :: rest) with
      ⟨hdone, hcontext⟩ | ⟨front, branch, back, cause, heq, hfront, hfails⟩
    · exact ⟨fun hfailed => absurd hdone hfailed, hcontext⟩
    · have houtcome : outcome = _ := render_of_error heq hfront hfails
      rw [houtcome]
      exact ⟨fun _ => rfl, rfl⟩

/-- The second condition is on a line of its own, so the third one, a division by zero, stands on
the second line.  It only counts if the second one does not hold. -/
theorem first_true_branch_division :
    ∃ template, parse "t" "#if ($x)a#elseif (\n$y)b#elseif (1 / 0)c#\x7belse\x7dd#\x7bend\x7d"
        = .ok template
      ∧ (∀ output, template.root.render ⟨.ofVariables [("y", .int 1)], output⟩
          = (Session.mk (.ofVariables [("y", .int 1)]) (output ++ "b")).done)
      ∧ ∀ output, ∃ error,
          (template.root.render ⟨.ofVariables [], output⟩).failure? = some error
          ∧ error.location.line = 2 := by
  have htext (x : Char) (hplain : Text.isPlain x = true) (hline : x ≠ '\n') :
      ∃ text : PlainText, text.content = String.ofList [x] := by
    have hchars : (String.ofList [x]).toList = [x] := String.toList_ofList
    refine ⟨⟨String.ofList [x], ?_, ?_⟩, rfl⟩
    · rw [hchars]
      exact List.forall_mem_singleton.mpr hplain
    · rw [hchars]
      exact Cursor.forall_head_cons hline
  rcases htext 'a' rfl (by decide) with ⟨textA, ha⟩
  rcases htext 'b' rfl (by decide) with ⟨textB, hb⟩
  rcases htext 'c' rfl (by decide) with ⟨textC, hc⟩
  rcases htext 'd' rfl (by decide) with ⟨textD, hd⟩
  rcases @exists_complete "t" "$x" 1 textA (by decide +kernel) with ⟨first, hfirst, rfl, hreadFirst⟩
  rcases @exists_complete "t" "\n$y" 2 textB (by decide +kernel) with
    ⟨second, hsecond, rfl, hreadSecond⟩
  rcases @exists_complete "t" "1 / 0" 1 textC (by decide +kernel) with
    ⟨third, hthird, rfl, hreadThird⟩
  rcases first_true_branch first [second, third] (some textD) with ⟨template, hparse, hrender⟩
  have hsource : source [first, second, third] (some textD)
      = "#if ($x)a#elseif (\n$y)b#elseif (1 / 0)c#\x7belse\x7dd#\x7bend\x7d" := by
    simp only [source, chain, ending, hfirst, hsecond, hthird, ha, hb, hc, hd]
    decide +kernel
  rw [hsource] at hparse
  refine ⟨template, hparse, ?_, ?_⟩
  · intro output
    let context := Context.ofVariables [("y", .int 1)]
    have hfalse : first.expr.isTrue context = .ok false :=
      isTrue_of_read hreadFirst (by decide +kernel)
    have htrue : second.expr.isTrue context = .ok true :=
      isTrue_of_read hreadSecond (by decide +kernel)
    have hwritten := (hrender ⟨context, output⟩).1 [first] second [third] rfl
      (List.forall_mem_singleton.mpr hfalse) htrue
    rw [hb] at hwritten
    exact hwritten
  · intro output
    let context := Context.ofVariables []
    have hfalse : first.expr.isTrue context = .ok false :=
      isTrue_of_read hreadFirst (by decide +kernel)
    have hfalse' : second.expr.isTrue context = .ok false :=
      isTrue_of_read hreadSecond (by decide +kernel)
    have hfailing : ((Expr.read (Cursor.ofText "t" ("1 / 0" ++ ")"))).outcome.map fun found =>
        (found.1.isTrue context).mapError fun e => e.location.line).toOption
          = some (.error 1) := by
      decide +kernel
    rw [hreadThird] at hfailing
    have hvalue : ((third.expr.isTrue context).mapError fun e => e.location.line) = .error 1 :=
      Option.some.inj hfailing
    cases hthirdValue : third.expr.isTrue context with
    | ok holds =>
        rw [hthirdValue] at hvalue
        cases hvalue
    | error cause =>
        rw [hthirdValue] at hvalue
        have hcause : cause.location.line = 1 := Except.error.inj hvalue
        have hfront : NoneHolds context [first, second] :=
          List.forall_mem_cons.mpr ⟨hfalse, List.forall_mem_singleton.mpr hfalse'⟩
        have hfailed := ((hrender ⟨context, output⟩).2.2.1 _).mpr
          ⟨[first, second], third, [], cause, rfl, hfront, hthirdValue, rfl⟩
        have hlines : Cursor.newlines (chain "#if" [first, second]).toList = 1 := by
          simp only [chain, hfirst, hsecond, ha, hb]
          decide +kernel
        rw [hlines] at hfailed
        refine ⟨_, hfailed, ?_⟩
        show cause.location.line + 1 = 2
        rw [hcause]

end Template

end Stencil
