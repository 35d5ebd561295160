import Stencil.Proofs.NodeReader
import Stencil.Proofs.ReadBack

/-!
# Conditions read back

Every expression of the language can be put into a template so that parsing gives it back: as the
condition of a conditional with nothing inside.  It does not matter which blanks stand between the
words of the condition.
-/

namespace Stencil

open Attempt

namespace Template

/-- A conditional with nothing inside, which ends on `line`. -/
def ofCondition (resource : String) (condition : Expr) (line : Nat) : Template where
  nodes := [.conditional condition (.sequence [] ⟨resource, 1⟩) (.sequence [] ⟨resource, line⟩)
    ⟨resource, 1⟩]
  location := ⟨resource, 1⟩

def conditionLayout (condition : Layout) : Layout :=
  Layout.ofText ['#', 'i', 'f'] ++ none :: some ' ' :: none :: some '(' :: none ::
    (condition ++ none :: some ')' :: Layout.ofText ['#', 'e', 'n', 'd'])

theorem reduceOption_conditionLayout (e : Expr) :
    (conditionLayout e.layout).reduceOption = ("#if (" ++ e.source ++ ")#end").toList := by
  simp [conditionLayout, List.reduceOption_append, Layout.reduceOption_ofText,
    Expr.reduceOption_layout]

theorem checkMacros_ofCondition (resource : String) (condition : Expr) (line : Nat) :
    (ofNodes resource (ofCondition resource condition line).nodes).checkMacros
      = .ok (ofCondition resource condition line) := by
  rfl

end Template

namespace Node

theorem isIdentifier_if : Text.IsIdentifier ['i', 'f'] := by
  decide

theorem isIdentifier_end : Text.IsIdentifier ['e', 'n', 'd'] := by
  decide

theorem outcome_body_closing (opener : Opener) (line : Nat) (r : String) (l : Nat)
    (h : (Construct.inside opener line).accepts .closing = true) :
    (readBody (.inside opener line) ⟨r, ['#', 'e', 'n', 'd'], l⟩).outcome
      = .ok (⟨[], .closing, h, ⟨r, l⟩⟩, ⟨r, [], l⟩) := by
  have hnone : ∀ c ∈ ([] : List Char).head?, Text.isIdentifierChar c = false :=
    Cursor.forall_head_nil
  have hname := Directive.outcome_readName r l isIdentifier_end hnone
  rw [List.append_nil] at hname
  exact outcome_body_stop
    (readsPiece_directive (@Directive.beginsAt_append ['e', 'n', 'd'] [] isIdentifier_end r l)
      (outcome_directive_stop hname rfl)) h

theorem outcome_body_condition {r : String} {gap cs : List Char} {condition : Expr} {l' : Nat}
    (hgap : ∀ c ∈ gap, Text.isBlank c = true) (hgap' : gap ≠ [])
    (hread : (Expr.read ⟨r, cs, 1 + Cursor.newlines gap⟩).outcome
      = .ok (condition, ⟨r, ')' :: ['#', 'e', 'n', 'd'], l'⟩)) :
    (readBody .outside ⟨r, '#' :: (['i', 'f'] ++ (gap ++ '(' :: cs)), 1⟩).outcome
      = .ok (⟨(Template.ofCondition r condition l').nodes, .endOfFile, rfl, ⟨r, l'⟩⟩,
          ⟨r, [], l'⟩) := by
  have hstop : ∀ c ∈ (gap ++ '(' :: cs).head?, Text.isIdentifierChar c = false :=
    (Boundary.of_blanks hgap hgap').name
  have hname := Directive.outcome_readName r 1 isIdentifier_if hstop
  have hconditional := outcome_conditional_closing (outcome_condition hgap hread)
    (outcome_body_closing .conditional (Location.line ⟨r, 1⟩) r l' rfl)
  have hpiece : (readDirective ⟨r, 1⟩ ⟨r, ['i', 'f'] ++ (gap ++ '(' :: cs), 1⟩).outcome
      = .ok (.node (.conditional condition (.sequence [] ⟨r, 1⟩) (.sequence [] ⟨r, l'⟩) ⟨r, 1⟩),
          ⟨r, [], l'⟩) := by
    rw [outcome_directive_conditional hname rfl, hconditional]
    rfl
  rw [outcome_body_node (readsPiece_directive
    (Directive.beginsAt_append isIdentifier_if r 1) hpiece), outcome_body_end rfl]
  rfl

end Node

namespace Expr

theorem parse_spaced (resource : String) {e : Expr} (hwell : e.WellFormed false)
    {text : List Char} (htext : Layout.Spaced (Template.conditionLayout e.layout) text) :
    ∃ condition line, e.SameUpToLines resource condition
      ∧ Template.parse resource (String.ofList text)
        = .ok (Template.ofCondition resource condition line) := by
  rcases Layout.spaced_ofText_append htext with ⟨_, rfl, hblank⟩
  rcases Layout.spaced_blank hblank with ⟨gap, _, rfl, hgap, hgap', hparen⟩
  rcases Layout.spaced_char hparen with ⟨_, rfl, hopen⟩
  rcases Layout.spaced_open hopen with ⟨before, _, rfl, hbefore, hcondition⟩
  rcases Layout.spaced_append hcondition with ⟨inside, _, rfl, hinside, hclose⟩
  rcases Layout.spaced_open hclose with ⟨after, _, rfl, hafter, hclose⟩
  rcases Layout.spaced_char hclose with ⟨_, rfl, hend⟩
  rcases Layout.spaced_ofText hend with rfl
  rcases ((readsBack e).chain hwell inside hinside).gives_read (r := resource) hbefore hafter
    ['#', 'e', 'n', 'd'] (1 + Cursor.newlines gap) with ⟨condition, line, hread, hsame⟩
  refine ⟨condition, line, hsame, ?_⟩
  have hbody := Node.outcome_body_condition hgap hgap' hread
  rw [← Cursor.ofText_ofList] at hbody
  rw [← Template.checkMacros_ofCondition]
  exact Template.parse_of_body hbody

/-- Parsing undoes printing.  The source form has parentheses only where the displayed form would
be read in another way, and its open places may be filled with any blanks. -/
theorem parse_source (resource : String) (e : Expr) (hwell : e.WellFormed false) :
    (∃ condition line, e.SameUpToLines resource condition
      ∧ Template.parse resource ("#if (" ++ e.source ++ ")#end")
        = .ok (Template.ofCondition resource condition line))
    ∧ (∀ text, Layout.Spaced (Template.conditionLayout e.layout) text ->
        ∃ condition line, e.SameUpToLines resource condition
          ∧ Template.parse resource (String.ofList text)
            = .ok (Template.ofCondition resource condition line))
    ∧ (Template.conditionLayout e.layout).reduceOption
        = ("#if (" ++ e.source ++ ")#end").toList
    ∧ (e.Unambiguous -> e.source = e.text) := by
  have hprinted := Template.reduceOption_conditionLayout e
  have hspaced : ∀ text, Layout.Spaced (Template.conditionLayout e.layout) text ->
      ∃ condition line, e.SameUpToLines resource condition
        ∧ Template.parse resource (String.ofList text)
          = .ok (Template.ofCondition resource condition line) :=
    fun _ htext => parse_spaced resource hwell htext
  refine ⟨?_, hspaced, hprinted, source_eq_text e⟩
  have hempty := hspaced _ (Layout.spaced_reduceOption (Template.conditionLayout e.layout))
  rw [hprinted, String.ofList_toList] at hempty
  exact hempty

theorem parse_source_grouped :
    let here : Location := ⟨"page", 1⟩
    let item : Expr := .reference (.index (.plain "a" false here) (.literal (.int 2) here) false
      here) here
    let sum : Expr := .binary .plus (.literal (.int 1) here) item here
    let e : Expr := .binary .times sum (.not (.binary .and sum item here) here) here
    e.WellFormed false
      ∧ ∃ condition line, e.SameUpToLines "page" condition
        ∧ Template.parse "page" "#if ((1 + $a[2]) * !(1 + $a[2] && $a[2]))#end"
          = .ok (Template.ofCondition "page" condition line) := by
  intro here item sum e
  have hitem : item.WellFormed false := by
    refine ⟨?_, rfl, rfl, ?_⟩
    · simp [Reference.WellFormed, Text.IsIdentifier]
    · simp [WellFormed]
  have hsum : sum.WellFormed false := by
    refine ⟨by decide, ?_, hitem⟩
    simp [WellFormed]
  have hwell : e.WellFormed false := ⟨by decide, hsum, by decide, hsum, hitem⟩
  exact ⟨hwell, (parse_source "page" e hwell).1⟩

end Expr

end Stencil
