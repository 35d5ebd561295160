import Stencil.Proofs.NodeForms
import Stencil.Proofs.Outline

/-!
# Well-formed templates

The form that the tree of a template has.  Everything the grammar allows has it as long as no macro
is called, and dropping blank text keeps it; a call does not pass the check for unknown macros,
because no macro can be defined.
-/

namespace Stencil

namespace Node

def isSequence : Node → Bool
  | sequence .. => true
  | _ => false

def isConditional : Node → Bool
  | conditional .. => true
  | _ => false

mutual

/-- Branches and bodies are sequences, but no sequence stands in a sequence; an else-branch may also
be another conditional.  References are all that is put out, and no macro is called. -/
def WellFormed : Node → Prop
  | sequence children _ => WellFormedAll children
  | text _ _ => True
  | output expr _ => ∃ ref, expr = .ofReference ref ∧ ref.WellFormed
  | conditional condition thenBranch elseBranch _ =>
      condition.WellFormed false
        ∧ (thenBranch.isSequence = true ∧ thenBranch.WellFormed)
        ∧ (elseBranch.isSequence = true ∨ elseBranch.isConditional = true) ∧ elseBranch.WellFormed
  | forEach name collection body _ =>
      Text.IsIdentifier name.toList ∧ collection.WellFormed false
        ∧ body.isSequence = true ∧ body.WellFormed
  | set name value _ => Text.IsIdentifier name.toList ∧ value.WellFormed false
  | comment _ => True
  | macroCall _ _ _ => False

def WellFormedAll : List Node → Prop
  | [] => True
  | node :: rest => (node.isSequence = false ∧ node.WellFormed) ∧ WellFormedAll rest

end

/-!
## What the grammar allows
-/

theorem WrittenLoopHead.wellFormed {name : String} {collection : Expr} {segment after : List Char}
    (h : WrittenLoopHead (name, collection) segment after) :
    Text.IsIdentifier name.toList ∧ collection.WellFormed false := by
  cases h with
  | mk _ _ hname _ hcollection _ _ => exact ⟨hname, hcollection.wellFormed⟩

end Node

theorem Expr.WrittenCondition.wellFormed {condition : Expr} {segment after : List Char}
    (h : condition.WrittenCondition segment after) : condition.WellFormed false := by
  cases h with
  | mk _ hcondition _ _ => exact hcondition.wellFormed

mutual

theorem Node.Written.wellFormed : ∀ {node : Node} {segment after : List Char},
    node.Written segment after -> node.calls = [] -> node.isSequence = false ∧ node.WellFormed
  | _, _, _, .text _ _, _ => ⟨rfl, trivial⟩
  | _, _, _, .quotedBlock _, _ => ⟨rfl, trivial⟩
  | _, _, _, .lineComment _, _ => ⟨rfl, trivial⟩
  | _, _, _, .blockComment _, _ => ⟨rfl, trivial⟩
  | _, _, _, .reference href, _ => ⟨rfl, _, rfl, href.wellFormed⟩
  | _, _, _, .set _ _ _ hname _ hvalue _ _, _ => ⟨rfl, hname, hvalue.wellFormed⟩
  | _, _, _, .macroCall _ _ _ _, hcalls => by cases hcalls
  | _, _, _, .conditional _ h, hcalls => by
      rcases Node.WrittenConditional.wellFormed h hcalls with ⟨hconditional, hwf⟩
      refine ⟨?_, hwf⟩
      cases h <;> rfl
  | _, _, _, .forEach _ hhead hbody, hcalls =>
      ⟨rfl, hhead.wellFormed.1, hhead.wellFormed.2, rfl, Node.WrittenBody.wellFormed hbody hcalls⟩

theorem Node.WrittenConditional.wellFormed : ∀ {node : Node} {segment after : List Char},
    node.WrittenConditional segment after -> node.calls = [] ->
    node.isConditional = true ∧ node.WellFormed
  | _, _, _, .closing hcondition hbody, hcalls => by
      rcases List.append_eq_nil_iff.mp hcalls with ⟨hcalls, _⟩
      refine ⟨rfl, hcondition.wellFormed, ⟨rfl, ?_⟩, Or.inl rfl, trivial⟩
      exact Node.WrittenBody.wellFormed hbody hcalls
  | _, _, _, .elseIf hcondition hbody hother, hcalls => by
      rcases List.append_eq_nil_iff.mp hcalls with ⟨hcalls, hcalls'⟩
      rcases Node.WrittenConditional.wellFormed hother hcalls' with ⟨hconditional, hwf⟩
      refine ⟨rfl, hcondition.wellFormed, ⟨rfl, ?_⟩, Or.inr hconditional, hwf⟩
      exact Node.WrittenBody.wellFormed hbody hcalls
  | _, _, _, .elseBranch hcondition hbody hothers, hcalls => by
      rcases List.append_eq_nil_iff.mp hcalls with ⟨hcalls, hcalls'⟩
      refine ⟨rfl, hcondition.wellFormed, ⟨rfl, ?_⟩, Or.inl rfl, ?_⟩
      · exact Node.WrittenBody.wellFormed hbody hcalls
      · exact Node.WrittenBody.wellFormed hothers hcalls'

theorem Node.WrittenBody.wellFormed : ∀ {nodes : List Node} {stop : Stop}
    {segment after : List Char}, Node.WrittenBody nodes stop segment after ->
    Node.callsAll nodes = [] -> Node.WellFormedAll nodes
  | _, _, _, _, .mk hsegments _, hcalls => Node.Segments.wellFormed hsegments hcalls

theorem Node.Segments.wellFormed : ∀ {nodes : List Node} {segments : List (List Char)}
    {after : List Char}, Node.Segments nodes segments after -> Node.callsAll nodes = [] ->
    Node.WellFormedAll nodes
  | _, _, _, .nil, _ => trivial
  | _, _, _, .cons _ hnode hrest, hcalls => by
      rcases List.append_eq_nil_iff.mp hcalls with ⟨hcalls, hcalls'⟩
      exact ⟨Node.Written.wellFormed hnode hcalls, Node.Segments.wellFormed hrest hcalls'⟩

end

/-!
## Dropping blank text
-/

namespace Node

theorem isSequence_tidy (node : Node) : node.tidy.isSequence = node.isSequence := by
  cases node <;> rfl

theorem isConditional_tidy (node : Node) : node.tidy.isConditional = node.isConditional := by
  cases node <;> rfl

theorem wellFormedAll_dropYielding {nodes : List Node} (h : WellFormedAll nodes) :
    WellFormedAll (dropYielding nodes) := by
  induction nodes using dropYielding.induct with
  | case1 before space next rest hdrops ih =>
      rw [dropYielding, if_pos hdrops]
      exact ⟨h.1, ih h.2.2⟩
  | case2 before space next rest hkeeps ih =>
      rw [dropYielding, if_neg hkeeps]
      exact ⟨h.1, ih h.2⟩
  | case3 nodes hshort =>
      rw [dropYielding]
      · exact h
      · exact hshort

mutual

theorem wellFormed_tidy : ∀ {node : Node}, node.WellFormed -> node.tidy.WellFormed
  | sequence children _, h => wellFormedAll_dropYielding (wellFormedAll_tidyAll h)
  | text _ _, h => h
  | output _ _, h => h
  | conditional _ thenBranch elseBranch _, ⟨hcondition, ⟨hthen, hthen'⟩, helse, helse'⟩ => by
      refine ⟨hcondition, ⟨?_, wellFormed_tidy hthen'⟩, ?_, wellFormed_tidy helse'⟩
      · rw [isSequence_tidy, hthen]
      · rw [isSequence_tidy, isConditional_tidy]
        exact helse
  | forEach _ _ body _, ⟨hname, hcollection, hbody, hbody'⟩ => by
      refine ⟨hname, hcollection, ?_, wellFormed_tidy hbody'⟩
      rw [isSequence_tidy, hbody]
  | set _ _ _, h => h
  | comment _, h => h

theorem wellFormedAll_tidyAll : ∀ {nodes : List Node},
    WellFormedAll nodes -> WellFormedAll (tidyAll nodes)
  | [], _ => trivial
  | node :: rest, ⟨⟨hsequence, hnode⟩, hrest⟩ => by
      refine ⟨⟨?_, wellFormed_tidy hnode⟩, wellFormedAll_tidyAll hrest⟩
      rw [isSequence_tidy, hsequence]

end

end Node

/-!
## Templates
-/

namespace Template

variable {resource text : String} {template : Template}

/-- No macro is defined, so a template that passes the check calls none. -/
theorem calls_of_checkMacros {nodes : List Node}
    (h : (ofNodes resource nodes).checkMacros = .ok template) : Node.callsAll nodes = [] := by
  have hnone := (eq_of_checkMacros h).2
  rw [Node.firstUnknownMacro?_eq_find?] at hnone
  have hcalls : (ofNodes resource nodes).root.calls = [] := by
    refine List.eq_nil_iff_forall_not_mem.mpr fun call hcall => ?_
    exact List.find?_eq_none.mp hnone call hcall (decide_eq_true List.not_mem_nil)
  rw [← calls_ofNodes resource nodes]
  exact hcalls

theorem wellFormed_of_parse (h : parse resource text = .ok template) :
    Node.WellFormedAll template.nodes := by
  rcases exists_nodes_of_parse h with ⟨nodes, hnodes, hmacros⟩
  rcases segments_of_readNodes hnodes with ⟨segments, _, hsegments⟩
  have hwf := hsegments.wellFormed (calls_of_checkMacros hmacros)
  rw [(eq_of_checkMacros hmacros).1]
  exact Node.wellFormedAll_dropYielding (Node.wellFormedAll_tidyAll hwf)

end Template

end Stencil
