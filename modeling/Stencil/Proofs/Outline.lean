import Stencil.Template

/-!
# Outlines of trees

The outline of a tree is the tree without its texts.  Dropping blank texts in front of assignments
does not change it, and it calls the same macros.
-/

namespace Stencil
namespace Node

def isText : Node → Bool
  | text .. => true
  | _ => false

mutual

def outline : Node → Node
  | sequence children location => sequence (outlineAll children) location
  | conditional condition thenBranch elseBranch location =>
      conditional condition thenBranch.outline elseBranch.outline location
  | forEach name collection body location => forEach name collection body.outline location
  | node => node

def outlineAll : List Node → List Node
  | [] => []
  | node :: rest => if node.isText then outlineAll rest else node.outline :: outlineAll rest

end

theorem outlineAll_append (nodes others : List Node) :
    outlineAll (nodes ++ others) = outlineAll nodes ++ outlineAll others := by
  induction nodes with
  | nil => rw [outlineAll, List.nil_append, List.nil_append]
  | cons node rest ih =>
      rw [List.cons_append, outlineAll, outlineAll, ih]
      split
      · rfl
      · rfl

theorem outlineAll_cons_text {node : Node} (h : node.isText = true) (rest : List Node) :
    outlineAll (node :: rest) = outlineAll rest := by
  rw [outlineAll, if_pos h]

theorem outlineAll_cons_congr (node : Node) {rest others : List Node}
    (h : outlineAll rest = outlineAll others) :
    outlineAll (node :: rest) = outlineAll (node :: others) := by
  rw [outlineAll, outlineAll, h]

/-!
## Tidying
-/

theorem isText_of_isBlank {node : Node} (h : node.isBlank = true) : node.isText = true := by
  cases node with
  | text content location => rfl
  | _ => cases h

theorem isText_of_isHorizontalBlank {node : Node} (h : node.isHorizontalBlank = true) :
    node.isText = true := by
  cases node with
  | text content location => rfl
  | _ => cases h

theorem isText_of_yields {before space : Node} (h : yields before space = true) :
    space.isText = true := by
  rw [yields] at h
  split at h
  · exact isText_of_isHorizontalBlank h
  · exact isText_of_isBlank (Bool.and_eq_true_iff.mp h).2

theorem outlineAll_dropYielding (nodes : List Node) :
    outlineAll (dropYielding nodes) = outlineAll nodes := by
  induction nodes using dropYielding.induct with
  | case1 before space next rest hyields ih =>
      have hspace : space.isText = true :=
        isText_of_yields (Bool.and_eq_true_iff.mp hyields).2
      rw [dropYielding, if_pos hyields]
      refine outlineAll_cons_congr before ?_
      rw [ih, outlineAll_cons_text hspace]
  | case2 before space next rest hyields ih =>
      rw [dropYielding, if_neg hyields]
      exact outlineAll_cons_congr before ih
  | case3 nodes hshort => rw [dropYielding]; exact hshort

theorem isText_tidy (node : Node) : node.tidy.isText = node.isText := by
  cases node <;> rfl

mutual

theorem outline_tidy : ∀ node : Node, node.tidy.outline = node.outline
  | sequence children location => by
      rw [tidy, outline, outline, outlineAll_dropYielding, outlineAll_tidyAll children]
  | conditional condition thenBranch elseBranch location => by
      rw [tidy, outline, outline, outline_tidy thenBranch, outline_tidy elseBranch]
  | forEach name collection body location => by
      rw [tidy, outline, outline, outline_tidy body]
  | text .. => rfl
  | output .. => rfl
  | set .. => rfl
  | comment .. => rfl
  | macroCall .. => rfl

theorem outlineAll_tidyAll : ∀ nodes : List Node, outlineAll (tidyAll nodes) = outlineAll nodes
  | [] => by rw [tidyAll]
  | node :: rest => by
      rw [tidyAll, outlineAll, outlineAll, isText_tidy, outline_tidy node, outlineAll_tidyAll rest]

end

/-!
## Macro calls
-/

mutual

def calls : Node → List (Located String)
  | sequence children _ => callsAll children
  | conditional _ thenBranch elseBranch _ => thenBranch.calls ++ elseBranch.calls
  | forEach _ _ body _ => body.calls
  | macroCall name _ location => [⟨name, location⟩]
  | _ => []

def callsAll : List Node → List (Located String)
  | [] => []
  | node :: rest => node.calls ++ callsAll rest

end

def unknownCall? (known : List String) (entry : Nat × Node) : Option (Located String) :=
  match entry.2 with
  | macroCall name _ location => if name ∈ known then none else some ⟨name, location⟩
  | _ => none

mutual

theorem findSome?_preorderFrom (known : List String) : ∀ (node : Node) (depth : Nat),
    (preorderFrom depth node).findSome? (unknownCall? known)
      = node.calls.find? fun call => call.cause ∉ known
  | sequence children location, depth => by
      rw [preorderFrom, calls, List.findSome?_cons]
      exact findSome?_preorderAllFrom known children (depth + 1)
  | conditional condition thenBranch elseBranch location, depth => by
      rw [preorderFrom, calls, List.findSome?_cons, List.find?_append,
        ← findSome?_preorderFrom known thenBranch (depth + 1),
        ← findSome?_preorderFrom known elseBranch (depth + 1)]
      exact List.findSome?_append
  | forEach name collection body location, depth => by
      rw [preorderFrom, calls, List.findSome?_cons]
      exact findSome?_preorderFrom known body (depth + 1)
  | macroCall name args location, depth => by
      have hwalk : preorderFrom depth (macroCall name args location)
          = [(depth, macroCall name args location)] := rfl
      have hcalls : (macroCall name args location).calls = [⟨name, location⟩] := rfl
      rw [hwalk, hcalls]
      by_cases hknown : name ∈ known
      · simp [unknownCall?, hknown]
      · simp [unknownCall?, hknown]
  | text .., depth => rfl
  | output .., depth => rfl
  | set .., depth => rfl
  | comment .., depth => rfl

theorem findSome?_preorderAllFrom (known : List String) : ∀ (nodes : List Node) (depth : Nat),
    (preorderAllFrom depth nodes).findSome? (unknownCall? known)
      = (callsAll nodes).find? fun call => call.cause ∉ known
  | [], depth => rfl
  | node :: rest, depth => by
      rw [preorderAllFrom, callsAll, List.find?_append, List.findSome?_append,
        findSome?_preorderFrom known node depth, findSome?_preorderAllFrom known rest depth]

end

theorem firstUnknownMacro?_eq_find? (known : List String) (node : Node) :
    node.firstUnknownMacro? known = node.calls.find? fun call => call.cause ∉ known :=
  findSome?_preorderFrom known node 0

mutual

theorem calls_outline : ∀ node : Node, node.outline.calls = node.calls
  | sequence children location => by
      rw [outline, calls, calls, callsAll_outlineAll children]
  | conditional condition thenBranch elseBranch location => by
      rw [outline, calls, calls, calls_outline thenBranch, calls_outline elseBranch]
  | forEach name collection body location => by
      rw [outline, calls, calls, calls_outline body]
  | text .. => rfl
  | output .. => rfl
  | set .. => rfl
  | comment .. => rfl
  | macroCall .. => rfl

theorem callsAll_outlineAll : ∀ nodes : List Node, callsAll (outlineAll nodes) = callsAll nodes
  | [] => rfl
  | node :: rest => by
      rw [outlineAll]
      split
      · next htext =>
          have hnone : node.calls = [] := by
            cases node with
            | text content location => rfl
            | _ => cases htext
          rw [callsAll, hnone, List.nil_append, callsAll_outlineAll rest]
      · rw [callsAll, callsAll, calls_outline node, callsAll_outlineAll rest]

end

end Node

/-!
## Templates
-/

namespace Template

/-- No blank text that is dropped hides a call. -/
theorem calls_ofNodes (resource : String) (nodes : List Node) :
    (ofNodes resource nodes).root.calls = Node.callsAll nodes := by
  rw [root, Node.calls, ofNodes, ← Node.callsAll_outlineAll, Node.outlineAll_dropYielding,
    Node.outlineAll_tidyAll, Node.callsAll_outlineAll]

theorem checkMacros_ofNodes (resource : String) {nodes : List Node}
    (h : Node.callsAll (Node.outlineAll nodes) = []) :
    (ofNodes resource nodes).checkMacros = .ok (ofNodes resource nodes)
      ∧ Node.outlineAll (ofNodes resource nodes).nodes = Node.outlineAll nodes := by
  have houtline : Node.outlineAll (ofNodes resource nodes).nodes = Node.outlineAll nodes := by
    rw [ofNodes, Node.outlineAll_dropYielding, Node.outlineAll_tidyAll]
  have hcalls : (ofNodes resource nodes).root.calls = [] := by
    rw [calls_ofNodes, ← Node.callsAll_outlineAll, h]
  refine ⟨?_, houtline⟩
  rw [checkMacros, Node.firstUnknownMacro?_eq_find?, hcalls, List.find?_nil]

end Template

end Stencil
