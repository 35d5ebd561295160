import Stencil.Node.Basic

/-!
# Walking a tree

All nodes of a tree in source order, each with its depth: a node before the nodes inside it, the
then-branch of a conditional before its else-branch.
-/

namespace Stencil
namespace Node

mutual

def preorderFrom (depth : Nat) : Node → List (Nat × Node)
  | sequence children location =>
      (depth, sequence children location) :: preorderAllFrom (depth + 1) children
  | conditional condition thenBranch elseBranch location =>
      (depth, conditional condition thenBranch elseBranch location)
        :: (preorderFrom (depth + 1) thenBranch ++ preorderFrom (depth + 1) elseBranch)
  | forEach name collection body location =>
      (depth, forEach name collection body location) :: preorderFrom (depth + 1) body
  | node => [(depth, node)]

def preorderAllFrom (depth : Nat) : List Node → List (Nat × Node)
  | [] => []
  | node :: rest => preorderFrom depth node ++ preorderAllFrom depth rest

end

def preorder (node : Node) : List (Nat × Node) :=
  preorderFrom 0 node

/-!
## Macro calls
-/

/-- The first call, in source order, of a macro that is not among `known`. -/
def firstUnknownMacro? (known : List String) (node : Node) : Option (Located String) :=
  node.preorder.findSome? fun (_, inner) =>
    match inner with
    | macroCall name _ location => if name ∈ known then none else some ⟨name, location⟩
    | _ => none

end Node
end Stencil
