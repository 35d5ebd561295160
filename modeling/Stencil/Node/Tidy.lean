import Stencil.Node.Basic

/-!
# Blank text in front of assignments

An assignment is not meant to leave a gap in the output.  A blank text right in front of one is
dropped when it stands right behind a comment or a directive, and also behind a reference if it
stays on one line.  The rule looks at three neighbouring nodes at a time and keeps everything
else in order.
-/

namespace Stencil
namespace Node

/-- Whether `space`, standing between `before` and an assignment, is dropped. -/
def yields (before space : Node) : Bool :=
  if before.isReference then space.isHorizontalBlank
  else (before.isComment || before.isDirective) && space.isBlank

def dropYielding : List Node → List Node
  | before :: space :: next :: rest =>
      if next.isSet && yields before space then
        before :: dropYielding (next :: rest)
      else
        before :: dropYielding (space :: next :: rest)
  | nodes => nodes

mutual

def tidy : Node → Node
  | sequence children location => sequence (dropYielding (tidyAll children)) location
  | conditional condition thenBranch elseBranch location =>
      conditional condition thenBranch.tidy elseBranch.tidy location
  | forEach name collection body location => forEach name collection body.tidy location
  | node => node

def tidyAll : List Node → List Node
  | [] => []
  | node :: rest => node.tidy :: tidyAll rest

end

theorem tidyAll_eq_map (nodes : List Node) : tidyAll nodes = nodes.map tidy := by
  induction nodes with
  | nil => rw [tidyAll, List.map_nil]
  | cons node rest ih => rw [tidyAll, ih, List.map_cons]

end Node
end Stencil
