import Stencil.Node.Reader
import Stencil.Node.Tidy
import Stencil.Node.Walk

/-!
# Templates

A template is the sequence of nodes that a text was read as.  Parsing reads the whole text first,
so that a mistake in its form is reported before a call of an unknown macro.
-/

namespace Stencil

structure Template where
  nodes : List Node
  location : Location
  /-- The language calls macros, but has no directive that defines one. -/
  macros : List String := []

namespace Template

def root (template : Template) : Node :=
  .sequence template.nodes template.location

def length (template : Template) : Nat :=
  template.nodes.length

def isEmpty (template : Template) : Bool :=
  template.nodes.isEmpty

def readNodes (resource text : String) : Attempt (List Node) := do
  let ⟨body, _, _⟩ ← Node.readBody .outside (Cursor.ofText resource text)
  return body.nodes

def ofNodes (resource : String) (nodes : List Node) : Template where
  nodes := Node.dropYielding (Node.tidyAll nodes)
  location := ⟨resource, 1⟩

def checkMacros (template : Template) : Attempt Template :=
  match template.root.firstUnknownMacro? template.macros with
  | some ⟨name, location⟩ => .error ⟨.undefinedMacro name, location⟩
  | none => .ok template

def parse (resource text : String) : Attempt Template := do
  (ofNodes resource (← readNodes resource text)).checkMacros

end Template

end Stencil
