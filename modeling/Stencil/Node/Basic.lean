import Stencil.Expr.Basic
import Stencil.Text.Blank

/-!
# Template nodes

The pieces a template is made of.  Branches and loop bodies are nodes themselves, in practice
sequences.
-/

namespace Stencil

inductive Node where
  | sequence (children : List Node) (location : Location)
  | text (content : String) (location : Location)
  | output (expr : Expr) (location : Location)
  | conditional (condition : Expr) (thenBranch elseBranch : Node) (location : Location)
  | forEach (name : String) (collection : Expr) (body : Node) (location : Location)
  | set (name : String) (value : Expr) (location : Location)
  | comment (location : Location)
  | macroCall (name : String) (args : List Expr) (location : Location)

namespace Node

def location : Node → Location
  | sequence _ location => location
  | text _ location => location
  | output _ location => location
  | conditional _ _ _ location => location
  | forEach _ _ _ location => location
  | set _ _ location => location
  | comment location => location
  | macroCall _ _ location => location

/-!
## Kinds of nodes

The empty text counts as blank.
-/

def isBlank : Node → Bool
  | text content _ => content.toList.all Text.isBlank
  | _ => false

def isHorizontalBlank : Node → Bool
  | text content _ => content.toList.all Text.isHorizontalBlank
  | _ => false

def isReference : Node → Bool
  | output (.reference _ _) _ => true
  | _ => false

def isDirective : Node → Bool
  | conditional .. => true
  | forEach .. => true
  | set .. => true
  | macroCall .. => true
  | _ => false

def isComment : Node → Bool
  | comment _ => true
  | _ => false

def isSet : Node → Bool
  | set .. => true
  | _ => false

end Node

end Stencil
