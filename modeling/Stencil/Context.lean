import Stencil.Value.Basic

/-!
# Contexts

The variables a template sees, in one flat dictionary, and a stack of bindings to bring back.  A
scope is opened by taking a mark, the height of the stack.  Shadowing a variable in a scope saves
its old binding, once for each scope; restoring the mark puts the saved bindings back, the newest
first, and drops them from the stack.
-/

namespace Stencil

structure SavedBinding where
  name : String
  previous : Option Value

structure Context where
  bindings : Dictionary Value
  saved : List SavedBinding

namespace Context

def ofVariables (bindings : List (String × Value)) : Context :=
  ⟨Dictionary.ofList bindings, []⟩

def get? (context : Context) (name : String) : Option Value :=
  context.bindings.get? name

def set (context : Context) (name : String) (value : Value) : Context :=
  { context with bindings := context.bindings.insert name value }

def size (context : Context) : Nat :=
  context.bindings.size

def isEmpty (context : Context) : Bool :=
  context.size == 0

/-!
## Scopes
-/

def mark (context : Context) : Nat :=
  context.saved.length

/-- The bindings saved since `mark`, the newest first. -/
def savedSince (context : Context) (mark : Nat) : List SavedBinding :=
  context.saved.take (context.saved.length - mark)

def shadow (context : Context) (mark : Nat) (name : String) (value : Value) : Context :=
  if (context.savedSince mark).any fun binding => binding.name = name then
    context.set name value
  else
    ⟨context.bindings.insert name value, ⟨name, context.get? name⟩ :: context.saved⟩

end Context

def SavedBinding.restore (bindings : Dictionary Value) (binding : SavedBinding) :
    Dictionary Value :=
  match binding.previous with
  | some value => bindings.insert binding.name value
  | none => bindings.erase binding.name

namespace Context

def restore (context : Context) (mark : Nat) : Context :=
  ⟨(context.savedSince mark).foldl SavedBinding.restore context.bindings,
    context.saved.drop (context.saved.length - mark)⟩

/-!
## Looking up
-/

theorem get?_set (context : Context) (name other : String) (value : Value) :
    (context.set name value).get? other
      = if name = other then some value else context.get? other :=
  Dictionary.get?_insert context.bindings name other value

theorem get?_shadow (context : Context) (mark : Nat) (name other : String) (value : Value) :
    (context.shadow mark name value).get? other
      = if name = other then some value else context.get? other := by
  rw [shadow]
  split
  · exact get?_set context name other value
  · exact Dictionary.get?_insert context.bindings name other value

theorem get?_restore_binding (bindings : Dictionary Value) (binding : SavedBinding)
    (other : String) :
    (binding.restore bindings).get? other
      = if binding.name = other then binding.previous else bindings.get? other := by
  rw [SavedBinding.restore]
  split
  · next value eq =>
      rw [eq]
      exact Dictionary.get?_insert bindings binding.name other value
  · next eq =>
      rw [eq]
      exact Dictionary.get?_erase bindings binding.name other

theorem saved_set (context : Context) (name : String) (value : Value) :
    (context.set name value).saved = context.saved :=
  rfl

end Context

end Stencil
