/-!
# Locations

A location names a line of a resource.  A located error is a cause together with the line it is
blamed on.
-/

namespace Stencil

structure Location where
  resource : String
  line : Nat
deriving DecidableEq, Repr, Inhabited

namespace Location

def text (location : Location) : String :=
  location.resource ++ ":" ++ location.line.repr

end Location

structure Located (ε : Type) where
  cause : ε
  location : Location
deriving DecidableEq, Repr

namespace Located

/-- The location comes first, so that every message says where to look. -/
def message (describe : ε → String) (error : Located ε) : String :=
  error.location.text ++ ": " ++ describe error.cause

end Located

end Stencil
