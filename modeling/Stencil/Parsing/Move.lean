import Stencil.Parsing.Reading

/-!
# Moves of a cursor

The steps a cursor can be sent through one after another.  A step that fails leaves the cursor
where the failure is reported, and the next one goes on from there.
-/

namespace Stencil

inductive Move where
  | advance
  | skipSpace
  | nextNonSpace
  | pushBack (x : Char)
  | expect (x : Char)
  | report (what : String)
deriving DecidableEq, Repr

namespace Move

def apply (c : Cursor) : Move → Cursor
  | advance => c.advance
  | skipSpace => c.skipSpace
  | nextNonSpace => c.nextNonSpace
  | pushBack x => c.pushBack x
  | expect x =>
      match c.expect x with
      | .ok p => p.rest
      | .error _ => c.skipSpace
  | report _ => c

def failure? (c : Cursor) : Move → Option (Located ParseError)
  | expect x =>
      match c.expect x with
      | .ok _ => none
      | .error error => some error
  | report what => some (c.unexpected what)
  | _ => none

end Move

end Stencil
