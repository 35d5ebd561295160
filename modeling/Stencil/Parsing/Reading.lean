import Stencil.Cursor
import Stencil.Parsing.Error
import Stencil.Text.Identifier

/-!
# Reading steps

The result of reading something is a value and the cursor behind it, with a proof that fewer than
a given number of characters are left.  A reader that gets a cursor of size `n` and has to move on
promises the bound `n`, one that may stay where it is the bound `n + 1`.  The promise is what makes
readers that call each other terminate; the functions below pass it on.
-/

namespace Stencil

structure Parsed (bound : Nat) (α : Type) where
  value : α
  rest : Cursor
  size_rest_lt : rest.size < bound

namespace Parsed

def map (f : α → β) (p : Parsed bound α) : Parsed bound β :=
  ⟨f p.value, p.rest, p.size_rest_lt⟩

def within (h : m ≤ n) (p : Parsed m α) : Parsed n α :=
  ⟨p.value, p.rest, Nat.lt_of_lt_of_le p.size_rest_lt h⟩

def weaken (p : Parsed bound α) : Parsed (bound + 1) α :=
  p.within (Nat.le_succ bound)

def after {r : Cursor} (h : r.size < bound) (p : Parsed r.size α) : Parsed bound α :=
  p.within (Nat.le_of_lt h)

/-- A reader that may stay where it is moves on together with a step before it. -/
def afterStep {r : Cursor} (h : r.size < bound) (p : Parsed (r.size + 1) α) : Parsed bound α :=
  p.within h

def skipSpace (p : Parsed bound α) : Parsed bound α :=
  ⟨p.value, p.rest.skipSpace, Nat.lt_of_le_of_lt p.rest.size_skipSpace_le p.size_rest_lt⟩

def accept (x : Char) (p : Parsed bound α) : Parsed bound α :=
  ⟨p.value, p.rest.accept x, Nat.lt_of_le_of_lt (p.rest.size_accept_le x) p.size_rest_lt⟩

def advance (p : Parsed bound α) : Parsed bound α :=
  ⟨p.value, p.rest.advance, Nat.lt_of_le_of_lt p.rest.size_advance_le p.size_rest_lt⟩

def here (value : α) (c : Cursor) : Parsed (c.size + 1) α :=
  ⟨value, c, Nat.lt_succ_self c.size⟩

end Parsed

abbrev Attempt := Except (Located ParseError)

namespace Attempt

def within (h : m ≤ n) (x : Attempt (Parsed m α)) : Attempt (Parsed n α) :=
  x.map (Parsed.within h)

def weaken (x : Attempt (Parsed n α)) : Attempt (Parsed (n + 1) α) :=
  x.map Parsed.weaken

def after {r : Cursor} (h : r.size < n) (x : Attempt (Parsed r.size α)) : Attempt (Parsed n α) :=
  x.map (Parsed.after h)

def afterStep {r : Cursor} (h : r.size < n) (x : Attempt (Parsed (r.size + 1) α)) :
    Attempt (Parsed n α) :=
  x.map (Parsed.afterStep h)

/-- A reader that may stay where it is may also start further on. -/
def afterSpace {c : Cursor} (x : Attempt (Parsed (c.skipSpace.size + 1) α)) :
    Attempt (Parsed (c.size + 1) α) :=
  x.within (Nat.succ_le_succ c.size_skipSpace_le)

def skipSpace (x : Attempt (Parsed n α)) : Attempt (Parsed n α) :=
  x.map Parsed.skipSpace

def accept (y : Char) (x : Attempt (Parsed n α)) : Attempt (Parsed n α) :=
  x.map (Parsed.accept y)

def mapValue (f : α → β) (x : Attempt (Parsed n α)) : Attempt (Parsed n β) :=
  x.map (Parsed.map f)

/-- Goes on behind the value with a reader that moves on. -/
def andThen (x : Attempt (Parsed n α))
    (next : α → (r : Cursor) → r.size < n → Attempt (Parsed r.size β)) : Attempt (Parsed n β) :=
  match x with
  | .ok ⟨value, rest, h⟩ => (next value rest h).map (Parsed.after h)
  | .error e => .error e

/-- Goes on behind the value with a reader that may stay where it is. -/
def andMaybe (x : Attempt (Parsed n α))
    (next : α → (r : Cursor) → r.size < n → Attempt (Parsed (r.size + 1) β)) :
    Attempt (Parsed n β) :=
  match x with
  | .ok ⟨value, rest, h⟩ => (next value rest h).map (Parsed.afterStep h)
  | .error e => .error e

end Attempt

namespace Cursor

/-!
## Single characters and identifiers
-/

def fail (c : Cursor) (cause : ParseError) : Located ParseError :=
  ⟨cause, c.location⟩

def unexpected (c : Cursor) (what : String) : Located ParseError :=
  c.fail (.expected what c.current)

def next? (c : Cursor) : Option (Parsed c.size Char) :=
  match h : c.current with
  | some x => some ⟨x, c.advance, size_advance_lt h⟩
  | none => none

def take? (x : Char) (c : Cursor) : Option { r : Cursor // r.size < c.size } :=
  if h : c.current = some x then some ⟨c.advance, size_advance_lt h⟩ else none

def require (x : Char) (what : String) (c : Cursor) : Attempt (Parsed c.size Unit) :=
  match c.take? x with
  | some ⟨r, h⟩ => .ok ⟨(), r, h⟩
  | none => .error (c.unexpected what)

def expect (x : Char) (c : Cursor) : Attempt (Parsed c.size Unit) :=
  (c.skipSpace.require x (ParseError.quoted x)).within c.size_skipSpace_le

def atLetter (c : Cursor) : Bool :=
  c.current.any Char.isAlpha

theorem size_dropIdentifier_lt {c : Cursor} (h : c.atLetter = true) :
    (c.dropWhile Text.isIdentifierChar).size < c.size := by
  cases hx : c.current with
  | none =>
      rw [atLetter, hx] at h
      cases h
  | some x =>
      rw [atLetter, hx] at h
      exact size_dropWhile_lt hx (Text.isIdentifierChar_of_isAlpha h)

def identifier (what : String) (c : Cursor) : Attempt (Parsed c.size String) :=
  if h : c.atLetter = true then
    .ok ⟨String.ofList (c.takeWhile Text.isIdentifierChar),
      c.dropWhile Text.isIdentifierChar, size_dropIdentifier_lt h⟩
  else
    .error (c.fail (.invalidIdentifier what c.current))

end Cursor

end Stencil
