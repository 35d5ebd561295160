import Stencil.Location
import Stencil.Text.Blank

/-!
# Cursors

A cursor is the text that is still to be read, together with the line its first character is on.
Every operation either leaves the text alone or drops characters from its front, except
`pushBack`, which puts one in front; the line grows by one for each newline dropped.
-/

namespace Stencil

structure Cursor where
  resource : String
  remaining : List Char
  line : Nat
deriving DecidableEq, Repr

namespace Cursor

def ofText (resource : String) (text : String) : Cursor :=
  ⟨resource, text.toList, 1⟩

def location (c : Cursor) : Location :=
  ⟨c.resource, c.line⟩

def current (c : Cursor) : Option Char :=
  c.remaining.head?

def size (c : Cursor) : Nat :=
  c.remaining.length

def newlines (cs : List Char) : Nat :=
  cs.count '\n'

/-!
## Moving
-/

/-- At the end of the text there is nothing to drop. -/
def advance (c : Cursor) : Cursor :=
  match c.remaining with
  | [] => c
  | x :: rest => ⟨c.resource, rest, c.line + newlines [x]⟩

def pushBack (x : Char) (c : Cursor) : Cursor :=
  { c with remaining := x :: c.remaining }

def dropWhile (p : Char → Bool) (c : Cursor) : Cursor :=
  ⟨c.resource, c.remaining.dropWhile p, c.line + newlines (c.remaining.takeWhile p)⟩

def takeWhile (p : Char → Bool) (c : Cursor) : List Char :=
  c.remaining.takeWhile p

def skipSpace (c : Cursor) : Cursor :=
  c.dropWhile Text.isBlank

def nextNonSpace (c : Cursor) : Cursor :=
  c.advance.skipSpace

def accept (x : Char) (c : Cursor) : Cursor :=
  if c.current = some x then c.advance else c

/-!
## Sizes
-/

theorem size_advance_lt {c : Cursor} {x : Char} (h : c.current = some x) :
    c.advance.size < c.size := by
  cases c with
  | mk resource remaining line =>
      cases remaining with
      | nil => simp [current] at h
      | cons y rest => simp [advance, size]

theorem size_advance_le (c : Cursor) : c.advance.size ≤ c.size := by
  cases c with
  | mk resource remaining line =>
      cases remaining with
      | nil => simp [advance]
      | cons y rest => simp [advance, size]

theorem size_dropWhile_le (p : Char → Bool) (c : Cursor) : (c.dropWhile p).size ≤ c.size :=
  (List.dropWhile_sublist p).length_le

theorem size_dropWhile_lt {p : Char → Bool} {c : Cursor} {x : Char}
    (h : c.current = some x) (hx : p x = true) : (c.dropWhile p).size < c.size := by
  cases c with
  | mk resource remaining line =>
      cases remaining with
      | nil => simp [current] at h
      | cons y rest =>
          cases (Option.some.inj h : y = x)
          have hle := (List.dropWhile_sublist p (l := rest)).length_le
          simp only [dropWhile, size, List.dropWhile_cons, hx, if_true, List.length_cons]
          omega

theorem size_skipSpace_le (c : Cursor) : c.skipSpace.size ≤ c.size :=
  size_dropWhile_le _ c

theorem size_accept_le (x : Char) (c : Cursor) : (c.accept x).size ≤ c.size := by
  rw [accept]
  split
  · exact size_advance_le c
  · exact Nat.le_refl _

end Cursor

end Stencil
