import Stencil.Expr.Basic
import Stencil.Integer
import Stencil.Parsing.Reading

/-!
# Reading references and literals

The operands of expressions: references with their suffixes, integers, keywords, lists and
ranges.  A reader gives the cursor behind what it has read; each of them ends because it only calls
on readers of a shorter text.
-/

namespace Stencil

/-!
## Integers and keywords
-/

namespace Literal

def atInteger (c : Cursor) : Bool :=
  c.current.any fun x => x = '-' || x.isDigit

theorem size_dropInteger_lt {c : Cursor} (h : atInteger c = true) :
    ((c.accept '-').dropWhile Char.isDigit).size < c.size := by
  cases hx : c.current with
  | none =>
      rw [atInteger, hx] at h
      cases h
  | some x =>
      by_cases sign : x = '-'
      · rw [Cursor.accept, if_pos (hx.trans (congrArg some sign))]
        exact Nat.lt_of_le_of_lt (Cursor.size_dropWhile_le _ _) (Cursor.size_advance_lt hx)
      · rw [Cursor.accept, if_neg fun same => sign (Option.some.inj (hx.symm.trans same))]
        rw [atInteger, hx, Option.any_some, decide_eq_false sign, Bool.false_or] at h
        exact Cursor.size_dropWhile_lt hx h

def numeral (c : Cursor) : List Char :=
  let sign := if c.current = some '-' then ['-'] else []
  sign ++ (c.accept '-').takeWhile Char.isDigit

def readInteger (c : Cursor) (h : atInteger c = true) : Attempt (Parsed c.size Literal) :=
  match Integer.ofText? (numeral c) with
  | some n => .ok ⟨int n, (c.accept '-').dropWhile Char.isDigit, size_dropInteger_lt h⟩
  | none => .error (c.fail (.invalidInteger (String.ofList (numeral c))))

def ofKeyword? (nullAllowed : Bool) (name : String) : Option Literal :=
  if name = "true" then some (bool true)
  else if name = "false" then some (bool false)
  else if name = "null" ∧ nullAllowed then some null
  else none

def readKeyword (nullAllowed : Bool) (c : Cursor) : Attempt (Parsed c.size Literal) :=
  match c.identifier "identifier without $" with
  | .error e => .error e
  | .ok ⟨name, rest, h⟩ =>
      match ofKeyword? nullAllowed name with
      | some value => .ok ⟨value, rest, h⟩
      | none => .error (c.fail (.bareIdentifier name nullAllowed))

end Literal

/-!
## References, lists and ranges

Where a dollar sign, a bracket or a parenthesis has told what is to be read, the reader starts
behind that mark and takes the closing mark along.
-/

namespace Reference

/-- The cursor behind a dot; a dot belongs to a reference only in front of a letter. -/
def takeDot? (c : Cursor) : Option { r : Cursor // r.size < c.size } :=
  match c.take? '.' with
  | some r => if r.1.atLetter then some r else none
  | none => none

end Reference

mutual

def Expr.readPrimary (nullAllowed : Bool) (c : Cursor) : Attempt (Parsed c.size Expr) :=
  ((Expr.readOperand nullAllowed c.skipSpace).within c.size_skipSpace_le).skipSpace
termination_by 4 * c.size + 2
decreasing_by
  have := c.size_skipSpace_le
  omega

def Expr.readOperand (nullAllowed : Bool) (c : Cursor) : Attempt (Parsed c.size Expr) :=
  match c.next? with
  | none => .error (c.unexpected "a reference or a literal")
  | some ⟨x, c₁, h₁⟩ =>
      if x = '$' then
        ((Reference.readRequired c₁).after h₁).mapValue Expr.ofReference
      else if x = '"' ∨ x = '\'' then
        .error (c.fail (.unsupported "string literals"))
      else if integer : Literal.atInteger c = true then
        (Literal.readInteger c integer).mapValue (Expr.literal · c.location)
      else if x = '[' then
        (Expr.readList c.location c₁).after h₁
      else if x.isAlpha then
        (Literal.readKeyword nullAllowed c).mapValue (Expr.literal · c.location)
      else
        .error (c.unexpected "a reference or a literal")
termination_by 4 * c.size + 1

def Expr.readList (location : Location) (c : Cursor) : Attempt (Parsed c.size Expr) :=
  (Expr.readListHere location c.skipSpace).within c.size_skipSpace_le
termination_by 4 * c.size + 4
decreasing_by
  have := c.size_skipSpace_le
  omega

def Expr.readListHere (location : Location) (c : Cursor) : Attempt (Parsed c.size Expr) :=
  match c.take? ']' with
  | some ⟨c₁, h₁⟩ => .ok ⟨.list [] location, c₁, h₁⟩
  | none =>
      (Expr.readPrimary false c).andThen fun first c₁ _ =>
        match c₁.take? '.' with
        | some ⟨c₂, h₂⟩ => (Expr.readRangeEnd first location c₂).after h₂
        | none => (Expr.readItems c₁).mapValue fun items => .list (first :: items) location
termination_by 4 * c.size + 3

/-- Reads a range behind the first of its two dots. -/
def Expr.readRangeEnd (first : Expr) (location : Location) (c : Cursor) :
    Attempt (Parsed c.size Expr) :=
  (c.require '.' "two dots (..) in range literal").andThen fun _ c₁ _ =>
    (Expr.readPrimary false c₁).andThen fun last c₂ _ =>
      (c₂.require ']' "`]` at end of range literal").mapValue fun _ =>
        .range first last location
termination_by 4 * c.size

/-- Reads the items of a list behind the first one, up to the closing bracket. -/
def Expr.readItems (c : Cursor) : Attempt (Parsed c.size (List Expr)) :=
  match c.take? ',' with
  | some ⟨c₁, h₁⟩ =>
      ((Expr.readPrimary false c₁).andThen fun item c₂ _ =>
        (Expr.readItems c₂).mapValue fun items => item :: items).after h₁
  | none => (c.require ']' "`]` at end of list literal").mapValue fun _ => []
termination_by 4 * c.size

/-- Reads a reference behind its dollar sign, in a place where only a reference will do. -/
def Reference.readRequired (c : Cursor) : Attempt (Parsed c.size Reference) :=
  match c.take? '!' with
  | some ⟨c₁, h₁⟩ => (Reference.readBraced true c₁).after h₁
  | none => Reference.readBraced false c
termination_by 4 * c.size + 2

def Reference.readBraced (silent : Bool) (c : Cursor) : Attempt (Parsed c.size Reference) :=
  match c.take? '\x7b' with
  | some ⟨c₁, h₁⟩ =>
      ((Reference.readNamed silent c₁).andThen fun ref c₂ _ =>
        (c₂.expect '\x7d').mapValue fun _ => ref).after h₁
  | none => Reference.readNamed silent c
termination_by 4 * c.size + 1

def Reference.readNamed (silent : Bool) (c : Cursor) : Attempt (Parsed c.size Reference) :=
  (c.identifier "reference").andMaybe fun name c₁ _ =>
    Reference.readSuffixes (.plain name silent c.location) c₁
termination_by 4 * c.size

def Reference.readSuffixes (lhs : Reference) (c : Cursor) :
    Attempt (Parsed (c.size + 1) Reference) :=
  match Reference.takeDot? c with
  | some ⟨c₁, h₁⟩ =>
      (((c₁.identifier "member").andMaybe fun name c₂ _ =>
        match c₂.take? '(' with
        | some ⟨c₃, h₃⟩ =>
            (((Reference.readArguments c₃).andMaybe fun args c₄ _ =>
              Reference.readSuffixes (.method lhs name args lhs.silent c.location) c₄).after
                h₃).weaken
        | none => Reference.readSuffixes (.member lhs name lhs.silent c.location) c₂).after
          h₁).weaken
  | none =>
      match c.take? '[' with
      | some ⟨c₁, h₁⟩ =>
          (((Expr.readPrimary false c₁).andThen fun index c₂ _ =>
            (c₂.require ']' "`]`").andMaybe fun _ c₃ _ =>
              Reference.readSuffixes (.index lhs index lhs.silent c.location) c₃).after h₁).weaken
      | none => .ok (.here lhs c)
termination_by 4 * c.size

def Reference.readArguments (c : Cursor) : Attempt (Parsed c.size (List Expr)) :=
  (Reference.readArgumentsHere c.skipSpace).within c.size_skipSpace_le
termination_by 4 * c.size + 4
decreasing_by
  have := c.size_skipSpace_le
  omega

/-- Reads arguments up to the closing parenthesis; commas between them may be left out. -/
def Reference.readArgumentsHere (c : Cursor) : Attempt (Parsed c.size (List Expr)) :=
  match c.take? ')' with
  | some ⟨c₁, h₁⟩ => .ok ⟨[], c₁, h₁⟩
  | none =>
      if c.current = none then
        .error (c.unexpected "`)` to close the argument list")
      else
        (Expr.readPrimary true c).andThen fun arg c₁ _ =>
          match c₁.take? ',' with
          | some ⟨c₂, h₂⟩ =>
              if c₂.skipSpace.current = some ')' then
                .error (c₂.skipSpace.unexpected "an argument after `,`")
              else
                ((Reference.readArguments c₂).mapValue fun args => arg :: args).after h₂
          | none => (Reference.readArgumentsHere c₁).mapValue fun args => arg :: args
termination_by 4 * c.size + 3

end

end Stencil
