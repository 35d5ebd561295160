import Stencil.Json.Number

/-!
# Reading JSON

A strict reader: no comments, no trailing commas, no raw control characters in strings, no lone
surrogates, and no numbers that a float cannot hold.  Arrays and objects may be nested up to a
given depth, and objects keep their members as they are written.  Each reader gives what it read
with the rest of the text and a proof that the rest is shorter than a bound, and the functions on
items and readings pass the proof on.
-/

namespace Stencil
namespace Json

structure Item (bound : Nat) (α : Type) where
  value : α
  rest : List Char
  length_rest_lt : rest.length < bound

namespace Item

def map (f : α → β) (item : Item bound α) : Item bound β :=
  ⟨f item.value, item.rest, item.length_rest_lt⟩

def within (h : m ≤ n) (item : Item m α) : Item n α :=
  ⟨item.value, item.rest, Nat.lt_of_lt_of_le item.length_rest_lt h⟩

def weaken (item : Item n α) : Item (n + 1) α :=
  item.within (Nat.le_succ n)

def here (value : α) (cs : List Char) : Item (cs.length + 1) α :=
  ⟨value, cs, Nat.lt_succ_self cs.length⟩

end Item

abbrev Reading (bound : Nat) (α : Type) := Option (Item bound α)

namespace Reading

def mapValue (f : α → β) (x : Reading n α) : Reading n β :=
  x.map (Item.map f)

def within (h : m ≤ n) (x : Reading m α) : Reading n α :=
  x.map (Item.within h)

def weaken (x : Reading n α) : Reading (n + 1) α :=
  x.map Item.weaken

def andThen (x : Reading n α)
    (next : α → (rest : List Char) → rest.length < n → Reading rest.length β) : Reading n β :=
  match x with
  | none => none
  | some ⟨value, rest, h⟩ => (next value rest h).within (Nat.le_of_lt h)

def andMaybe (x : Reading n α)
    (next : α → (rest : List Char) → rest.length < n → Reading (rest.length + 1) β) :
    Reading n β :=
  match x with
  | none => none
  | some ⟨value, rest, h⟩ => (next value rest h).within h

end Reading

/-!
## Blanks
-/

def isBlank (c : Char) : Bool :=
  c == ' ' || c == '\n' || c == '\t' || c == '\r'

def skipBlanks (cs : List Char) : List Char :=
  cs.dropWhile isBlank

theorem length_skipBlanks_le (cs : List Char) : (skipBlanks cs).length ≤ cs.length :=
  (List.dropWhile_sublist isBlank).length_le

def readMark (x : Char) (cs : List Char) : Reading cs.length Unit :=
  match skipBlanks cs, length_skipBlanks_le cs with
  | c :: rest, h => if c = x then some ⟨(), rest, h⟩ else none
  | [], _ => none

/-!
## Strings

The readers start behind the opening quote, the backslash or the mark of what they read; a string
takes its closing quote along.  A character outside the basic plane is written as two code units.
-/

def hexDigit? (c : Char) : Option Nat :=
  if c.isDigit then some (c.toNat - '0'.toNat)
  else if 'a' ≤ c ∧ c ≤ 'f' then some (c.toNat - 'a'.toNat + 10)
  else if 'A' ≤ c ∧ c ≤ 'F' then some (c.toNat - 'A'.toNat + 10)
  else none

def unit? (a b c d : Char) : Option Nat := do
  let w ← hexDigit? a
  let x ← hexDigit? b
  let y ← hexDigit? c
  let z ← hexDigit? d
  return ((w * 16 + x) * 16 + y) * 16 + z

def readUnit : (cs : List Char) → Reading cs.length Nat
  | a :: b :: c :: d :: rest =>
      (unit? a b c d).map fun unit => (Item.here unit rest).weaken.weaken.weaken
  | _ => none

def isHighSurrogate (unit : Nat) : Bool :=
  0xD800 ≤ unit && unit < 0xDC00

def isLowSurrogate (unit : Nat) : Bool :=
  0xDC00 ≤ unit && unit < 0xE000

def readLowSurrogate : (cs : List Char) → Reading cs.length Nat
  | '\\' :: 'u' :: rest =>
      match readUnit rest with
      | some item => if isLowSurrogate item.value then some item.weaken.weaken else none
      | none => none
  | _ => none

def readUnicode (cs : List Char) : Reading cs.length Char :=
  (readUnit cs).andMaybe fun unit rest _ =>
    if isHighSurrogate unit then
      ((readLowSurrogate rest).mapValue fun low =>
        Char.ofNat (0x10000 + (unit - 0xD800) * 0x400 + (low - 0xDC00))).weaken
    else if isLowSurrogate unit then none
    else some (.here (Char.ofNat unit) rest)

def readEscape : (cs : List Char) → Reading cs.length Char
  | '"' :: rest => some (.here '"' rest)
  | '\\' :: rest => some (.here '\\' rest)
  | '/' :: rest => some (.here '/' rest)
  | 'b' :: rest => some (.here '\x08' rest)
  | 'f' :: rest => some (.here '\x0c' rest)
  | 'n' :: rest => some (.here '\n' rest)
  | 'r' :: rest => some (.here '\r' rest)
  | 't' :: rest => some (.here '\t' rest)
  | 'u' :: rest => (readUnicode rest).weaken
  | _ => none

def readString (before : List Char) (cs : List Char) : Reading cs.length String :=
  match cs with
  | [] => none
  | c :: rest =>
      if c = '"' then
        some (.here (String.ofList before.reverse) rest)
      else if c = '\\' then
        ((readEscape rest).andThen fun escaped tail _ =>
          readString (escaped :: before) tail).weaken
      else if c.toNat < 0x20 then none
      else (readString (c :: before) rest).weaken
termination_by cs.length

/-!
## Numbers
-/

def takeDigits (cs : List Char) : Item (cs.length + 1) (List Char) :=
  ⟨cs.takeWhile Char.isDigit, cs.dropWhile Char.isDigit,
    Nat.lt_succ_of_le (List.dropWhile_sublist Char.isDigit).length_le⟩

def readDigits : (cs : List Char) → Reading cs.length (List Char)
  | [] => none
  | c :: rest => if c.isDigit then some ((takeDigits rest).map (c :: ·)) else none

/-- The digits before the point; a leading zero stands alone. -/
def readWhole (cs : List Char) : Reading cs.length (List Char) :=
  match readDigits cs with
  | some ⟨'0' :: _ :: _, _, _⟩ => none
  | result => result

def readFraction : (cs : List Char) → Reading (cs.length + 1) (Option (List Char))
  | '.' :: rest => ((readDigits rest).mapValue some).weaken.weaken
  | cs => some (.here none cs)

def readSign : (cs : List Char) → Reading (cs.length + 1) Bool
  | '-' :: rest => some (Item.here true rest).weaken
  | '+' :: rest => some (Item.here false rest).weaken
  | cs => some (.here false cs)

def readExponent : (cs : List Char) → Reading (cs.length + 1) (Option (Bool × List Char))
  | [] => some (.here none [])
  | c :: rest =>
      if c = 'e' ∨ c = 'E' then
        ((readSign rest).andThen fun negative behind _ =>
          (readDigits behind).mapValue fun digits => some (negative, digits)).weaken
      else some (.here none (c :: rest))

def readUnsigned (negative : Bool) (cs : List Char) : Reading cs.length Numeral :=
  (readWhole cs).andMaybe fun whole r₁ _ =>
    (readFraction r₁).andMaybe fun fraction r₂ _ =>
      (readExponent r₂).mapValue fun exponent => ⟨negative, whole, fraction, exponent⟩

def readNumeral : (cs : List Char) → Reading cs.length Numeral
  | '-' :: rest => (readUnsigned true rest).weaken
  | cs => readUnsigned false cs

def readNumber (cs : List Char) : Reading cs.length Number :=
  match readNumeral cs with
  | some numeral => numeral.value.toNumber?.map fun number => numeral.map fun _ => number
  | none => none

/-!
## Documents

Arrays and objects are read behind their opening marks, up to their closing ones.
-/

def readWord (value : Json) : (word cs : List Char) → Reading (cs.length + 1) Json
  | [], cs => some (.here value cs)
  | _ :: _, [] => none
  | x :: word, c :: rest => if x = c then (readWord value word rest).weaken else none

mutual

def readValue (depth : Nat) (cs : List Char) : Reading cs.length Json :=
  (readHere depth (skipBlanks cs)).within (length_skipBlanks_le cs)
termination_by 3 * cs.length + 1
decreasing_by
  have := length_skipBlanks_le cs
  omega

def readHere (depth : Nat) (cs : List Char) : Reading cs.length Json :=
  match cs with
  | [] => none
  | c :: rest =>
      if c = '"' then
        ((readString [] rest).mapValue string).weaken
      else if c = '[' then
        match depth with
        | 0 => none
        | depth + 1 =>
            match readMark ']' rest with
            | some closed => some (closed.map fun _ => array []).weaken
            | none => ((readItems depth rest).mapValue array).weaken
      else if c = '\x7b' then
        match depth with
        | 0 => none
        | depth + 1 =>
            match readMark '\x7d' rest with
            | some closed => some (closed.map fun _ => object []).weaken
            | none => ((readMembers depth rest).mapValue object).weaken
      else if c = 't' then
        readWord (bool true) ['r', 'u', 'e'] rest
      else if c = 'f' then
        readWord (bool false) ['a', 'l', 's', 'e'] rest
      else if c = 'n' then
        readWord null ['u', 'l', 'l'] rest
      else
        (readNumber (c :: rest)).mapValue number
termination_by 3 * cs.length

def readItems (depth : Nat) (cs : List Char) : Reading cs.length (List Json) :=
  (readValue depth cs).andThen fun item r₁ _ =>
    match readMark ']' r₁ with
    | some closed => some (closed.map fun _ => [item])
    | none =>
        (readMark ',' r₁).andThen fun _ r₂ _ =>
          (readItems depth r₂).mapValue fun items => item :: items
termination_by 3 * cs.length + 2

def readMembers (depth : Nat) (cs : List Char) : Reading cs.length (List (String × Json)) :=
  (readMark '"' cs).andThen fun _ r₁ _ =>
    (readString [] r₁).andThen fun key r₂ _ =>
      (readMark ':' r₂).andThen fun _ r₃ _ =>
        (readValue depth r₃).andThen fun value r₄ _ =>
          match readMark '\x7d' r₄ with
          | some closed => some (closed.map fun _ => [(key, value)])
          | none =>
              (readMark ',' r₄).andThen fun _ r₅ _ =>
                (readMembers depth r₅).mapValue fun members => (key, value) :: members
termination_by 3 * cs.length + 2

end

def parse (depth : Nat) (text : String) : Option Json := do
  let item ← readValue depth text.toList
  if (skipBlanks item.rest).isEmpty then some item.value else none

/-!
## The library
-/

def strict (depth : Nat) : Library where
  parse text :=
    match parse depth text with
    | some document => .ok document
    | none => .error "malformed document"
  collect := Entries.ofList
  int? := Number.int?
  numberText := Number.text

def maxDepth : Nat := 127

def standard : Library :=
  strict maxDepth

end Json
end Stencil
