import Stencil.Dictionary

/-!
# JSON documents

A JSON document as a tree.  As it is written, an object may have several members with one key, in
any order; as it is read, it has the entries that its members are collected to.  How texts are
parsed, members collected and numbers told apart is the business of a library.
-/

namespace Stencil
namespace Json

/-- A numeral that stands for an integer, or one that stands for a binary floating-point number. -/
inductive Number where
  | integer (value : Int)
  | float (value : Float)
deriving Inhabited

end Json

inductive Json where
  | null
  | bool (value : Bool)
  | number (value : Json.Number)
  | string (value : String)
  | array (items : List Json)
  | object (members : List (String × Json))
deriving Inhabited

namespace Json

def kindText : Json → String
  | null => "null"
  | bool _ => "boolean"
  | number _ => "number"
  | string _ => "string"
  | array _ => "array"
  | object _ => "object"

/-!
## Libraries
-/

/-- What is needed to read documents.  Parsing gives a document as it is written, or tells what is
wrong with the text. -/
structure Library where
  parse : String → Except String Json
  collect : List (String × Json) → List (String × Json)
  int? : Number → Option Int64
  numberText : Number → String

namespace Library

mutual

/-- Collects the members of all objects of a document, inner objects first. -/
def build (lib : Library) : Json → Json
  | null => .null
  | bool value => .bool value
  | number value => .number value
  | string value => .string value
  | array items => .array (lib.buildItems items)
  | object members => .object (lib.collect (lib.buildMembers members))

def buildItems (lib : Library) : List Json → List Json
  | [] => []
  | item :: rest => lib.build item :: lib.buildItems rest

def buildMembers (lib : Library) : List (String × Json) → List (String × Json)
  | [] => []
  | (key, member) :: rest => (key, lib.build member) :: lib.buildMembers rest

end

def read (lib : Library) (text : String) : Except String Json :=
  (lib.parse text).map lib.build

/-- What programs rely on: an object has its keys in increasing order, of members with equal keys
the last one counts, and the numbers that are integers are those written as one of 64 bits. -/
structure Lawful (lib : Library) : Prop where
  sorted_collect : ∀ members, Entries.Sorted (lib.collect members)
  find?_collect : ∀ members key,
    Entries.find? key (lib.collect members) = Entries.find? key members.reverse
  int?_eq_some_iff : ∀ n value, lib.int? n = some value ↔ n = .integer value.toInt

end Library

end Json

end Stencil
