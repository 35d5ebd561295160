/-!
# Binary operators

The thirteen operators of the expression language with their symbols and precedences, and the
sentinel `stop`, which has the empty symbol and binds weaker than every real operator.
-/

namespace Stencil

inductive Operator where
  | stop
  | or
  | and
  | equal
  | notEqual
  | less
  | lessOrEqual
  | greater
  | greaterOrEqual
  | plus
  | minus
  | times
  | divide
  | remainder
deriving DecidableEq, Repr, Inhabited

namespace Operator

/-- The real operators; of two that start alike the shorter comes first. -/
def all : List Operator :=
  [or, and, equal, notEqual, less, lessOrEqual, greater, greaterOrEqual,
    plus, minus, times, divide, remainder]

def symbol : Operator → String
  | stop => ""
  | or => "||"
  | and => "&&"
  | equal => "=="
  | notEqual => "!="
  | less => "<"
  | lessOrEqual => "<="
  | greater => ">"
  | greaterOrEqual => ">="
  | plus => "+"
  | minus => "-"
  | times => "*"
  | divide => "/"
  | remainder => "%"

def precedence : Operator → Nat
  | stop => 0
  | or => 1
  | and => 2
  | equal | notEqual => 3
  | less | lessOrEqual | greater | greaterOrEqual => 4
  | plus | minus => 5
  | times | divide | remainder => 6

def length (op : Operator) : Nat :=
  op.symbol.toList.length

def first? (op : Operator) : Option Char :=
  op.symbol.toList[0]?

def second? (op : Operator) : Option Char :=
  op.symbol.toList[1]?

def startingWith (c : Char) : List Operator :=
  all.filter fun op => op.first? = some c

/-- The longest operator that starts with `c`, given the character after it. -/
def longest? (c : Char) (next : Option Char) : Option Operator :=
  match (startingWith c).find? fun op => op.length = 2 ∧ op.second? = next with
  | some op => some op
  | none => (startingWith c).find? fun op => op.length = 1

theorem mem_all_iff {op : Operator} : op ∈ all ↔ op ≠ stop := by
  cases op <;> decide

theorem precedence_pos_iff {op : Operator} : 0 < op.precedence ↔ op ≠ stop := by
  cases op <;> decide

end Operator

end Stencil
