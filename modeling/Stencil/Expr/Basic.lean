import Stencil.Location
import Stencil.Operator

/-!
# Expressions and references

A reference is a chain: a variable followed by members, method calls and indexes, each link with
its own location.  Every expression keeps the location it is blamed at.
-/

namespace Stencil

inductive Literal where
  | null
  | bool (value : Bool)
  | int (value : Int64)
deriving DecidableEq, Inhabited

mutual

inductive Expr where
  | literal (value : Literal) (location : Location)
  | reference (ref : Reference) (location : Location)
  | binary (op : Operator) (lhs rhs : Expr) (location : Location)
  | not (operand : Expr) (location : Location)
  | list (items : List Expr) (location : Location)
  | range (first last : Expr) (location : Location)

inductive Reference where
  | plain (name : String) (silent : Bool) (location : Location)
  | member (lhs : Reference) (name : String) (silent : Bool) (location : Location)
  | method (lhs : Reference) (name : String) (args : List Expr) (silent : Bool)
      (location : Location)
  | index (lhs : Reference) (index : Expr) (silent : Bool) (location : Location)

end

namespace Reference

def location : Reference → Location
  | plain _ _ location => location
  | member _ _ _ location => location
  | method _ _ _ _ location => location
  | index _ _ _ location => location

def silent : Reference → Bool
  | plain _ silent _ => silent
  | member _ _ silent _ => silent
  | method _ _ _ silent _ => silent
  | index _ _ silent _ => silent

def root : Reference → String
  | plain name _ _ => name
  | member lhs _ _ _ => root lhs
  | method lhs _ _ _ _ => root lhs
  | index lhs _ _ _ => root lhs

end Reference

namespace Expr

def location : Expr → Location
  | literal _ location => location
  | reference _ location => location
  | binary _ _ _ location => location
  | not _ location => location
  | list _ location => location
  | range _ _ location => location

/-- A reference used as an expression is blamed at its last link. -/
def ofReference (ref : Reference) : Expr :=
  reference ref ref.location

/-- An operator application is blamed where its left operand is. -/
def apply (op : Operator) (lhs rhs : Expr) : Expr :=
  binary op lhs rhs lhs.location

def isSilent : Expr → Bool
  | reference ref _ => ref.silent
  | _ => false

end Expr

end Stencil
