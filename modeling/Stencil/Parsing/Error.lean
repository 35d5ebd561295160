import Stencil.Location

/-!
# Causes of parse errors

What can be wrong with a template, and how each cause is worded.  A stop is a directive that ends
the part before it; a construct is what such a part belongs to.
-/

namespace Stencil

/-!
## Stops and constructs
-/

inductive Stop where
  | closing
  | elseBranch
  | elseIf
  | endOfFile
deriving DecidableEq, Repr

namespace Stop

def text : Stop → String
  | closing => "#end"
  | elseBranch => "#else"
  | elseIf => "#elseif"
  | endOfFile => "end of file"

end Stop

inductive Opener where
  | conditional
  | elseIf
  | elseBranch
  | forEach
deriving DecidableEq, Repr

namespace Opener

def text : Opener → String
  | conditional => "#if"
  | elseIf => "#elseif"
  | elseBranch => "#else"
  | forEach => "#foreach"

/-- Only a condition may be followed by further branches. -/
def accepts : Opener → Stop → Bool
  | _, .closing => true
  | .conditional, .elseBranch => true
  | .conditional, .elseIf => true
  | .elseIf, .elseBranch => true
  | .elseIf, .elseIf => true
  | _, _ => false

end Opener

inductive Construct where
  | outside
  | inside (opener : Opener) (line : Nat)
deriving DecidableEq, Repr

namespace Construct

def text : Construct → String
  | outside => "outside any construct"
  | inside opener line => "while parsing " ++ opener.text ++ " starting on line " ++ line.repr

def accepts : Construct → Stop → Bool
  | outside, stop => stop = .endOfFile
  | inside opener _, stop => opener.accepts stop

theorem accepts_endOfFile_inside (opener : Opener) (line : Nat) :
    (inside opener line).accepts .endOfFile = false := by
  cases opener <;> rfl

end Construct

/-!
## Errors
-/

inductive ParseError where
  | expected (what : String) (found : Option Char)
  | unterminatedQuotedBlock
  | unexpectedStop (stop : Stop) (construct : Construct)
  | invalidIdentifier (what : String) (found : Option Char)
  | invalidInteger (numeral : String)
  | bareIdentifier (name : String) (nullAllowed : Bool)
  | unknownOperator (found : Char)
  | unsupported (feature : String)
  | undefinedMacro (name : String)
deriving DecidableEq, Repr

namespace ParseError

def quoted (c : Char) : String :=
  "`" ++ String.singleton c ++ "`"

def found : Option Char → String
  | none => Stop.endOfFile.text
  | some '\n' => "newline"
  | some c => quoted c

def message : ParseError → String
  | expected what next => "expected " ++ what ++ ", found " ++ found next
  | unterminatedQuotedBlock => "unterminated #[[ - did not see matching ]]#"
  | unexpectedStop stop construct => "found " ++ stop.text ++ " " ++ construct.text
  | invalidIdentifier what next =>
      what ++ " should start with an ASCII letter, found " ++ found next
  | invalidInteger numeral => "invalid integer literal `" ++ numeral ++ "`"
  | bareIdentifier name nullAllowed =>
      "identifier must be preceded by $ or be "
        ++ (if nullAllowed then "true, false or null" else "true or false") ++ ": " ++ name
  | unknownOperator c => "expected an operator, found " ++ quoted c
  | unsupported feature => feature ++ " is not supported"
  | undefinedMacro name =>
      "#" ++ name ++ " is neither a standard directive nor a macro that has been defined"

end ParseError

end Stencil
