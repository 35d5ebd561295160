import Stencil.Text.CaseMapping
import Stencil.Text.CaseProperty

/-!
# Upper and lower case

Full case mapping, in which a character may become several.  Lower-casing has one rule that looks
at the surroundings: a capital sigma that ends a word gets the final form.
-/

namespace Stencil
namespace Text

namespace CaseRange

def mem (range : CaseRange) (n : Nat) : Bool :=
  range.first ≤ n && n ≤ range.last && (n - range.first) % range.step == 0

def apply (range : CaseRange) (n : Nat) : Nat :=
  (n + range.shift).toNat

end CaseRange

def mapCase (ranges : List CaseRange) (expansions : List (Nat × List Nat)) (c : Char) :
    List Char :=
  match expansions.find? (·.1 == c.toNat) with
  | some (_, expansion) => expansion.map Char.ofNat
  | none =>
      match ranges.find? (·.mem c.toNat) with
      | some range => [Char.ofNat (range.apply c.toNat)]
      | none => [c]

def upperChar (c : Char) : List Char :=
  mapCase upperRanges upperExpansions c

def lowerChar (c : Char) : List Char :=
  mapCase lowerRanges lowerExpansions c

def toUpperCase (s : String) : String :=
  String.ofList (s.toList.flatMap upperChar)

/-!
## Lower case
-/

def inRanges (ranges : List (Nat × Nat)) (c : Char) : Bool :=
  ranges.any fun (first, last) => first ≤ c.toNat && c.toNat ≤ last

def isCased (c : Char) : Bool :=
  inRanges casedRanges c

def isCaseIgnorable (c : Char) : Bool :=
  inRanges caseIgnorableRanges c

/-- Whether a cased letter comes next, characters that do not matter for case apart. -/
def leadsToCased (cs : List Char) : Bool :=
  (cs.dropWhile isCaseIgnorable).head?.any isCased

def capitalSigma : Char := 'Σ'

def smallSigma : Char := 'σ'

def finalSigma : Char := 'ς'

/-- Lower-cases a text, given the characters before it, the nearest first. -/
def lowerAfter (before : List Char) : List Char → List Char
  | [] => []
  | c :: rest =>
      let mapped :=
        if c = capitalSigma then
          if leadsToCased before && !leadsToCased rest then [finalSigma] else [smallSigma]
        else
          lowerChar c
      mapped ++ lowerAfter (c :: before) rest

def toLowerCase (s : String) : String :=
  String.ofList (lowerAfter [] s.toList)

end Text
end Stencil
