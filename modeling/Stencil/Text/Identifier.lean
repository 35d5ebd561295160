/-!
# Identifiers

An identifier is an ASCII letter followed by ASCII letters, digits, hyphens and underscores.
Scanning splits the longest run of identifier characters off a text.
-/

namespace Stencil
namespace Text

def isIdentifierChar (c : Char) : Bool :=
  c.isAlphanum || c == '-' || c == '_'

def IsIdentifier : List Char → Prop
  | [] => False
  | c :: rest => c.isAlpha = true ∧ ∀ x ∈ rest, isIdentifierChar x = true

instance : DecidablePred IsIdentifier
  | [] => inferInstanceAs (Decidable False)
  | c :: rest =>
      have : Decidable (∀ x ∈ rest, isIdentifierChar x = true) := List.decidableBAll _ rest
      inferInstanceAs (Decidable (c.isAlpha = true ∧ ∀ x ∈ rest, _))

theorem isIdentifierChar_of_isAlpha {c : Char} (h : c.isAlpha = true) :
    isIdentifierChar c = true := by
  simp [isIdentifierChar, Char.isAlphanum, h]

theorem IsIdentifier.all_isIdentifierChar {cs : List Char} (h : IsIdentifier cs) :
    ∀ c ∈ cs, isIdentifierChar c = true := by
  cases cs with
  | nil => exact absurd h id
  | cons c rest =>
      intro x hx
      cases hx with
      | head => exact isIdentifierChar_of_isAlpha h.1
      | tail _ hx => exact h.2 x hx

end Text
end Stencil
