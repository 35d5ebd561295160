import Stencil.Context

/-!
# Sorted entries

Entries in increasing order of their keys have each key once, so that they are found where they
stand, and no two lists of them answer all questions alike.  The order of the keys is that of their
code points.
-/

namespace Stencil

namespace Text

def codePoints (s : String) : List Nat :=
  s.toList.map Char.toNat

/-- Texts are ordered by their code points, from the left. -/
theorem codePoints_lt {s t : String} (h : s < t) : codePoints s < codePoints t :=
  List.map_lt (fun _ _ hless => hless) (String.lt_iff.mp h)

end Text

namespace Entries

variable {β : Type} {entries others : Entries β} {entry : String × β} {key : String} {value : β}

theorem find?_eq_none_iff : find? key entries = none ↔ key ∉ keys entries := by
  rw [← find?_isSome_iff, Bool.not_eq_true, Option.isSome_eq_false_iff, Option.isNone_iff_eq_none]

theorem find?_append (key : String) (entries others : Entries β) :
    find? key (entries ++ others) = (find? key entries).or (find? key others) := by
  induction entries with
  | nil => rfl
  | cons entry rest ih =>
      rw [List.cons_append, find?, find?, ih]
      split
      · rfl
      · rfl

theorem find?_map_values (f : α → β) (key : String) (entries : Entries α) :
    find? key (entries.map fun entry => (entry.1, f entry.2)) = (find? key entries).map f := by
  induction entries with
  | nil => rfl
  | cons entry rest ih =>
      rw [List.map_cons, find?, find?, ih]
      split
      · rfl
      · rfl

/-- Of several entries put in one after the other the last one with a key counts. -/
theorem find?_foldl_insert (key : String) (entries built : Entries β) :
    find? key (entries.foldl (fun built entry => insert entry.1 entry.2 built) built)
      = (find? key entries.reverse).or (find? key built) := by
  induction entries generalizing built with
  | nil => rfl
  | cons entry rest ih =>
      rw [List.foldl_cons, ih, find?_insert, List.reverse_cons, find?_append, Option.or_assoc,
        find?, find?]
      congr 1
      split
      · rfl
      · rfl

theorem mem_of_find? (h : find? key entries = some value) : (key, value) ∈ entries := by
  induction entries with
  | nil => cases h
  | cons first rest ih =>
      rw [find?] at h
      split at h
      · next hsame =>
          cases hsame
          cases h
          exact List.mem_cons_self
      · exact List.mem_cons_of_mem _ (ih h)

theorem find?_of_mem (hsorted : Sorted entries) (h : entry ∈ entries) :
    find? entry.1 entries = some entry.2 := by
  induction entries with
  | nil => cases h
  | cons first rest ih =>
      rcases List.pairwise_cons.mp hsorted with ⟨hfirst, hrest⟩
      rw [find?]
      rcases List.mem_cons.mp h with rfl | hmem
      · exact if_pos rfl
      · have hdifferent : first.1 ≠ entry.1 := by
          intro hsame
          exact String.lt_irrefl _ (hsame ▸ hfirst entry hmem)
        rw [if_neg hdifferent]
        exact ih hrest hmem

theorem mem_iff_find? (hsorted : Sorted entries) :
    entry ∈ entries ↔ find? entry.1 entries = some entry.2 :=
  ⟨find?_of_mem hsorted, mem_of_find?⟩

theorem find?_reverse (hsorted : Sorted entries) :
    find? key entries.reverse = find? key entries := by
  induction entries with
  | nil => rfl
  | cons first rest ih =>
      rcases List.pairwise_cons.mp hsorted with ⟨hfirst, hrest⟩
      rw [List.reverse_cons, find?_append, ih hrest, find?, find?, find?]
      split
      · next hsame =>
          have hnone : find? key rest = none := by
            refine find?_eq_none_iff.mpr fun hmem => ?_
            rcases List.mem_map.mp hmem with ⟨entry, hentry, hkey⟩
            have hless := hfirst entry hentry
            rw [hsame, hkey] at hless
            exact String.lt_irrefl _ hless
          rw [hnone]
          rfl
      · exact Option.or_none

theorem pairwise_keys (hsorted : Sorted entries) :
    (keys entries).Pairwise fun a b => Text.codePoints a < Text.codePoints b :=
  List.pairwise_map.mpr (hsorted.imp Text.codePoints_lt)

theorem Sorted.nodup (hsorted : Sorted entries) : entries.Nodup := by
  refine hsorted.imp ?_
  rintro a b hless rfl
  exact String.lt_irrefl _ hless

theorem eq_of_find?_eq (hentries : Sorted entries) (hothers : Sorted others)
    (h : ∀ key, find? key entries = find? key others) : entries = others := by
  have hperm : entries.Perm others := by
    rw [List.perm_ext_iff_of_nodup hentries.nodup hothers.nodup]
    intro entry
    rw [mem_iff_find? hentries, mem_iff_find? hothers, h]
  refine hperm.eq_of_pairwise ?_ hentries hothers
  intro a b _ _ hless hgreater
  exact absurd (String.lt_trans hless hgreater) (String.lt_irrefl _)

end Entries

theorem Context.get?_ofVariables (bindings : List (String × Value)) (name : String) :
    (ofVariables bindings).get? name = Entries.find? name bindings.reverse :=
  (Entries.find?_foldl_insert name bindings []).trans Option.or_none

end Stencil
