/-!
# Dictionaries

Entries under text keys, kept in increasing order of the keys.  The functions on plain lists of
entries find and replace by key whatever the order is; a dictionary is such a list with a proof
that its keys increase.
-/

namespace Stencil

abbrev Entries (β : Type) := List (String × β)

namespace Entries

def Sorted (entries : Entries β) : Prop :=
  entries.Pairwise fun a b => a.1 < b.1

instance (entries : Entries β) : Decidable (Sorted entries) :=
  inferInstanceAs (Decidable (List.Pairwise _ _))

def keys (entries : Entries β) : List String :=
  entries.map (·.1)

def values (entries : Entries β) : List β :=
  entries.map (·.2)

def find? (key : String) : Entries β → Option β
  | [] => none
  | (other, value) :: rest => if other = key then some value else find? key rest

/-- Puts an entry in its place among sorted keys; an equal key loses its old value. -/
def insert (key : String) (value : β) : Entries β → Entries β
  | [] => [(key, value)]
  | (other, old) :: rest =>
      if other = key then (key, value) :: rest
      else if key < other then (key, value) :: (other, old) :: rest
      else (other, old) :: insert key value rest

def erase (key : String) (entries : Entries β) : Entries β :=
  entries.filter fun entry => entry.1 ≠ key

/-- Of entries with equal keys the last one counts. -/
def ofList (entries : List (String × β)) : Entries β :=
  entries.foldl (fun built entry => insert entry.1 entry.2 built) []

/-!
## Finding
-/

theorem find?_insert (key other : String) (value : β) (entries : Entries β) :
    find? other (insert key value entries)
      = if key = other then some value else find? other entries := by
  induction entries with
  | nil => rfl
  | cons entry rest ih =>
      rw [insert]
      split
      · next same =>
          rw [find?, find?, same]
          split
          · rfl
          · rfl
      · next different =>
          split
          · rfl
          · rw [find?, find?, ih]
            by_cases found : entry.1 = other
            · rw [if_pos found, if_pos found, if_neg fun same => different (found.trans same.symm)]
            · rw [if_neg found, if_neg found]

theorem find?_erase (key other : String) (entries : Entries β) :
    find? other (erase key entries) = if key = other then none else find? other entries := by
  induction entries with
  | nil =>
      rw [erase, List.filter_nil, find?, ite_self]
  | cons entry rest ih =>
      rw [erase] at ih
      rw [erase, List.filter_cons]
      by_cases same : entry.1 = key
      · rw [if_neg (by simp [same]), ih, find?, same]
        by_cases found : key = other
        · rw [if_pos found, if_pos found]
        · rw [if_neg found, if_neg found, if_neg found]
      · rw [if_pos (by simp [same]), find?, find?, ih]
        by_cases found : entry.1 = other
        · rw [if_pos found, if_pos found, if_neg fun here => same (found.trans here.symm)]
        · rw [if_neg found, if_neg found]

theorem find?_isSome_iff (key : String) (entries : Entries β) :
    (find? key entries).isSome ↔ key ∈ keys entries := by
  induction entries with
  | nil => exact iff_of_false Bool.false_ne_true List.not_mem_nil
  | cons entry rest ih =>
      rw [find?, keys, List.map_cons, List.mem_cons]
      by_cases same : entry.1 = key
      · rw [if_pos same]
        exact iff_of_true rfl (Or.inl same.symm)
      · rw [if_neg same, ih]
        exact (or_iff_right fun here => same here.symm).symm

/-!
## Order
-/

theorem sorted_nil : Sorted ([] : Entries β) :=
  List.Pairwise.nil

theorem mem_insert {key : String} {value : β} {entries : Entries β} {entry : String × β}
    (h : entry ∈ insert key value entries) : entry = (key, value) ∨ entry ∈ entries := by
  induction entries with
  | nil => exact Or.inl (List.mem_singleton.mp h)
  | cons head rest ih =>
      rw [insert] at h
      split at h
      · exact (List.mem_cons.mp h).imp_right (List.mem_cons_of_mem _)
      · split at h
        · exact List.mem_cons.mp h
        · cases List.mem_cons.mp h with
          | inl here => exact Or.inr (here ▸ List.mem_cons_self)
          | inr there => exact (ih there).imp_right (List.mem_cons_of_mem _)

theorem sorted_insert (key : String) (value : β) {entries : Entries β} (h : Sorted entries) :
    Sorted (insert key value entries) := by
  induction entries with
  | nil => exact List.pairwise_singleton _ _
  | cons head rest ih =>
      have ⟨first, later⟩ := List.pairwise_cons.mp h
      rw [insert]
      split
      · next same =>
          exact List.pairwise_cons.mpr ⟨fun entry mem => same ▸ first entry mem, later⟩
      · next different =>
          split
          · next less =>
              refine List.pairwise_cons.mpr ⟨fun entry mem => ?_, h⟩
              cases List.mem_cons.mp mem with
              | inl here => exact here ▸ less
              | inr there => exact String.lt_trans less (first entry there)
          · next notLess =>
              refine List.pairwise_cons.mpr ⟨fun entry mem => ?_, ih later⟩
              cases mem_insert mem with
              | inl here =>
                  rw [here]
                  apply Decidable.byContradiction
                  intro notGreater
                  exact different
                    (String.le_antisymm (String.not_lt.mp notLess) (String.not_lt.mp notGreater))
              | inr there => exact first entry there

theorem sorted_erase (key : String) {entries : Entries β} (h : Sorted entries) :
    Sorted (erase key entries) :=
  List.Pairwise.sublist List.filter_sublist h

theorem sorted_foldl_insert (entries : List (String × β)) {built : Entries β} (h : Sorted built) :
    Sorted (entries.foldl (fun built entry => insert entry.1 entry.2 built) built) := by
  induction entries generalizing built with
  | nil => exact h
  | cons entry rest ih => exact ih (sorted_insert _ _ h)

theorem sorted_ofList (entries : List (String × β)) : Sorted (ofList entries) :=
  sorted_foldl_insert entries sorted_nil

end Entries

/-!
## Dictionaries as sorted entries
-/

structure Dictionary (β : Type) where
  entries : Entries β
  sorted : entries.Sorted

namespace Dictionary

def empty : Dictionary β :=
  ⟨[], Entries.sorted_nil⟩

def get? (dictionary : Dictionary β) (key : String) : Option β :=
  dictionary.entries.find? key

def insert (dictionary : Dictionary β) (key : String) (value : β) : Dictionary β :=
  ⟨dictionary.entries.insert key value, Entries.sorted_insert key value dictionary.sorted⟩

def erase (dictionary : Dictionary β) (key : String) : Dictionary β :=
  ⟨dictionary.entries.erase key, Entries.sorted_erase key dictionary.sorted⟩

def ofList (entries : List (String × β)) : Dictionary β :=
  ⟨Entries.ofList entries, Entries.sorted_ofList entries⟩

def size (dictionary : Dictionary β) : Nat :=
  dictionary.entries.length

theorem get?_insert (dictionary : Dictionary β) (key other : String) (value : β) :
    (dictionary.insert key value).get? other
      = if key = other then some value else dictionary.get? other :=
  Entries.find?_insert key other value dictionary.entries

theorem get?_erase (dictionary : Dictionary β) (key other : String) :
    (dictionary.erase key).get? other
      = if key = other then none else dictionary.get? other :=
  Entries.find?_erase key other dictionary.entries

end Dictionary

end Stencil
