import Stencil.Json.Reader
import Stencil.Proofs.SortedEntries

/-!
# Documents with sorted keys

An object that is read keeps its members in increasing order of their keys, each key once, and so do
all objects inside it.  Of members with equal keys the text may have several; the last one is kept.
This comes from the laws of the library, whatever texts it accepts.
-/

namespace Stencil
namespace Json

/-!
## Order of keys
-/

mutual

/-- Every object inside has its keys in increasing order. -/
def WellFormed : Json → Prop
  | array items => AllWellFormed items
  | object members => Entries.Sorted members ∧ MembersWellFormed members
  | _ => True

def AllWellFormed : List Json → Prop
  | [] => True
  | item :: rest => WellFormed item ∧ AllWellFormed rest

def MembersWellFormed : List (String × Json) → Prop
  | [] => True
  | (_, member) :: rest => WellFormed member ∧ MembersWellFormed rest

end

theorem membersWellFormed_iff {members : List (String × Json)} :
    MembersWellFormed members ↔ ∀ entry ∈ members, entry.2.WellFormed := by
  induction members with
  | nil => simp [MembersWellFormed]
  | cons entry rest ih => simp only [MembersWellFormed, ih, List.forall_mem_cons]

/-!
## Documents as they are read
-/

namespace Library

variable {lib : Library} {text key : String} {members : List (String × Json)}

theorem mem_of_mem_collect (hlib : lib.Lawful) {entry : String × Json}
    (h : entry ∈ lib.collect members) : entry ∈ members := by
  have hfind := Entries.find?_of_mem (hlib.sorted_collect members) h
  rw [hlib.find?_collect] at hfind
  exact List.mem_reverse.mp (Entries.mem_of_find? hfind)

theorem wellFormed_collect (hlib : lib.Lawful) (h : MembersWellFormed members) :
    (object (lib.collect members)).WellFormed := by
  refine ⟨hlib.sorted_collect members, membersWellFormed_iff.mpr ?_⟩
  intro entry hentry
  exact membersWellFormed_iff.mp h entry (mem_of_mem_collect hlib hentry)

mutual

theorem wellFormed_build (hlib : lib.Lawful) : ∀ document, (lib.build document).WellFormed
  | null | bool _ | number _ | string _ => True.intro
  | array items => wellFormed_buildItems hlib items
  | object members => wellFormed_collect hlib (wellFormed_buildMembers hlib members)

theorem wellFormed_buildItems (hlib : lib.Lawful) : ∀ items, AllWellFormed (lib.buildItems items)
  | [] => True.intro
  | item :: rest => ⟨wellFormed_build hlib item, wellFormed_buildItems hlib rest⟩

theorem wellFormed_buildMembers (hlib : lib.Lawful) :
    ∀ members, MembersWellFormed (lib.buildMembers members)
  | [] => True.intro
  | (_, member) :: rest => ⟨wellFormed_build hlib member, wellFormed_buildMembers hlib rest⟩

end

theorem exists_parsed {document : Json} (h : lib.read text = .ok document) :
    ∃ written, lib.parse text = .ok written ∧ lib.build written = document := by
  rw [read] at h
  cases hparse : lib.parse text with
  | error detail =>
      rw [hparse] at h
      cases h
  | ok written =>
      rw [hparse] at h
      cases h
      exact ⟨written, rfl, rfl⟩

theorem wellFormed_of_read (hlib : lib.Lawful) {document : Json}
    (h : lib.read text = .ok document) : document.WellFormed := by
  rcases exists_parsed h with ⟨written, _, rfl⟩
  exact wellFormed_build hlib written

theorem buildMembers_eq_map (members : List (String × Json)) :
    lib.buildMembers members = members.map fun member => (member.1, lib.build member.2) := by
  induction members with
  | nil => rfl
  | cons member rest ih => rw [buildMembers, ih, List.map_cons]

theorem exists_written (h : lib.read text = .ok (object members)) :
    ∃ written, lib.parse text = .ok (object written)
      ∧ members = lib.collect (lib.buildMembers written) := by
  rcases exists_parsed h with ⟨document, hparse, hbuild⟩
  cases document with
  | object written =>
      cases hbuild
      exact ⟨written, hparse, rfl⟩
  | _ => cases hbuild

/-- Under a key stands what its last member is written as. -/
theorem find?_of_read (hlib : lib.Lawful) {written : List (String × Json)}
    (hmembers : members = lib.collect (lib.buildMembers written)) (key : String) :
    Entries.find? key members = (Entries.find? key written.reverse).map lib.build := by
  rw [hmembers, hlib.find?_collect, buildMembers_eq_map, ← List.map_reverse,
    Entries.find?_map_values]

end Library

theorem lawful_strict (depth : Nat) : (strict depth).Lawful where
  sorted_collect := Entries.sorted_ofList
  find?_collect members key :=
    (Entries.find?_foldl_insert key members []).trans Option.or_none
  int?_eq_some_iff _ _ := Number.int?_eq_some_iff

theorem lawful_standard : standard.Lawful :=
  lawful_strict maxDepth

end Json
end Stencil
