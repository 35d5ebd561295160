import Stencil.Proofs.SortedDocuments
import Stencil.Proofs.SortedEntries
import Stencil.Variables

/-!
# Conversion of documents

A document is converted as a whole or not at all.  It can be converted if all numbers in it are
integers of 64 bits, and the result is the value that the document is written for.  Otherwise the
number that is blamed is the first one that is no such integer, by a depth-first walk that takes the
items of an array by index and the members of an object by the code points of their keys.  Where a
number stands is said by a path, and the order of the walk is the lexicographic order of the paths.
Of the library that reads the document nothing is used but its laws.
-/

namespace Stencil

/-!
## Documents of values
-/

namespace Value

mutual

def toJson : Value → Json
  | null => .null
  | bool value => .bool value
  | int value => .number (.integer value.toInt)
  | str value => .string value
  | list items => .array (itemsToJson items)
  | map entries => .object (entriesToJson entries)

def itemsToJson : List Value → List Json
  | [] => []
  | item :: rest => item.toJson :: itemsToJson rest

def entriesToJson : List (String × Value) → List (String × Json)
  | [] => []
  | (key, value) :: rest => (key, value.toJson) :: entriesToJson rest

end

theorem itemsToJson_eq_map (items : List Value) : itemsToJson items = items.map toJson := by
  induction items with
  | nil => rfl
  | cons item rest ih => rw [itemsToJson, ih, List.map_cons]

theorem entriesToJson_eq_map (entries : List (String × Value)) :
    entriesToJson entries = entries.map fun entry => (entry.1, entry.2.toJson) := by
  induction entries with
  | nil => rfl
  | cons entry rest ih => rw [entriesToJson, ih, List.map_cons]

theorem find?_entriesToJson (key : String) (entries : List (String × Value)) :
    Entries.find? key (entriesToJson entries) = (Entries.find? key entries).map toJson := by
  rw [entriesToJson_eq_map, Entries.find?_map_values]

end Value

namespace Json

/-!
## Paths
-/

inductive Step where
  | item (index : Nat)
  | member (key : String)
deriving DecidableEq, Repr

namespace Step

def text : Step → String
  | item index => "[" ++ index.repr ++ "]"
  | member key => "." ++ key

/-- Items stand in the order of their indexes, members in that of the code points of their keys. -/
def Before : Step → Step → Prop
  | item i, item j => i < j
  | member key, member other => Text.codePoints key < Text.codePoints other
  | _, _ => False

end Step

def pathText (start : String) (steps : List Step) : String :=
  steps.foldl (fun path step => path ++ step.text) start

theorem pathText_item (path : String) (index : Nat) (steps : List Step) :
    pathText path (.item index :: steps) = pathText (itemPath path index) steps := by
  rw [pathText, List.foldl_cons, Step.text, ← String.append_assoc, ← String.append_assoc]
  rfl

theorem pathText_member (path key : String) (steps : List Step) :
    pathText path (.member key :: steps) = pathText (memberPath path key) steps := by
  rw [pathText, List.foldl_cons, Step.text, ← String.append_assoc]
  rfl

def at? : Json → List Step → Option Json
  | document, [] => some document
  | array items, .item index :: rest =>
      match items[index]? with
      | some item => item.at? rest
      | none => none
  | object members, .member key :: rest =>
      match Entries.find? key members with
      | some member => member.at? rest
      | none => none
  | _, _ :: _ => none

def Number.IsWord (n : Number) : Prop :=
  ∃ value : Int64, n = .integer value.toInt

def Integral (document : Json) : Prop :=
  ∀ steps n, document.at? steps = some (number n) -> n.IsWord

/-- The path leads to a number that is no integer of 64 bits, and every path before it that leads to
a number leads to such an integer. -/
structure FirstMisfit (document : Json) (steps : List Step) (n : Number) : Prop where
  at_eq : document.at? steps = some (number n)
  misfit : ¬ n.IsWord
  first : ∀ earlier m, List.Lex Step.Before earlier steps ->
    document.at? earlier = some (number m) -> m.IsWord

theorem Library.Lawful.not_isWord {lib : Library} (hlib : lib.Lawful) {n : Number}
    (h : lib.int? n = none) : ¬ n.IsWord := by
  intro hword
  rcases hword with ⟨value, hvalue⟩
  rw [(hlib.int?_eq_some_iff n value).mpr hvalue] at h
  cases h

theorem integral_toJson (value : Value) : value.toJson.Integral := by
  intro steps
  induction steps generalizing value with
  | nil =>
      intro n h
      cases value with
      | int value =>
          cases h
          exact ⟨value, rfl⟩
      | _ => cases h
  | cons step rest ih =>
      intro n h
      cases value with
      | list items =>
          cases step with
          | member key => cases h
          | item index =>
              rw [Value.toJson, Value.itemsToJson_eq_map, at?, List.getElem?_map] at h
              cases hitem : items[index]? with
              | none =>
                  rw [hitem] at h
                  cases h
              | some item =>
                  rw [hitem] at h
                  exact ih item n h
      | map entries =>
          cases step with
          | item index => cases h
          | member key =>
              rw [Value.toJson, at?, Value.find?_entriesToJson] at h
              cases hmember : Entries.find? key entries with
              | none =>
                  rw [hmember] at h
                  cases h
              | some member =>
                  rw [hmember] at h
                  exact ih member n h
      | _ =>
          cases step with
          | item index => cases h
          | member key => cases h

/-!
## Results of two steps

A list is converted from its first part on, and what is left of it only if that succeeds.
-/

section

variable {α β γ ε : Type} {x : Except ε α} {y : Except ε β} {e : ε}

theorem exists_of_map {f : α → β} {b : β} (h : x.map f = .ok b) : ∃ a, x = .ok a ∧ b = f a := by
  cases x with
  | error found => cases h
  | ok a =>
      cases h
      exact ⟨a, rfl, rfl⟩

theorem error_of_map {f : α → β} (h : x.map f = .error e) : x = .error e := by
  cases x with
  | error found =>
      cases h
      rfl
  | ok a => cases h

theorem exists_of_both {f : α → β → γ} {c : γ}
    (h : (do let a ← x; let b ← y; return f a b) = Except.ok c) :
    ∃ a b, x = .ok a ∧ y = .ok b ∧ c = f a b := by
  cases x with
  | error found => cases h
  | ok a =>
      cases y with
      | error found => cases h
      | ok b =>
          cases h
          exact ⟨a, b, rfl, rfl, rfl⟩

theorem error_of_both {f : α → β → γ}
    (h : (do let a ← x; let b ← y; return f a b) = Except.error e) :
    x = .error e ∨ ∃ a, x = .ok a ∧ y = .error e := by
  cases x with
  | error found =>
      cases h
      exact Or.inl rfl
  | ok a =>
      cases y with
      | error found =>
          cases h
          exact Or.inr ⟨a, rfl, rfl⟩
      | ok b => cases h

end

/-!
## What is converted
-/

variable {lib : Library}

mutual

theorem toValue_toJson (hlib : lib.Lawful) : ∀ (value : Value) (path : String),
    toValue lib path value.toJson = .ok value
  | .null, _ => rfl
  | .bool _, _ => rfl
  | .int value, path => by
      rw [Value.toJson, toValue, (hlib.int?_eq_some_iff _ value).mpr rfl]
  | .str _, _ => rfl
  | .list items, path => by
      rw [Value.toJson, toValue, itemsToValues_toJson hlib items path 0]
      rfl
  | .map entries, path => by
      rw [Value.toJson, toValue, membersToValues_toJson hlib entries (memberPath path)]
      rfl

theorem itemsToValues_toJson (hlib : lib.Lawful) :
    ∀ (items : List Value) (path : String) (index : Nat),
    itemsToValues lib path index (Value.itemsToJson items) = .ok items
  | [], _, _ => rfl
  | item :: rest, path, index => by
      rw [Value.itemsToJson, itemsToValues, toValue_toJson hlib item,
        itemsToValues_toJson hlib rest]
      rfl

theorem membersToValues_toJson (hlib : lib.Lawful) :
    ∀ (entries : List (String × Value)) (path : String → String),
    membersToValues lib path (Value.entriesToJson entries) = .ok entries
  | [], _ => rfl
  | (key, value) :: rest, path => by
      rw [Value.entriesToJson, membersToValues, toValue_toJson hlib value,
        membersToValues_toJson hlib rest]
      rfl

end

mutual

theorem toJson_of_toValue (hlib : lib.Lawful) :
    ∀ {document : Json} {path : String} {value : Value},
    toValue lib path document = .ok value -> value.toJson = document
  | .null, _, _, h => by cases h; rfl
  | .bool _, _, _, h => by cases h; rfl
  | .number n, _, _, h => by
      rw [toValue] at h
      split at h
      · next value hvalue =>
          cases h
          rw [Value.toJson, ← (hlib.int?_eq_some_iff n value).mp hvalue]
      · cases h
  | .string _, _, _, h => by cases h; rfl
  | .array items, path, value, h => by
      rw [toValue] at h
      rcases exists_of_map h with ⟨values, hitems, rfl⟩
      rw [Value.toJson, toJson_of_itemsToValues hlib hitems]
  | .object members, path, value, h => by
      rw [toValue] at h
      rcases exists_of_map h with ⟨entries, hmembers, rfl⟩
      rw [Value.toJson, toJson_of_membersToValues hlib hmembers]

theorem toJson_of_itemsToValues (hlib : lib.Lawful) :
    ∀ {items : List Json} {path : String} {index : Nat} {values : List Value},
    itemsToValues lib path index items = .ok values -> Value.itemsToJson values = items
  | [], _, _, _, h => by cases h; rfl
  | item :: rest, path, index, values, h => by
      rw [itemsToValues] at h
      rcases exists_of_both h with ⟨value, others, hitem, hrest, rfl⟩
      rw [Value.itemsToJson, toJson_of_toValue hlib hitem, toJson_of_itemsToValues hlib hrest]

theorem toJson_of_membersToValues (hlib : lib.Lawful) :
    ∀ {members : List (String × Json)} {path : String → String}
      {entries : List (String × Value)},
    membersToValues lib path members = .ok entries -> Value.entriesToJson entries = members
  | [], _, _, h => by cases h; rfl
  | (key, member) :: rest, path, entries, h => by
      rw [membersToValues] at h
      rcases exists_of_both h with ⟨value, others, hmember, hrest, rfl⟩
      rw [Value.entriesToJson, toJson_of_toValue hlib hmember,
        toJson_of_membersToValues hlib hrest]

end

theorem toValue_eq_ok_iff (hlib : lib.Lawful) {document : Json} {path : String} {value : Value} :
    toValue lib path document = .ok value ↔ value.toJson = document := by
  constructor
  · exact toJson_of_toValue hlib
  · intro h
    rw [← h]
    exact toValue_toJson hlib value path

theorem membersToValues_eq_ok_iff (hlib : lib.Lawful) {members : List (String × Json)}
    {path : String → String} {entries : List (String × Value)} :
    membersToValues lib path members = .ok entries ↔ Value.entriesToJson entries = members := by
  constructor
  · exact toJson_of_membersToValues hlib
  · intro h
    rw [← h]
    exact membersToValues_toJson hlib entries path

/-!
## What is blamed
-/

theorem at?_item (items : List Json) (index : Nat) (rest : List Step) :
    (array items).at? (.item index :: rest) = items[index]?.bind fun item => item.at? rest := by
  rw [at?]
  cases items[index]? <;> rfl

theorem at?_member (members : List (String × Json)) (key : String) (rest : List Step) :
    (object members).at? (.member key :: rest)
      = (Entries.find? key members).bind fun member => member.at? rest := by
  rw [at?]
  cases Entries.find? key members <;> rfl

theorem integral_of_toValue (hlib : lib.Lawful) {document : Json} {path : String} {value : Value}
    (h : toValue lib path document = .ok value) : document.Integral := by
  rw [← (toValue_eq_ok_iff hlib).mp h]
  exact integral_toJson value

section

variable {steps : List Step} {n : Number}

theorem firstMisfit_array {front back : List Json} {item : Json}
    (hfront : ∀ earlier ∈ front, earlier.Integral) (h : item.FirstMisfit steps n) :
    (array (front ++ item :: back)).FirstMisfit (.item front.length :: steps) n where
  at_eq := by
    rw [at?_item, List.getElem?_append_right (Nat.le_refl _), Nat.sub_self]
    exact h.at_eq
  misfit := h.misfit
  first := by
    intro earlier m hearlier hnumber
    cases hearlier with
    | nil => cases hnumber
    | cons hrest =>
        rw [at?_item, List.getElem?_append_right (Nat.le_refl _), Nat.sub_self] at hnumber
        exact h.first _ m hrest hnumber
    | @rel step rest _ _ hbefore =>
        cases step with
        | member key => cases hbefore
        | item index =>
            have hlt : index < front.length := hbefore
            rw [at?_item, List.getElem?_append_left hlt, List.getElem?_eq_getElem hlt] at hnumber
            exact hfront _ (List.getElem_mem hlt) rest m hnumber

theorem firstMisfit_object {front back : List (String × Json)} {key : String} {member : Json}
    (hsorted : Entries.Sorted (front ++ (key, member) :: back))
    (hfront : ∀ entry ∈ front, entry.2.Integral) (h : member.FirstMisfit steps n) :
    (object (front ++ (key, member) :: back)).FirstMisfit (.member key :: steps) n := by
  have hfind : Entries.find? key (front ++ (key, member) :: back) = some member :=
    Entries.find?_of_mem hsorted (List.mem_append_right front List.mem_cons_self)
  refine ⟨?_, h.misfit, ?_⟩
  · rw [at?_member, hfind]
    exact h.at_eq
  · intro earlier m hearlier hnumber
    cases hearlier with
    | nil => cases hnumber
    | cons hrest =>
        rw [at?_member, hfind] at hnumber
        exact h.first _ m hrest hnumber
    | @rel step rest _ _ hbefore =>
        cases step with
        | item index => cases hbefore
        | member other =>
            have hless : Text.codePoints other < Text.codePoints key := hbefore
            rw [at?_member] at hnumber
            rcases Option.bind_eq_some_iff.mp hnumber with ⟨found, hother, hnumber⟩
            -- What has a smaller key stands in front.
            have hmem : (other, found) ∈ front := by
              rcases List.mem_append.mp (Entries.mem_of_find? hother) with hmem | hmem
              · exact hmem
              · exfalso
                rcases List.mem_cons.mp hmem with hsame | hback
                · cases hsame
                  exact List.lt_irrefl _ hless
                · have hlater := (List.pairwise_append.mp hsorted).2.1
                  have hgreater := (List.pairwise_cons.mp hlater).1 _ hback
                  exact List.lt_asymm hless (Text.codePoints_lt hgreater)
            exact hfront _ hmem rest m hnumber

end

mutual

theorem blames_toValue (hlib : lib.Lawful) :
    ∀ {document : Json} {path : String} {e : VariableError},
    document.WellFormed -> toValue lib path document = .error e ->
    ∃ steps n, document.FirstMisfit steps n
      ∧ e = .notAnInteger (pathText path steps) (lib.numberText n)
  | .null, _, _, _, h => by cases h
  | .bool _, _, _, _, h => by cases h
  | .number n, path, e, _, h => by
      rw [toValue] at h
      split at h
      · cases h
      · next hnone =>
          cases h
          refine ⟨[], n, ⟨rfl, hlib.not_isWord hnone, ?_⟩, rfl⟩
          intro earlier m hearlier
          cases hearlier
  | .string _, _, _, _, h => by cases h
  | .array items, path, e, hwf, h => by
      rw [toValue] at h
      rcases blames_itemsToValues hlib hwf (error_of_map h) with
        ⟨front, item, back, steps, n, rfl, hfront, hitem, he⟩
      rw [Nat.zero_add, ← pathText_item] at he
      exact ⟨.item front.length :: steps, n, firstMisfit_array hfront hitem, he⟩
  | .object members, path, e, ⟨hsorted, hwf⟩, h => by
      rw [toValue] at h
      rcases blames_membersToValues hlib hwf (error_of_map h) with
        ⟨front, key, member, back, steps, n, rfl, hfront, hmember, he⟩
      rw [← pathText_member] at he
      exact ⟨.member key :: steps, n, firstMisfit_object hsorted hfront hmember, he⟩

theorem blames_itemsToValues (hlib : lib.Lawful) :
    ∀ {items : List Json} {path : String} {index : Nat} {e : VariableError},
    AllWellFormed items -> itemsToValues lib path index items = .error e ->
    ∃ front item back steps n, items = front ++ item :: back
      ∧ (∀ earlier ∈ front, Integral earlier) ∧ item.FirstMisfit steps n
      ∧ e = .notAnInteger (pathText (itemPath path (index + front.length)) steps)
          (lib.numberText n)
  | [], _, _, _, _, h => by cases h
  | item :: rest, path, index, e, ⟨hwf, hwf'⟩, h => by
      rw [itemsToValues] at h
      rcases error_of_both h with hitem | ⟨value, hitem, hrest⟩
      · rcases blames_toValue hlib hwf hitem with ⟨steps, n, hmisfit, he⟩
        exact ⟨[], item, rest, steps, n, rfl, List.forall_mem_nil _, hmisfit, he⟩
      · rcases blames_itemsToValues hlib hwf' hrest with
          ⟨front, bad, back, steps, n, rfl, hfront, hmisfit, he⟩
        rw [Nat.add_assoc, Nat.add_comm 1] at he
        refine ⟨item :: front, bad, back, steps, n, rfl, ?_, hmisfit, he⟩
        exact List.forall_mem_cons.mpr ⟨integral_of_toValue hlib hitem, hfront⟩

theorem blames_membersToValues (hlib : lib.Lawful) :
    ∀ {members : List (String × Json)} {path : String → String} {e : VariableError},
    MembersWellFormed members -> membersToValues lib path members = .error e ->
    ∃ front key member back steps n, members = front ++ (key, member) :: back
      ∧ (∀ entry ∈ front, Integral entry.2) ∧ member.FirstMisfit steps n
      ∧ e = .notAnInteger (pathText (path key) steps) (lib.numberText n)
  | [], _, _, _, h => by cases h
  | (key, member) :: rest, path, e, ⟨hwf, hwf'⟩, h => by
      rw [membersToValues] at h
      rcases error_of_both h with hmember | ⟨value, hmember, hrest⟩
      · rcases blames_toValue hlib hwf hmember with ⟨steps, n, hmisfit, he⟩
        exact ⟨[], key, member, rest, steps, n, rfl, List.forall_mem_nil _, hmisfit, he⟩
      · rcases blames_membersToValues hlib hwf' hrest with
          ⟨front, other, bad, back, steps, n, rfl, hfront, hmisfit, he⟩
        refine ⟨(key, member) :: front, other, bad, back, steps, n, rfl, ?_, hmisfit, he⟩
        exact List.forall_mem_cons.mpr ⟨integral_of_toValue hlib hmember, hfront⟩

end

theorem exists_toValue_iff (hlib : lib.Lawful) {document : Json} (path : String)
    (hwf : document.WellFormed) :
    (∃ value, toValue lib path document = .ok value) ↔ document.Integral := by
  constructor
  · intro h
    rcases h with ⟨value, h⟩
    exact integral_of_toValue hlib h
  · intro hintegral
    cases h : toValue lib path document with
    | ok value => exact ⟨value, rfl⟩
    | error e =>
        rcases blames_toValue hlib hwf h with ⟨steps, n, hmisfit, _⟩
        exact absurd (hintegral steps n hmisfit.at_eq) hmisfit.misfit

end Json

/-!
## Texts of variables
-/

namespace Variables

open Json

variable {lib : Library} {text : String} {members : List (String × Json)}

theorem ofText_eq (h : lib.read text = .ok (object members)) :
    ofText lib text = membersToValues lib id members := by
  rw [ofText, h]
  rfl

theorem sorted_ofText (hlib : lib.Lawful) {entries : List (String × Value)}
    (h : ofText lib text = .ok entries) : Entries.Sorted entries := by
  rw [ofText] at h
  split at h
  · next document hread =>
      cases document with
      | object members =>
          have hsorted := (Library.wellFormed_of_read hlib hread).1
          rw [← (membersToValues_eq_ok_iff hlib).mp h, Value.entriesToJson_eq_map, Entries.Sorted,
            List.pairwise_map] at hsorted
          exact hsorted
      | _ => cases h
  · cases h

theorem blames_ofText (hlib : lib.Lawful) (hread : lib.read text = .ok (object members))
    {e : VariableError} (h : ofText lib text = .error e) :
    ∃ key steps n, (object members).FirstMisfit (.member key :: steps) n
      ∧ e = .notAnInteger (pathText key steps) (lib.numberText n) := by
  rcases Library.wellFormed_of_read hlib hread with ⟨hsorted, hwf⟩
  rw [ofText_eq hread] at h
  rcases blames_membersToValues hlib hwf h with
    ⟨front, key, member, back, steps, n, rfl, hfront, hmember, he⟩
  exact ⟨key, steps, n, firstMisfit_object hsorted hfront hmember, he⟩

/-- Either all of a document is converted, or the first number is blamed that is no integer.  The
document of a text has the last member written under each key, in the order of the keys. -/
theorem converts_or_blames_first (hlib : lib.Lawful) :
    (∀ (document : Json) (path : String), document.WellFormed ->
      (∀ value, Json.toValue lib path document = .ok value ↔ value.toJson = document)
        ∧ ((∃ value, Json.toValue lib path document = .ok value) ↔ document.Integral)
        ∧ ∀ e, Json.toValue lib path document = .error e ->
          ∃ steps n, document.FirstMisfit steps n
            ∧ e = .notAnInteger (pathText path steps) (lib.numberText n))
      ∧ ∀ (text : String) (members : List (String × Json)),
        lib.read text = .ok (object members) ->
        (∃ written, lib.parse text = .ok (object written) ∧ Entries.Sorted members
            ∧ ∀ key, Entries.find? key members
              = (Entries.find? key written.reverse).map lib.build)
          ∧ (∀ entries, ofText lib text = .ok entries ↔ Value.entriesToJson entries = members)
          ∧ ((∃ entries, ofText lib text = .ok entries) ↔ (object members).Integral)
          ∧ ∀ e, ofText lib text = .error e ->
            ∃ key steps n, (object members).FirstMisfit (.member key :: steps) n
              ∧ e = .notAnInteger (pathText key steps) (lib.numberText n) := by
  constructor
  · intro document path hwf
    exact ⟨fun value => toValue_eq_ok_iff hlib, exists_toValue_iff hlib path hwf,
      fun e h => blames_toValue hlib hwf h⟩
  · intro text members hread
    have hentries : ∀ entries, ofText lib text = .ok entries
        ↔ Value.entriesToJson entries = members := by
      intro entries
      rw [ofText_eq hread]
      exact membersToValues_eq_ok_iff hlib
    refine ⟨?_, hentries, ?_, fun e h => blames_ofText hlib hread h⟩
    · rcases Library.exists_written hread with ⟨written, hwritten, hmembers⟩
      exact ⟨written, hwritten, (Library.wellFormed_of_read hlib hread).1,
        Library.find?_of_read hlib hmembers⟩
    · constructor
      · intro h
        rcases h with ⟨entries, h⟩
        rw [← (hentries entries).mp h]
        exact integral_toJson (.map entries)
      · intro hintegral
        cases h : ofText lib text with
        | ok entries => exact ⟨entries, rfl⟩
        | error e =>
            rcases blames_ofText hlib hread h with ⟨key, steps, n, hmisfit, _⟩
            exact absurd (hintegral _ n hmisfit.at_eq) hmisfit.misfit

/-- One more than the largest integer is blamed where it stands, in front of a fraction. -/
theorem converts_or_blames_first_nested :
    let bad : Json := .array [.number (.integer 1), .number (.integer 9223372036854775808)]
    let document : Json := .object [("m", .object [("xs", bad)]), ("z", .number (.float 0.5))]
    let text := "\x7b\"z\": [], \"m\": 1, \"m\": \x7b\"xs\": [1, 9223372036854775808]\x7d\x7d"
    (document.WellFormed ∧ ∃ steps n, document.FirstMisfit steps n
        ∧ pathText "v" steps = "v.m.xs[1]" ∧ standard.numberText n = "9223372036854775808")
      ∧ ∃ members key steps n, standard.read text = .ok (object members)
        ∧ (object members).FirstMisfit (.member key :: steps) n
        ∧ ofText standard text
          = .error (.notAnInteger (pathText key steps) (standard.numberText n)) := by
  intro bad document text
  have hwf : document.WellFormed := by
    refine ⟨by decide, ⟨by decide, ?_, trivial⟩, trivial, trivial⟩
    exact ⟨trivial, trivial, trivial⟩
  have herror : Json.toValue standard "v" document
      = .error (.notAnInteger "v.m.xs[1]" "9223372036854775808") := by
    rfl
  have hkind : (standard.read text).toOption.map kindText = some "object" := by
    decide +kernel
  have hfails : (ofText standard text).isOk = false := by
    decide +kernel
  have hfirst := converts_or_blames_first lawful_standard
  constructor
  · refine ⟨hwf, ?_⟩
    rcases (hfirst.1 document "v" hwf).2.2 _ herror with ⟨steps, n, hmisfit, hblame⟩
    have hparts := VariableError.notAnInteger.inj hblame
    exact ⟨steps, n, hmisfit, hparts.1.symm, hparts.2.symm⟩
  · cases hread : standard.read text with
    | error detail =>
        rw [hread] at hkind
        cases hkind
    | ok found =>
        rw [hread] at hkind
        cases found with
        | object members =>
            cases h : ofText standard text with
            | ok entries =>
                rw [h] at hfails
                cases hfails
            | error e =>
                rcases (hfirst.2 text members hread).2.2.2 e h with
                  ⟨key, steps, n, hmisfit, rfl⟩
                exact ⟨members, key, steps, n, rfl, hmisfit, rfl⟩
        | _ => simp [Except.toOption, kindText] at hkind

end Variables
end Stencil
