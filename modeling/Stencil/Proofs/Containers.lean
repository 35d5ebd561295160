import Stencil.Proofs.Equality
import Stencil.Proofs.Iteration
import Stencil.Proofs.MethodCalls

/-!
# Lists and maps

A list can be asked by position, by value and in a loop, a map by key, by position among its keys or
its values and in a loop as well.  The answers agree with each other.  Positions and sizes are
64-bit integers, so the size of a list or a map is assumed to fit, as it does for any in memory.
-/

namespace Stencil

namespace Integer

theorem toInt_ofCount_of_fits {n : Nat} (h : Fits n) : (ofCount n).toInt = n := by
  have hlt := h.2
  rw [toInt_ofCount]
  omega

theorem fits_of_lt {i n : Nat} (hlt : i < n) (h : Fits n) : Fits i := by
  unfold Fits at *
  omega

end Integer

namespace Value

/-!
## Lists
-/

section

variable {items : List Value} {k : Int64} {value : Value}

theorem item_eq_ok_iff :
    item items k = .ok value ↔ 0 ≤ k.toInt ∧ items[k.toInt.toNat]? = some value := by
  rw [item]
  cases k.toInt with
  | ofNat i =>
      dsimp only
      cases hitem : items[i]? with
      | none => simp [hitem]
      | some found => simp [hitem]
  | negSucc i => simp

theorem exists_item_iff :
    (∃ value, item items k = .ok value) ↔ 0 ≤ k.toInt ∧ k.toInt < items.length := by
  constructor
  · rintro ⟨value, hvalue⟩
    rcases item_eq_ok_iff.mp hvalue with ⟨hnonneg, hitem⟩
    rcases List.getElem?_eq_some_iff.mp hitem with ⟨hlt, _⟩
    omega
  · rintro ⟨hnonneg, hlt⟩
    exact ⟨_, item_eq_ok_iff.mpr ⟨hnonneg, List.getElem?_eq_getElem (by omega)⟩⟩

theorem mem_iff_exists_item (hfits : Integer.Fits items.length) :
    value ∈ items ↔ ∃ k, item items k = .ok value := by
  constructor
  · intro hmem
    rcases List.mem_iff_getElem?.mp hmem with ⟨i, hi⟩
    rcases List.getElem?_eq_some_iff.mp hi with ⟨hlt, _⟩
    have hk := Integer.toInt_ofCount_of_fits (Integer.fits_of_lt hlt hfits)
    refine ⟨Integer.ofCount i, item_eq_ok_iff.mpr ⟨?_, ?_⟩⟩
    · omega
    · rw [hk]
      exact hi
  · rintro ⟨k, hk⟩
    exact List.mem_of_getElem? (item_eq_ok_iff.mp hk).2

theorem call_get (receiver key : Value) (haccepts : Method.get.accepts receiver.kind = true) :
    call receiver "get" [key] = index receiver key :=
  @call_method receiver .get [key] haccepts rfl

theorem call_contains (items : List Value) (value : Value) :
    call (list items) "contains" [value] = .ok (bool (items.any (equal · value))) :=
  @call_method (list items) .contains [value] rfl rfl

/-- What can be asked about a list and how the answers go together. -/
structure ListAgrees (items : List Value) (size : Int64) : Prop where
  size_eq : call (list items) "size" [] = .ok (int size)
  length_eq : size.toInt = items.length
  get_eq : ∀ i, call (list items) "get" [i] = index (list items) i
  get_iff : ∀ i, (∃ value, call (list items) "get" [i] = .ok value)
    ↔ ∃ k : Int64, i = int k ∧ 0 ≤ k.toInt ∧ k.toInt < size.toInt
  getElem?_eq : ∀ k value, call (list items) "get" [int k] = .ok value ->
    items[k.toInt.toNat]? = some value
  contains_eq : ∀ value, ∃ found, call (list items) "contains" [value] = .ok (bool found)
    ∧ (found = true ↔ ∃ k item, call (list items) "get" [int k] = .ok item
      ∧ apply .equal item value = .ok (bool true))

theorem exists_index_list_iff {i : Value} :
    (∃ value, index (list items) i = .ok value)
      ↔ ∃ k : Int64, i = int k ∧ 0 ≤ k.toInt ∧ k.toInt < items.length := by
  constructor
  · rintro ⟨value, hvalue⟩
    cases i with
    | int k => exact ⟨k, rfl, exists_item_iff.mp ⟨value, hvalue⟩⟩
    | _ => cases hvalue
  · rintro ⟨k, rfl, hk⟩
    exact exists_item_iff.mpr hk

theorem apply_equal_iff {a b : Value} : apply .equal a b = .ok (bool true) ↔ equal a b = true := by
  rw [apply]
  simp

theorem listAgrees (hfits : Integer.Fits items.length) :
    ListAgrees items (Integer.ofCount items.length) where
  size_eq := @call_method (list items) .size [] rfl rfl
  length_eq := Integer.toInt_ofCount_of_fits hfits
  get_eq := fun i => call_get (list items) i rfl
  get_iff := by
    intro i
    rw [call_get (list items) i rfl, Integer.toInt_ofCount_of_fits hfits]
    exact exists_index_list_iff
  getElem?_eq := by
    intro k value hvalue
    rw [call_get (list items) (int k) rfl] at hvalue
    exact (item_eq_ok_iff.mp hvalue).2
  contains_eq := by
    intro value
    refine ⟨_, call_contains items value, ?_⟩
    rw [List.any_eq_true]
    constructor
    · rintro ⟨found, hfound, hequal⟩
      rcases (mem_iff_exists_item hfits).mp hfound with ⟨k, hk⟩
      refine ⟨k, found, ?_, apply_equal_iff.mpr hequal⟩
      rw [call_get (list items) (int k) rfl]
      exact hk
    · rintro ⟨k, found, hk, hequal⟩
      rw [call_get (list items) (int k) rfl] at hk
      exact ⟨found, (mem_iff_exists_item hfits).mpr ⟨k, hk⟩, apply_equal_iff.mp hequal⟩

end

/-!
## Maps
-/

section

variable {m : Dictionary Value} {key : Value}

theorem index_map (m : Dictionary Value) (key : Value) :
    index (map m.entries) key = .ok ((m.get? key.text).getD null) :=
  rfl

/-- What can be asked about a map and how the answers go together. -/
structure MapAgrees (m : Dictionary Value) (size : Int64) (keys : List String)
    (values : List Value) : Prop where
  size_eq : call (map m.entries) "size" [] = .ok (int size)
  isEmpty_eq : call (map m.entries) "isEmpty" [] = .ok (bool (size = 0))
  keySet_eq : call (map m.entries) "keySet" [] = .ok (list (keys.map str))
  values_eq : call (map m.entries) "values" [] = .ok (list values)
  increasing : keys.Pairwise fun a b => Text.codePoints a < Text.codePoints b
  length_keys : size.toInt = keys.length
  length_values : size.toInt = values.length
  access : ∀ k : Int64, 0 ≤ k.toInt -> k.toInt < size.toInt -> ∃ key value,
    index (list (keys.map str)) (int k) = .ok (str key)
    ∧ index (list values) (int k) = .ok value
    ∧ index (map m.entries) (str key) = .ok value
    ∧ call (map m.entries) "get" [str key] = .ok value
    ∧ member (map m.entries) key = .ok value
  containsKey_eq : ∀ key : Value,
    call (map m.entries) "containsKey" [key] = .ok (bool (key.text ∈ keys))
  missing : ∀ key : Value, key.text ∉ keys ->
    index (map m.entries) key = .ok null
    ∧ call (map m.entries) "get" [key] = .ok null
    ∧ member (map m.entries) key.text = .ok null
  contains_eq : ∀ key : Value, key ≠ .null ->
    call (list (keys.map str)) "contains" [key] = call (map m.entries) "containsKey" [key]

theorem equal_str {s : String} (h : key ≠ .null) : equal (str s) key = decide (s = key.text) := by
  by_cases hkind : (str s).kind = key.kind
  · cases key with
    | str t =>
        rw [equal_of_kind_eq hkind, text_str]
        exact decide_eq_decide.mpr (iff_of_eq (str.injEq s t))
    | _ => cases hkind
  · rw [equal_of_ne_null (by rintro ⟨⟩) h, if_neg hkind, text_str]

theorem any_equal_keys {keys : List String} (h : key ≠ .null) :
    (keys.map str).any (equal · key) = decide (key.text ∈ keys) := by
  rw [Bool.eq_iff_iff, List.any_map, List.any_eq_true, decide_eq_true_iff]
  constructor
  · rintro ⟨s, hs, hequal⟩
    rw [Function.comp_apply, equal_str h, decide_eq_true_iff] at hequal
    exact hequal ▸ hs
  · intro hs
    refine ⟨key.text, hs, ?_⟩
    rw [Function.comp_apply, equal_str h, decide_eq_true_iff]

theorem call_containsKey (m : Dictionary Value) (key : Value) :
    call (map m.entries) "containsKey" [key] = .ok (bool (key.text ∈ m.entries.keys)) := by
  have hcall : call (map m.entries) "containsKey" [key]
      = .ok (bool (Entries.find? key.text m.entries).isSome) :=
    @call_method (map m.entries) .containsKey [key] rfl rfl
  have hfound : (Entries.find? key.text m.entries).isSome
      = decide (key.text ∈ m.entries.keys) := by
    rw [Bool.eq_iff_iff, decide_eq_true_iff]
    exact Entries.find?_isSome_iff key.text m.entries
  rw [hcall, hfound]

theorem access_getElem (m : Dictionary Value) (i : Nat) (h : i < m.entries.length) :
    (m.entries.keys.map str)[i]? = some (str m.entries[i].1)
    ∧ m.entries.values[i]? = some m.entries[i].2
    ∧ index (map m.entries) (str m.entries[i].1) = .ok m.entries[i].2
    ∧ member (map m.entries) m.entries[i].1 = .ok m.entries[i].2 := by
  have hfound : m.get? m.entries[i].1 = some m.entries[i].2 :=
    Entries.find?_of_mem m.sorted (List.getElem_mem h)
  refine ⟨?_, ?_, ?_, ?_⟩
  · rw [Entries.keys, List.map_map, List.getElem?_map, List.getElem?_eq_getElem h]
    rfl
  · rw [Entries.values, List.getElem?_map, List.getElem?_eq_getElem h]
    rfl
  · rw [index_map, text_str, hfound]
    rfl
  · show Except.ok ((m.get? m.entries[i].1).getD null) = _
    rw [hfound]
    rfl

theorem mapAgrees (hfits : Integer.Fits m.size) :
    MapAgrees m (Integer.ofCount m.size) m.entries.keys m.entries.values where
  size_eq := @call_method (map m.entries) .size [] rfl rfl
  isEmpty_eq := by
    have hempty : m.entries.isEmpty = decide (Integer.ofCount m.size = 0) := by
      rw [Bool.eq_iff_iff, decide_eq_true_iff, ← Int64.toInt_inj,
        Integer.toInt_ofCount_of_fits hfits, List.isEmpty_iff_length_eq_zero]
      exact Int.natCast_eq_zero.symm
    rw [← hempty]
    exact @call_method (map m.entries) .isEmpty [] rfl rfl
  keySet_eq := by
    rw [Entries.keys, List.map_map]
    exact @call_method (map m.entries) .keySet [] rfl rfl
  values_eq := @call_method (map m.entries) .values [] rfl rfl
  increasing := Entries.pairwise_keys m.sorted
  length_keys := by
    rw [Integer.toInt_ofCount_of_fits hfits, Entries.keys, List.length_map]
    rfl
  length_values := by
    rw [Integer.toInt_ofCount_of_fits hfits, Entries.values, List.length_map]
    rfl
  access := by
    intro k hnonneg hlt
    rw [Integer.toInt_ofCount_of_fits hfits] at hlt
    have hplace : k.toInt.toNat < m.entries.length := by
      have hsize : m.size = m.entries.length := rfl
      omega
    rcases access_getElem m k.toInt.toNat hplace with ⟨hkey, hvalue, hindex, hmember⟩
    refine ⟨_, _, item_eq_ok_iff.mpr ⟨hnonneg, hkey⟩, item_eq_ok_iff.mpr ⟨hnonneg, hvalue⟩,
      hindex, ?_, hmember⟩
    rw [call_get (map m.entries) _ rfl]
    exact hindex
  containsKey_eq := call_containsKey m
  missing := by
    intro key hkey
    have hmissing : m.get? key.text = none := Entries.find?_eq_none_iff.mpr hkey
    have hindex : index (map m.entries) key = .ok null := by
      rw [index_map, hmissing]
      rfl
    refine ⟨hindex, ?_, hindex⟩
    rw [call_get (map m.entries) key rfl]
    exact hindex
  contains_eq := by
    intro key hkey
    rw [call_contains, any_equal_keys hkey, call_containsKey]

end

/-!
## Loops
-/

/-- A loop over the value is a loop over the list of these items: it has a run for each of them, in
their order, until one fails. -/
structure LoopsOver (value : Value) (items : List Value) : Prop where
  forEach_eq : ∀ (name : String) (collection other : Expr) (body : Node) (location : Location)
      (session : Session),
    collection.evaluate session.context = .ok value ->
    other.evaluate session.context = .ok (list items) ->
    (Node.forEach name collection body location).render session
      = (Node.forEach name other body location).render session
  visits : ∀ (name : String) (collection : Expr) (body : Node) (location : Location)
      (session : Session),
    collection.evaluate session.context = .ok value ->
    let outcome := (Node.forEach name collection body location).render session
    ∃ starts, Runs name body.render items.length 0 items session starts outcome
      ∧ (outcome.failure? = none -> starts.length = items.length)
      ∧ ∀ (i : Nat) (start : Session), starts[i]? = some start -> ∃ item, items[i]? = some item
        ∧ (name ≠ loopVariable -> start.context.get? name = some item)

theorem loopsOver_of_loopItems {value : Value} {items : List Value}
    (hitems : value.loopItems = .ok items) : LoopsOver value items where
  forEach_eq := by
    intro name collection other body location session hvalue hother
    rw [Node.render_forEach hvalue hitems, Node.render_forEach hother rfl]
  visits := by
    intro name collection body location session hvalue outcome
    rcases Node.exists_runs_forEach hvalue hitems with ⟨starts, hruns⟩
    refine ⟨starts, hruns, ?_, ?_⟩
    · intro hdone
      rcases hruns.ends with ⟨hlength, _⟩ | ⟨_, _, error, _, _, _, _, herror⟩
      · exact hlength
      · cases hdone.symm.trans herror
    · intro i start hstart
      rcases hruns.getElem?_start i hstart with ⟨item, hitem, hbound, _⟩
      exact ⟨item, hitem, hbound⟩

/-- All ways to look at a map show the same entries: the keys in the order of their code points, and
the values in the order of the keys, which is also the order of a loop.  What is asked for by a key
is found by its text.  All ways to look at a list show the same items. -/
theorem containers_agree :
    (∀ m : Dictionary Value, Integer.Fits m.size ->
      ∃ size keys values, MapAgrees m size keys values ∧ LoopsOver (map m.entries) values)
    ∧ ∀ items : List Value, Integer.Fits items.length -> ∃ size, ListAgrees items size := by
  constructor
  · exact fun m hfits => ⟨_, _, _, mapAgrees hfits, loopsOver_of_loopItems rfl⟩
  · exact fun items hfits => ⟨_, listAgrees hfits⟩

/-- The keys are an integer, null and a truth value as they are written.  The last one can be asked
for as a truth value, and null is a key only for the map. -/
theorem containers_agree_written :
    let m : Dictionary Value := .ofList [("true", .int 2), ("null", .str "a"), ("1", .null)]
    let written := [.str "1", .str "null", .str "true"]
    Integer.Fits m.size
    ∧ (∃ size keys values, MapAgrees m size keys values ∧ LoopsOver (map m.entries) values
      ∧ keys.map str = written ∧ values = [.null, .str "a", .int 2])
    ∧ call (list written) "contains" [.bool true] = .ok (.bool true)
    ∧ call (list written) "contains" [.null] = .ok (.bool false)
    ∧ call (map m.entries) "containsKey" [.null] = .ok (.bool true)
    ∧ Integer.Fits written.length ∧ ∃ size, ListAgrees written size := by
  intro m written
  rcases containers_agree with ⟨hmaps, hlists⟩
  have hfits : Integer.Fits m.size := by
    decide +kernel
  have hfits' : Integer.Fits written.length := by
    decide +kernel
  have hkeys : call (map m.entries) "keySet" [] = .ok (list written) := by
    decide +kernel
  have hvalues : call (map m.entries) "values" [] = .ok (list [.null, .str "a", .int 2]) := by
    decide +kernel
  have hcontains : call (map m.entries) "containsKey" [.bool true] = .ok (.bool true) := by
    decide +kernel
  rcases hmaps m hfits with ⟨size, keys, values, hmap, hloops⟩
  have hwritten : keys.map str = written :=
    list.inj (Except.ok.inj (hmap.keySet_eq.symm.trans hkeys))
  refine ⟨hfits, ⟨size, keys, values, hmap, hloops, hwritten, ?_⟩, ?_, ?_, ?_, hfits', ?_⟩
  · exact list.inj (Except.ok.inj (hmap.values_eq.symm.trans hvalues))
  · rw [← hwritten, hmap.contains_eq _ (by rintro ⟨⟩), hcontains]
  · decide +kernel
  · decide +kernel
  · exact hlists written hfits'

end Value
end Stencil
