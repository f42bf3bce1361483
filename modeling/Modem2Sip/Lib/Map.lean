import Mathlib.Data.List.AList

/-!
# Maps with one value per key

A hash map, as Mathlib's association list without duplicate keys, at a value type
that does not depend on the key.  `retain` is the one operation that the
association list does not come with.
-/

universe u v

/-- A finite map. -/
abbrev Map (K : Type u) (V : Type v) := AList fun _ : K ↦ V

namespace Map

variable {K : Type u} {V : Type v}

/-- The map without entries. -/
def empty : Map K V := ∅

/-- The number of entries. -/
def size (m : Map K V) : Nat := m.entries.length

/-- Keep the entries that satisfy `p`. -/
def retain (m : Map K V) (p : K → V → Bool) : Map K V where
  entries := m.entries.filter fun e ↦ p e.1 e.2
  nodupKeys := m.nodupKeys.sublist List.filter_sublist

/-- The values, in the order in which the map happens to keep them. -/
def values (m : Map K V) : List V := m.entries.map Sigma.snd

/-- Change every value. -/
def mapVal (m : Map K V) (f : V → V) : Map K V where
  entries := m.entries.map fun e ↦ ⟨e.1, f e.2⟩
  nodupKeys := by
    have hkeys : (m.entries.map fun e ↦ (⟨e.1, f e.2⟩ : Sigma fun _ : K ↦ V)).keys =
        m.entries.keys := by
      simp [List.keys]
    rw [List.NodupKeys, hkeys]
    exact m.nodupKeys

variable [DecidableEq K]

/-- The value under a key. -/
def get? (m : Map K V) (k : K) : Option V := AList.lookup k m

/-- Put a value under a key, in the place of the one that was there. -/
def insert (m : Map K V) (k : K) (v : V) : Map K V := AList.insert k v m

/-- Take the entry of a key out. -/
def erase (m : Map K V) (k : K) : Map K V := AList.erase k m

@[simp] theorem get?_empty (k : K) : (empty : Map K V).get? k = none := AList.lookup_empty k

theorem get?_insert (m : Map K V) (k k' : K) (v : V) :
    (m.insert k v).get? k' = if k' = k then some v else m.get? k' := by
  split
  · rename_i h
    subst h
    exact AList.lookup_insert m
  · rename_i h
    exact AList.lookup_insert_ne h

@[simp] theorem get?_insert_self (m : Map K V) (k : K) (v : V) :
    (m.insert k v).get? k = some v := by
  rw [get?_insert, if_pos rfl]

theorem get?_erase (m : Map K V) (k k' : K) :
    (m.erase k).get? k' = if k' = k then none else m.get? k' := by
  split
  · rename_i h
    subst h
    exact AList.lookup_erase k' m
  · rename_i h
    exact AList.lookup_erase_ne h

/-- To take out what is not there changes nothing. -/
theorem erase_of_get?_eq_none {m : Map K V} {k : K} (h : m.get? k = none) : m.erase k = m :=
  AList.ext (List.kerase_of_notMem_keys (List.dlookup_eq_none.mp h))

theorem mem_values_iff (m : Map K V) (v : V) : v ∈ m.values ↔ ∃ k, m.get? k = some v := by
  rw [values, List.mem_map]
  constructor
  · rintro ⟨⟨k, v'⟩, hmem, rfl⟩
    exact ⟨k, AList.mem_lookup_iff.mpr hmem⟩
  · rintro ⟨k, hget⟩
    exact ⟨⟨k, v⟩, AList.mem_lookup_iff.mp hget, rfl⟩

theorem get?_retain (m : Map K V) (p : K → V → Bool) (k : K) :
    (m.retain p).get? k = (m.get? k).filter (p k) := by
  ext v
  rw [get?, AList.lookup, ← Option.mem_def, List.mem_dlookup_iff (m.retain p).nodupKeys]
  rw [Option.filter_eq_some_iff, get?, AList.lookup, ← Option.mem_def,
    List.mem_dlookup_iff m.nodupKeys]
  simp [retain, List.mem_filter]

theorem get?_mapVal (m : Map K V) (f : V → V) (k : K) : (m.mapVal f).get? k = (m.get? k).map f := by
  ext v
  rw [get?, AList.lookup, ← Option.mem_def, List.mem_dlookup_iff (m.mapVal f).nodupKeys]
  rw [Option.map_eq_some_iff]
  simp only [get?, ← Option.mem_def, AList.mem_lookup_iff, mapVal, List.mem_map]
  constructor
  · rintro ⟨⟨k', v'⟩, hmem, heq⟩
    cases heq
    exact ⟨v', hmem, rfl⟩
  · rintro ⟨v', hmem, rfl⟩
    exact ⟨⟨k, v'⟩, hmem, rfl⟩

end Map
