import Mathlib.Data.List.Perm.Subperm
import Mathlib.Data.List.Nodup
import Mathlib.Data.Nat.ModEq

/-!
# Walking around a cycle

The places of a cycle are the numbers below `n`; a walk goes from one to the next, and from the last one
to the first.  A walk of `n` places comes to each of them once, wherever it starts.
-/

namespace Cycle

variable {n count start i : Nat}

/-- So many places, from the one at which the walk starts. -/
def walk (n count start : Nat) : List Nat := (List.range count).map fun k ↦ (start + k) % n

@[simp] theorem walk_zero (n start : Nat) : walk n 0 start = [] := rfl

theorem walk_succ (n count start : Nat) : walk n (count + 1) start = start % n :: walk n count (start + 1) := by
  rw [walk, walk, List.range_succ_eq_map, List.map_cons, List.map_map, Nat.add_zero]
  refine congrArg _ (List.map_congr_left fun k _ ↦ ?_)
  rw [Function.comp_apply, Nat.succ_eq_add_one, Nat.add_right_comm, Nat.add_assoc]

/-- Where the next place is. -/
theorem succ_mod (hn : 0 < n) (start : Nat) :
    (start + 1) % n = if start % n = n - 1 then 0 else start % n + 1 := by
  have hlt : start % n < n := Nat.mod_lt start hn
  rw [← Nat.mod_add_mod]
  split
  · rename_i hlast
    rw [hlast, Nat.sub_add_cancel hn, Nat.mod_self]
  · exact Nat.mod_eq_of_lt (by omega)

theorem lt_of_mem_walk (hn : 0 < n) (h : i ∈ walk n count start) : i < n := by
  obtain ⟨k, -, rfl⟩ := List.mem_map.mp h
  exact Nat.mod_lt _ hn

/-- A walk that is not longer than the cycle comes to no place twice. -/
theorem nodup_walk (h : count ≤ n) : (walk n count start).Nodup := by
  refine List.Nodup.map_on (fun k hk k' hk' heq ↦ ?_) List.nodup_range
  have hmod : k ≡ k' [MOD n] := Nat.ModEq.add_left_cancel' start heq
  exact hmod.eq_of_lt_of_lt ((List.mem_range.mp hk).trans_le h) ((List.mem_range.mp hk').trans_le h)

/-- A walk around the whole cycle comes to every place. -/
theorem mem_walk_iff (hn : 0 < n) : i ∈ walk n n start ↔ i < n := by
  have hsubset : walk n n start ⊆ List.range n := fun i hi ↦ List.mem_range.mpr (lt_of_mem_walk hn hi)
  have hperm : (walk n n start).Perm (List.range n) := by
    refine (List.subperm_of_subset (nodup_walk le_rfl) hsubset).perm_of_length_le ?_
    rw [walk, List.length_map]
  rw [hperm.mem_iff, List.mem_range]

end Cycle
