import Mathlib.Data.List.Basic
import Mathlib.Order.Nat

/-!
# What changes in a list

Elements that arrive in a row carry a key, and only those are kept whose key is not
the key of the one before.  Each key is kept once exactly if nothing else stands
between two elements that have it.
-/

universe u v

namespace Change

variable {α : Type u} {κ : Type v} [DecidableEq κ] (key : α → κ)

/-- The elements whose key is not that of the one before; `last` is the key before the first. -/
def changes : Option κ → List α → List α
  | _, [] => []
  | last, x :: xs =>
    if last = some (key x) then changes last xs else x :: changes (some (key x)) xs

/-- Nothing with another key stands between two elements of one key. -/
def Together (xs : List α) : Prop :=
  ∀ x y z, [x, y, z].Sublist xs → key x = key z → key y = key x

variable {key} {last : Option κ} {t : κ} {x : α} {xs : List α}

theorem changes_cons_pos (h : last = some (key x)) :
    changes key last (x :: xs) = changes key last xs := if_pos h

theorem changes_cons_neg (h : last ≠ some (key x)) :
    changes key last (x :: xs) = x :: changes key (some (key x)) xs := if_neg h

/-- Of the elements with another key, it does not matter whether one is kept. -/
theorem filter_changes_cons (h : key x ≠ t) (last : Option κ) (xs : List α) :
    (changes key last (x :: xs)).filter (key · = t) =
      (changes key (some (key x)) xs).filter (key · = t) := by
  by_cases hlast : last = some (key x)
  · rw [changes_cons_pos hlast, hlast]
  · rw [changes_cons_neg hlast, List.filter_cons_of_neg (by simpa using h)]

theorem changes_subset (last : Option κ) (xs : List α) : changes key last xs ⊆ xs := by
  induction xs generalizing last with
  | nil => exact List.Subset.refl _
  | cons x xs ih =>
      by_cases h : last = some (key x)
      · rw [changes_cons_pos h]
        exact List.subset_cons_of_subset x (ih last)
      · rw [changes_cons_neg h]
        exact List.cons_subset_cons x (ih _)

/-- A key that is not the last one is kept if it is there. -/
theorem filter_changes_eq_nil_iff (h : last ≠ some t) :
    (changes key last xs).filter (key · = t) = [] ↔ ∀ x ∈ xs, key x ≠ t := by
  induction xs generalizing last with
  | nil => exact iff_of_true rfl fun x hx ↦ absurd hx List.not_mem_nil
  | cons x xs ih =>
      rw [List.forall_mem_cons]
      by_cases hx : key x = t
      · subst hx
        rw [changes_cons_neg h, List.filter_cons_of_pos (by simp)]
        exact iff_of_false (List.cons_ne_nil _ _) fun hall ↦ hall.1 rfl
      · rw [filter_changes_cons hx, and_iff_right hx]
        exact ih fun heq ↦ hx (Option.some_inj.mp heq)

/-- The last key is not kept again if it does not come again behind another. -/
theorem filter_changes_last_eq_nil_iff :
    (changes key (some t) xs).filter (key · = t) = [] ↔
      ∀ y z, [y, z].Sublist xs → key z = t → key y = t := by
  induction xs with
  | nil => exact iff_of_true rfl fun y z h ↦ absurd h.length_le (Nat.not_succ_le_zero 1)
  | cons x xs ih =>
      by_cases hx : key x = t
      · rw [changes_cons_pos (congrArg some hx.symm), ih]
        constructor
        · intro h y z hsub hz
          rcases List.sublist_cons_iff.mp hsub with hsub | ⟨r, heq, -⟩
          · exact h y z hsub hz
          · rw [(List.cons.inj heq).1, hx]
        · exact fun h y z hsub ↦ h y z (hsub.cons x)
      · have hne : (some (key x) : Option κ) ≠ some t := fun heq ↦ hx (Option.some_inj.mp heq)
        rw [filter_changes_cons hx, filter_changes_eq_nil_iff hne]
        constructor
        · intro h y z hsub hz
          have hmem : z ∈ xs := by
            rcases List.sublist_cons_iff.mp hsub with hsub | ⟨r, heq, hsub⟩
            · exact hsub.subset (List.mem_cons_of_mem _ List.mem_cons_self)
            · rw [← (List.cons.inj heq).2] at hsub
              exact List.singleton_sublist.mp hsub
          exact absurd hz (h z hmem)
        · intro h z hz hkey
          exact hx (h x z ((List.singleton_sublist.mpr hz).cons_cons x) hkey)

/-- Another key is kept at most once if nothing stands between two elements that have it. -/
theorem length_filter_changes_le_one_iff (h : last ≠ some t) :
    ((changes key last xs).filter (key · = t)).length ≤ 1 ↔
      ∀ x y z, [x, y, z].Sublist xs → key x = t → key z = t → key y = t := by
  induction xs generalizing last with
  | nil => exact iff_of_true (Nat.zero_le 1) fun x y z h ↦ absurd h.length_le (Nat.not_succ_le_zero 2)
  | cons x xs ih =>
      by_cases hx : key x = t
      · subst hx
        rw [changes_cons_neg h, List.filter_cons_of_pos (by simp), List.length_cons,
          Nat.succ_le_succ_iff, Nat.le_zero, List.length_eq_zero_iff, filter_changes_last_eq_nil_iff]
        constructor
        · intro hlast x' y z hsub _ hz
          rcases List.sublist_cons_iff.mp hsub with hsub | ⟨r, heq, hsub⟩
          · exact hlast y z ((List.sublist_cons_self x' _).trans hsub) hz
          · rw [← (List.cons.inj heq).2] at hsub
            exact hlast y z hsub hz
        · exact fun hall y z hsub hz ↦ hall x y z (hsub.cons_cons x) rfl hz
      · rw [filter_changes_cons hx, ih fun heq ↦ hx (Option.some_inj.mp heq)]
        constructor
        · intro hall x' y z hsub hx' hz
          rcases List.sublist_cons_iff.mp hsub with hsub | ⟨r, heq, -⟩
          · exact hall x' y z hsub hx' hz
          · rw [(List.cons.inj heq).1] at hx'
            exact absurd hx' hx
        · exact fun hall x' y z hsub ↦ hall x' y z (hsub.cons x)

/-- Every key is kept exactly once if and only if the elements of each key are together. -/
theorem length_filter_changes_eq_one_iff (xs : List α) :
    (∀ x ∈ xs, ((changes key none xs).filter (key · = key x)).length = 1) ↔ Together key xs := by
  have hnone : ∀ t : κ, (none : Option κ) ≠ some t := fun _ ↦ (Option.some_ne_none _).symm
  constructor
  · intro h x y z hsub hkey
    have hx : x ∈ xs := hsub.subset List.mem_cons_self
    exact (length_filter_changes_le_one_iff (hnone _)).mp (h x hx).le x y z hsub rfl hkey.symm
  · intro h x hx
    refine le_antisymm ((length_filter_changes_le_one_iff (hnone _)).mpr ?_) ?_
    · intro x' y z hsub hx' hz
      rw [h x' y z hsub (hx'.trans hz.symm), hx']
    · rw [Nat.one_le_iff_ne_zero, Ne, List.length_eq_zero_iff, filter_changes_eq_nil_iff (hnone _)]
      exact fun hall ↦ hall x hx rfl

end Change
