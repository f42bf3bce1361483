import Mathlib.Data.List.Basic
import Mathlib.Data.List.Induction

/-!
# Paths and their prefixes

A path is a sequence of symbols, one of which parts it into names.  Over any alphabet: the names of a
path, which path is above another one, and when a prefix of the symbols is a prefix of the names.
-/

namespace Paths

variable {α : Type*} [DecidableEq α] {sep : α} {a b n t u : List α}

/-- The names between the separators. -/
def components (sep : α) (p : List α) : List (List α) := (p.splitOn sep).filter fun n ↦ !n.isEmpty

/-- One of the two is the other one, or above it. -/
def Related (sep : α) (a b : List α) : Prop :=
  components sep a <+: components sep b ∨ components sep b <+: components sep a

/-- The path is the other one with some symbols behind it only if it goes on with a name of its own. -/
def Parted (sep : α) (a b : List α) : Prop :=
  ∀ t, b = a ++ t → t = [] ∨ a.getLast? = some sep ∨ t.head? = some sep

theorem Related.symm (h : Related sep a b) : Related sep b a := Or.symm h

/-! ## The names -/

@[simp] theorem components_nil : components sep ([] : List α) = [] := by
  rw [components, List.splitOn_nil]
  rfl

theorem components_append_cons (a b : List α) :
    components sep (a ++ sep :: b) = components sep a ++ components sep b := by
  rw [components, List.splitOn_append_cons_self, List.filter_append]
  rfl

theorem components_of_not_mem (hne : n ≠ []) (h : sep ∉ n) : components sep n = [n] := by
  cases n with
  | nil => exact absurd rfl hne
  | cons x n => exact congrArg (List.filter _) (List.splitOn_eq_singleton h)

/-- A path that does not end in a separator ends in a name, which what follows may make longer. -/
theorem exists_last_name (hne : a ≠ []) (hlast : a.getLast? ≠ some sep) :
    ∃ names n, n ≠ [] ∧ sep ∉ n ∧ ∀ t, components sep (a ++ t) = names ++ components sep (n ++ t) := by
  induction a using List.reverseRecOn with
  | nil => exact absurd rfl hne
  | append_singleton a x ih =>
    have hx : sep ≠ x := by
      rintro rfl
      exact hlast List.getLast?_concat
    by_cases hname : a ≠ [] ∧ a.getLast? ≠ some sep
    · obtain ⟨names, n, -, hn, hnames⟩ := ih hname.1 hname.2
      refine ⟨names, n ++ [x], List.concat_ne_nil _ _, ?_, fun t ↦ ?_⟩
      · rw [List.mem_append, List.mem_singleton]
        exact not_or.mpr ⟨hn, hx⟩
      · rw [List.append_assoc, List.append_assoc]
        exact hnames _
    · refine ⟨components sep a, [x], List.cons_ne_nil _ _, List.mem_singleton.not.mpr hx, fun t ↦ ?_⟩
      rcases not_and_or.mp hname with hnil | hsep
      · rw [not_not.mp hnil, components_nil]
        rfl
      · obtain ⟨a, rfl⟩ := List.getLast?_eq_some_iff.mp (not_not.mp hsep)
        rw [List.append_assoc, List.append_assoc, List.singleton_append, components_append_cons,
          components_append_cons, components_nil, List.append_nil]

/-- The first name of a path that starts with one. -/
theorem exists_first_name (hne : n ≠ []) (hn : sep ∉ n) (ht : t ≠ []) (hhead : t.head? ≠ some sep) :
    ∃ u names, u ≠ [] ∧ components sep (n ++ t) = (n ++ u) :: names := by
  induction t generalizing n with
  | nil => exact absurd rfl ht
  | cons x t ih =>
    have hx : sep ≠ x := by
      rintro rfl
      exact hhead rfl
    have hnx : sep ∉ n ++ [x] := by
      rw [List.mem_append, List.mem_singleton]
      exact not_or.mpr ⟨hn, hx⟩
    cases t with
    | nil => exact ⟨[x], [], List.cons_ne_nil _ _, components_of_not_mem (List.concat_ne_nil _ _) hnx⟩
    | cons y t =>
      by_cases hy : y = sep
      · subst hy
        refine ⟨[x], components y t, List.cons_ne_nil _ _, ?_⟩
        rw [List.append_cons, components_append_cons, components_of_not_mem (List.concat_ne_nil _ _) hnx]
        rfl
      · obtain ⟨u, names, -, hnames⟩ := ih (List.concat_ne_nil _ _) hnx (List.cons_ne_nil _ _) (by simpa using hy)
        exact ⟨x :: u, names, List.cons_ne_nil _ _, by rw [List.append_cons, hnames, List.append_assoc]; rfl⟩

/-! ## Prefixes -/

/-- A prefix of a path is related to it just when it ends where a name does. -/
theorem related_append_iff (ha : a ≠ []) :
    Related sep a (a ++ t) ↔ t = [] ∨ a.getLast? = some sep ∨ t.head? = some sep := by
  constructor
  · intro h
    by_contra hinside
    simp only [not_or] at hinside
    obtain ⟨ht, hlast, hhead⟩ := hinside
    obtain ⟨names, n, hne, hn, hnames⟩ := exists_last_name ha hlast
    obtain ⟨u, names', hu, hfirst⟩ := exists_first_name hne hn ht hhead
    have hshort : components sep a = names ++ [n] := by
      have hself := hnames []
      rwa [List.append_nil, List.append_nil, components_of_not_mem hne hn] at hself
    have hlonger : n ≠ n ++ u := fun heq ↦ hu (List.self_eq_append_right.mp heq)
    rw [Related, hshort, hnames t, hfirst, List.prefix_append_right_inj, List.prefix_append_right_inj,
      List.cons_prefix_cons, List.cons_prefix_cons] at h
    rcases h with ⟨heq, -⟩ | ⟨heq, -⟩
    · exact hlonger heq
    · exact hlonger heq.symm
  · rintro (rfl | hlast | hhead)
    · rw [List.append_nil]
      exact .inl List.prefix_rfl
    · obtain ⟨a, rfl⟩ := List.getLast?_eq_some_iff.mp hlast
      left
      rw [List.append_assoc, List.singleton_append, components_append_cons, components_append_cons,
        components_nil, List.append_nil]
      exact List.prefix_append _ _
    · obtain ⟨t, rfl⟩ := List.head?_eq_some_iff.mp hhead
      left
      rw [components_append_cons]
      exact List.prefix_append _ _

theorem related_iff_parted_of_prefix (ha : a ≠ []) (h : a <+: b) :
    Related sep a b ↔ Parted sep a b ∧ Parted sep b a := by
  obtain ⟨t, rfl⟩ := h
  rw [related_append_iff ha]
  constructor
  · refine fun hparted ↦ ⟨fun t' heq ↦ ?_, fun t' heq ↦ .inl ?_⟩
    · obtain rfl : t = t' := List.append_cancel_left heq
      exact hparted
    · rw [List.append_assoc, List.self_eq_append_right] at heq
      exact (List.append_eq_nil_iff.mp heq).2
  · exact fun hparted ↦ hparted.1 t rfl

/-- Paths of which one is a prefix of the other are related just when they are parted there. -/
theorem related_iff_parted (ha : a ≠ []) (hb : b ≠ []) (h : a <+: b ∨ b <+: a) :
    Related sep a b ↔ Parted sep a b ∧ Parted sep b a := by
  rcases h with h | h
  · exact related_iff_parted_of_prefix ha h
  · have hsymm : Related sep a b ↔ Related sep b a := ⟨Related.symm, Related.symm⟩
    rw [hsymm, related_iff_parted_of_prefix hb h]
    exact and_comm

omit [DecidableEq α] in
theorem parted_of_not_prefix (h : ¬ a <+: b) : Parted sep a b :=
  fun t heq ↦ absurd ⟨t, heq.symm⟩ h

end Paths
