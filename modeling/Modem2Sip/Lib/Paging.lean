import Mathlib.Data.List.Nodup
import Mathlib.Data.List.Sort

/-!
# Reading a growing collection by pages

A collection of keys is read in pages, greatest keys first: a page holds at most `n` keys, all of
them below the last key of the page before it.  Between two pages the collection may *grow*: what was
there stays, and what is new is above it.  What the pages show one after the other is then the
beginning of what the collection held at the first of them, in descending order, and all of it once a
page has come out empty.
-/

universe u

namespace Paging

variable {K : Type u} [LinearOrder K]

/-- Below the bound, if there is one. -/
def Below (before : Option K) (k : K) : Prop := ∀ b ∈ before, k < b

instance (before : Option K) (k : K) : Decidable (Below before k) :=
  match before with
  | none => isTrue fun _ h ↦ absurd h (Option.not_mem_none _)
  | some b => decidable_of_iff (k < b) ⟨fun h _ hb ↦ Option.some.inj hb ▸ h, fun h ↦ h b rfl⟩

/-- Greatest first. -/
def desc (keys : List K) : List K := keys.mergeSort fun a b ↦ decide (b ≤ a)

/-- The first `n` keys below the bound. -/
def page (n : Nat) (before : Option K) (keys : List K) : List K :=
  (desc (keys.filter fun k ↦ Below before k)).take n

/-- The bound of the next page. -/
def next (before : Option K) (shown : List K) : Option K := shown.getLast?.or before

/-- What was there stays, and what is new is above it. -/
def Grows (keys keys' : List K) : Prop := ∃ new, keys' = keys ++ new ∧ ∀ k ∈ keys, ∀ k' ∈ new, k < k'

/-- Pages read one after the other, while the collection grows, until one is empty or before. -/
inductive Reads : Option K → List K → List (List K) → Prop
  | stop (before : Option K) (keys : List K) : Reads before keys []
  | last {n : Nat} {before : Option K} {keys : List K} : 0 < n → page n before keys = [] →
      Reads before keys [[]]
  | more {n : Nat} {before : Option K} {keys keys' : List K} {pages : List (List K)} :
      page n before keys ≠ [] → Grows keys keys' → keys'.Nodup →
      Reads (next before (page n before keys)) keys' pages →
      Reads before keys (page n before keys :: pages)

/-! ## Descending order -/

theorem desc_perm (keys : List K) : (desc keys).Perm keys := List.mergeSort_perm _ _

theorem mem_desc {keys : List K} {k : K} : k ∈ desc keys ↔ k ∈ keys := (desc_perm keys).mem_iff

theorem pairwise_desc (keys : List K) : (desc keys).Pairwise fun a b ↦ b ≤ a := by
  have h := @List.pairwise_mergeSort _ (fun a b : K ↦ decide (b ≤ a))
    (fun a b c hab hbc ↦ decide_eq_true ((of_decide_eq_true hbc).trans (of_decide_eq_true hab)))
    (fun a b ↦ by simpa using le_total b a) keys
  exact h.imp of_decide_eq_true

theorem pairwise_desc_lt {keys : List K} (h : keys.Nodup) :
    (desc keys).Pairwise fun a b ↦ b < a := by
  have hnodup : (desc keys).Nodup := (desc_perm keys).nodup_iff.mpr h
  exact ((pairwise_desc keys).and hnodup).imp fun hab ↦ lt_of_le_of_ne hab.1 hab.2.symm

/-- There is one way to put keys into descending order. -/
theorem eq_desc {keys l : List K} (hperm : l.Perm keys) (h : l.Pairwise fun a b ↦ b ≤ a) :
    l = desc keys :=
  (hperm.trans (desc_perm keys).symm).eq_of_pairwise (fun _ _ _ _ hab hba ↦ le_antisymm hba hab) h
    (pairwise_desc keys)

theorem desc_filter (keys : List K) (p : K → Bool) :
    desc (keys.filter p) = (desc keys).filter p :=
  (eq_desc ((desc_perm keys).filter p) ((pairwise_desc keys).filter p)).symm

/-- What is below the last of the first few is the rest. -/
theorem filter_lt_of_getLast?_take {l : List K} (h : l.Pairwise fun a b ↦ b < a) {n : Nat} {b : K}
    (hb : (l.take n).getLast? = some b) : (l.filter fun k ↦ k < b) = l.drop n := by
  obtain ⟨firsts, hfirsts⟩ := List.getLast?_eq_some_iff.mp hb
  have hsplit : l = (firsts ++ [b]) ++ l.drop n := by rw [← hfirsts, List.take_append_drop]
  rw [hsplit, List.pairwise_append] at h
  obtain ⟨hfirst, -, hrest⟩ := h
  conv_lhs => rw [hsplit]
  rw [List.filter_append]
  have hnone : ((firsts ++ [b]).filter fun k ↦ k < b) = [] := by
    refine List.filter_eq_nil_iff.mpr fun k hk hlt ↦ ?_
    rcases List.mem_append.mp hk with hk | hk
    · have hgt := (List.pairwise_append.mp hfirst).2.2 k hk b (List.mem_singleton_self b)
      exact lt_asymm (of_decide_eq_true hlt) hgt
    · rw [List.mem_singleton.mp hk] at hlt
      exact lt_irrefl b (of_decide_eq_true hlt)
  have hall : ((l.drop n).filter fun k ↦ k < b) = l.drop n :=
    List.filter_eq_self.mpr fun k hk ↦ decide_eq_true
      (hrest b (List.mem_append_right _ (List.mem_singleton_self b)) k hk)
  rw [hnone, hall, List.nil_append]

/-! ## Growth -/

theorem Grows.refl (keys : List K) : Grows keys keys :=
  ⟨[], (List.append_nil keys).symm, fun _ _ _ h ↦ absurd h List.not_mem_nil⟩

theorem Grows.trans {keys keys' keys'' : List K} (h : Grows keys keys') (h' : Grows keys' keys'') :
    Grows keys keys'' := by
  obtain ⟨new, rfl, hnew⟩ := h
  obtain ⟨new', rfl, hnew'⟩ := h'
  refine ⟨new ++ new', List.append_assoc _ _ _, fun k hk k' hk' ↦ ?_⟩
  rcases List.mem_append.mp hk' with hk' | hk'
  · exact hnew k hk k' hk'
  · exact hnew' k (List.mem_append_left _ hk) k' hk'

/-- Below a key that was there nothing is new. -/
theorem Grows.filter_lt {keys keys' : List K} (h : Grows keys keys') {b : K} (hb : b ∈ keys) :
    (keys'.filter fun k ↦ k < b) = keys.filter fun k ↦ k < b := by
  obtain ⟨new, rfl, hnew⟩ := h
  have hnone : (new.filter fun k ↦ k < b) = [] := List.filter_eq_nil_iff.mpr fun k hk hlt ↦
    lt_asymm (of_decide_eq_true hlt) (hnew b hb k hk)
  rw [List.filter_append, hnone, List.append_nil]

/-! ## What the pages show -/

theorem filter_below_some (b : K) (keys : List K) :
    (keys.filter fun k ↦ Below (some b) k) = keys.filter fun k ↦ k < b :=
  List.filter_congr fun _ _ ↦ decide_eq_decide.mpr
    ⟨fun h ↦ h b rfl, fun h _ hb ↦ Option.some.inj hb ▸ h⟩

theorem filter_below_none (keys : List K) : (keys.filter fun k ↦ Below none k) = keys :=
  List.filter_eq_self.mpr fun _ _ ↦ decide_eq_true fun _ h ↦ absurd h (Option.not_mem_none _)

/-- After a page that is not empty, what is still to come is the rest of what was below the bound. -/
theorem desc_filter_next {n : Nat} {before : Option K} {keys keys' : List K}
    (hnodup : keys.Nodup) (hne : page n before keys ≠ []) (hgrows : Grows keys keys') :
    desc (keys'.filter fun k ↦ Below (next before (page n before keys)) k) =
      (desc (keys.filter fun k ↦ Below before k)).drop n := by
  have hlast : (page n before keys).getLast? = some ((page n before keys).getLast hne) :=
    List.getLast?_eq_some_getLast hne
  generalize hb : (page n before keys).getLast hne = b at hlast
  have hmem : b ∈ desc (keys.filter fun k ↦ Below before k) :=
    List.mem_of_mem_take (List.mem_of_getLast? hlast)
  obtain ⟨hkeys, hbelow⟩ := List.mem_filter.mp (mem_desc.mp hmem)
  have hrest := filter_lt_of_getLast?_take
    (pairwise_desc_lt (hnodup.filter fun k ↦ decide (Below before k))) hlast
  rw [next, hlast, Option.some_or, filter_below_some, hgrows.filter_lt hkeys, ← hrest, ← desc_filter,
    List.filter_filter]
  refine congrArg desc (List.filter_congr fun k _ ↦ ?_)
  by_cases hk : k < b
  · have hk' : Below before k := fun c hc ↦ hk.trans (of_decide_eq_true hbelow c hc)
    rw [decide_eq_true hk, decide_eq_true hk', Bool.and_self]
  · rw [decide_eq_false hk, Bool.false_and]

theorem Reads.flatten_prefix {before : Option K} {keys : List K} {pages : List (List K)}
    (h : Reads before keys pages) (hnodup : keys.Nodup) :
    pages.flatten <+: desc (keys.filter fun k ↦ Below before k) := by
  induction h with
  | stop => exact List.nil_prefix
  | last => exact List.nil_prefix
  | @more n _ _ _ _ hne hgrows hnodup' _ ih =>
      have hrest := ih hnodup'
      rw [desc_filter_next hnodup hne hgrows] at hrest
      rw [List.flatten_cons]
      conv_rhs => rw [← List.take_append_drop n (desc _)]
      exact (List.prefix_append_right_inj _).mpr hrest

theorem Reads.flatten_eq {before : Option K} {keys : List K} {pages : List (List K)}
    (h : Reads before keys pages) (hnodup : keys.Nodup) (hend : [] ∈ pages) :
    pages.flatten = desc (keys.filter fun k ↦ Below before k) := by
  induction h with
  | stop => exact absurd hend List.not_mem_nil
  | @last n before keys hn hnil =>
      rcases List.take_eq_nil_iff.mp hnil with hzero | hnil
      · exact absurd hzero (Nat.pos_iff_ne_zero.mp hn)
      · rw [hnil, List.flatten_cons, List.flatten_nil, List.append_nil]
  | more hne hgrows hnodup' _ ih =>
      have hrest := ih hnodup' ((List.mem_cons.mp hend).resolve_left (Ne.symm hne))
      rw [List.flatten_cons, hrest, desc_filter_next hnodup hne hgrows]
      exact List.take_append_drop _ _

end Paging
