import Mathlib.Data.List.Induction
import Mathlib.Data.List.Nodup
import Mathlib.Logic.Function.Basic
import Mathlib.Order.Lattice

/-!
# Leases

Holders are granted values that lapse.  Each value has a name, and a holder has at most one
value of a name: the one that was granted last.  A lease can be given up, and a holder can lose
all of its leases at once.

What a holder has is a matter of what was said: `InForce` reads it off the history of acts,
`Keeps` says that lists of values, one for each holder, follow a history.  The lists may still
hold values that have lapsed, which is what makes it possible to take them out only when
somebody looks.
-/

universe u v w x

namespace Lease

/-- What is said about the leases of a holder. -/
inductive Act (K : Type u) (S : Type v) (V : Type w) where
  | grant (holder : K) (value : V)
  | release (holder : K) (name : S)
  | wipe (holder : K)
deriving DecidableEq, Repr

variable {K : Type u} {S : Type v} {V : Type w} {T : Type x}

/-- Whose leases an act is about. -/
def Act.holder : Act K S V → K
  | .grant k _ => k
  | .release k _ => k
  | .wipe k => k

section InForce

variable (name : V → S)

/-- Does the act decide about the value of that name? -/
def Act.Touches (k : K) (s : S) : Act K S V → Prop
  | .grant k' v => k' = k ∧ name v = s
  | .release k' s' => k' = k ∧ s' = s
  | .wipe k' => k' = k

/-- The last act about that value of the holder granted it. -/
def InForce (acts : List (Act K S V)) (k : K) (v : V) : Prop :=
  ∃ before after, acts = before ++ .grant k v :: after ∧ ∀ a ∈ after, ¬ a.Touches name k (name v)

variable {name}

@[simp] theorem not_inForce_nil (k : K) (v : V) : ¬ InForce name ([] : List (Act K S V)) k v := by
  rintro ⟨before, after, heq, -⟩
  simp at heq

/-- One more act settles the matter, or leaves it as it was. -/
theorem inForce_concat {acts : List (Act K S V)} {a : Act K S V} {k : K} {v : V} :
    InForce name (acts ++ [a]) k v ↔
      a = .grant k v ∨ InForce name acts k v ∧ ¬ a.Touches name k (name v) := by
  constructor
  · rintro ⟨before, after, heq, hafter⟩
    rcases after.eq_nil_or_concat with rfl | ⟨after, a', rfl⟩
    · exact .inl (List.append_inj_right' heq rfl |> List.singleton_inj.mp)
    · rw [List.concat_eq_append, ← List.cons_append, ← List.append_assoc] at heq
      obtain ⟨hacts, ha⟩ := List.append_inj' heq rfl
      obtain rfl := List.singleton_inj.mp ha
      refine .inr ⟨⟨before, after, hacts, fun b hb ↦ hafter b ?_⟩, hafter a ?_⟩
      · simp [hb]
      · simp
  · rintro (rfl | ⟨⟨before, after, rfl, hafter⟩, ha⟩)
    · exact ⟨acts, [], rfl, by simp⟩
    · refine ⟨before, after ++ [a], by simp, fun b hb ↦ ?_⟩
      rcases List.mem_append.mp hb with hb | hb
      · exact hafter b hb
      · rwa [List.mem_singleton.mp hb]

/-- A holder has at most one value of a name. -/
theorem InForce.unique {acts : List (Act K S V)} {k : K} {v v' : V} (h : InForce name acts k v)
    (h' : InForce name acts k v') (hname : name v = name v') : v = v' := by
  induction acts using List.reverseRecOn with
  | nil => exact absurd h (not_inForce_nil k v)
  | append_singleton acts a ih =>
      rcases inForce_concat.mp h with rfl | ⟨h, ha⟩
      · rcases inForce_concat.mp h' with heq | ⟨-, ha'⟩
        · injection heq
        · exact absurd ⟨rfl, hname⟩ ha'
      · rcases inForce_concat.mp h' with rfl | ⟨h', -⟩
        · exact absurd ⟨rfl, hname.symm⟩ ha
        · exact ih h h'

end InForce

section Keeps

variable [LinearOrder T] (name : V → S) (deadline : V → T)

/-- At the time `now`, the lists hold what the acts gave, though maybe also what has lapsed. -/
structure Keeps (now : T) (lists : K → List V) (acts : List (Act K S V)) : Prop where
  sound : ∀ k, ∀ v ∈ lists k, InForce name acts k v
  complete : ∀ k v, InForce name acts k v → now < deadline v → v ∈ lists k
  nodup : ∀ k, ((lists k).map name).Nodup

/-- The values that have not lapsed. -/
def unlapsed (now : T) (list : List V) : List V := list.filter fun v ↦ now < deadline v

variable {name deadline} {now : T} {lists : K → List V} {acts : List (Act K S V)}

@[simp] theorem mem_unlapsed {list : List V} {v : V} :
    v ∈ unlapsed deadline now list ↔ v ∈ list ∧ now < deadline v := by
  simp [unlapsed]

/-- To look twice is to look the second time. -/
theorem unlapsed_unlapsed {now' : T} (hle : now ≤ now') (list : List V) :
    unlapsed deadline now' (unlapsed deadline now list) = unlapsed deadline now' list := by
  rw [unlapsed, unlapsed, List.filter_filter, unlapsed]
  refine List.filter_congr fun v _ ↦ ?_
  rw [Bool.and_eq_left_iff_imp]
  intro hlt
  exact decide_eq_true (hle.trans_lt (of_decide_eq_true hlt))

variable (name deadline) in
theorem keeps_nil (now : T) : Keeps name deadline now (fun _ : K ↦ []) [] where
  sound := by simp
  complete k v h := absurd h (not_inForce_nil k v)
  nodup := by simp

namespace Keeps

theorem later (h : Keeps name deadline now lists acts) {now' : T} (hle : now ≤ now') :
    Keeps name deadline now' lists acts :=
  { h with complete := fun k v hv hlt ↦ h.complete k v hv (hle.trans_lt hlt) }

/-- To take out what has lapsed is not an act. -/
theorem expire (h : Keeps name deadline now lists acts) :
    Keeps name deadline now (fun k ↦ unlapsed deadline now (lists k)) acts where
  sound k v hv := h.sound k v (mem_unlapsed.mp hv).1
  complete k v hv hlt := mem_unlapsed.mpr ⟨h.complete k v hv hlt, hlt⟩
  nodup k := (h.nodup k).sublist (List.filter_sublist.map name)

/-- What is left when one looks is what is in force and has not lapsed. -/
theorem mem_unlapsed_iff (h : Keeps name deadline now lists acts) {k : K} {v : V} :
    v ∈ unlapsed deadline now (lists k) ↔ InForce name acts k v ∧ now < deadline v := by
  rw [mem_unlapsed]
  constructor
  · rintro ⟨hv, hlt⟩
    exact ⟨h.sound k v hv, hlt⟩
  · rintro ⟨hv, hlt⟩
    exact ⟨h.complete k v hv hlt, hlt⟩

variable [DecidableEq K]

theorem wipe (h : Keeps name deadline now lists acts) (k : K) :
    Keeps name deadline now (Function.update lists k []) (acts ++ [.wipe k]) where
  sound k' v hv := by
    rcases eq_or_ne k' k with rfl | hne
    · simp at hv
    · rw [Function.update_of_ne hne] at hv
      exact inForce_concat.mpr (.inr ⟨h.sound k' v hv, hne.symm⟩)
  complete k' v hv hlt := by
    rcases inForce_concat.mp hv with heq | ⟨hv, hne⟩
    · cases heq
    · rw [Function.update_of_ne (Ne.symm hne)]
      exact h.complete k' v hv hlt
  nodup k' := by
    rcases eq_or_ne k' k with rfl | hne
    · simp
    · rw [Function.update_of_ne hne]
      exact h.nodup k'

variable [DecidableEq S]

/-- Taking the value of a name out of a list. -/
def drop (name : V → S) (s : S) (list : List V) : List V := list.filter fun v ↦ name v ≠ s

omit [LinearOrder T] [DecidableEq K] in
@[simp] theorem mem_drop {s : S} {list : List V} {v : V} :
    v ∈ drop name s list ↔ v ∈ list ∧ name v ≠ s := by
  simp [drop]

theorem release (h : Keeps name deadline now lists acts) (k : K) (s : S) :
    Keeps name deadline now (Function.update lists k (drop name s (lists k)))
      (acts ++ [.release k s]) where
  sound k' v hv := by
    rcases eq_or_ne k' k with rfl | hne
    · rw [Function.update_self, mem_drop] at hv
      exact inForce_concat.mpr (.inr ⟨h.sound k' v hv.1, fun ht ↦ hv.2 ht.2.symm⟩)
    · rw [Function.update_of_ne hne] at hv
      exact inForce_concat.mpr (.inr ⟨h.sound k' v hv, fun ht ↦ hne ht.1.symm⟩)
  complete k' v hv hlt := by
    rcases inForce_concat.mp hv with heq | ⟨hold, hnot⟩
    · cases heq
    · rcases eq_or_ne k' k with rfl | hne
      · rw [Function.update_self, mem_drop]
        exact ⟨h.complete k' v hold hlt, fun heq ↦ hnot ⟨rfl, heq.symm⟩⟩
      · rw [Function.update_of_ne hne]
        exact h.complete k' v hold hlt
  nodup k' := by
    rcases eq_or_ne k' k with rfl | hne
    · rw [Function.update_self]
      exact (h.nodup k').sublist (List.filter_sublist.map name)
    · rw [Function.update_of_ne hne]
      exact h.nodup k'

/-- A refresh: the old value of the name goes, and the new one comes last. -/
theorem grant (h : Keeps name deadline now lists acts) (k : K) (v : V) :
    Keeps name deadline now (Function.update lists k (drop name (name v) (lists k) ++ [v]))
      (acts ++ [.grant k v]) where
  sound k' v' hv := by
    rcases eq_or_ne k' k with rfl | hne
    · rw [Function.update_self, List.mem_append, mem_drop, List.mem_singleton] at hv
      rcases hv with ⟨hv, hname⟩ | rfl
      · exact inForce_concat.mpr (.inr ⟨h.sound k' v' hv, fun ht ↦ hname ht.2.symm⟩)
      · exact inForce_concat.mpr (.inl rfl)
    · rw [Function.update_of_ne hne] at hv
      exact inForce_concat.mpr (.inr ⟨h.sound k' v' hv, fun ht ↦ hne ht.1.symm⟩)
  complete k' v' hv hlt := by
    rcases inForce_concat.mp hv with heq | ⟨hold, hnot⟩
    · cases heq
      simp
    · rcases eq_or_ne k' k with rfl | hne
      · rw [Function.update_self, List.mem_append, mem_drop]
        exact .inl ⟨h.complete k' v' hold hlt, fun heq ↦ hnot ⟨rfl, heq.symm⟩⟩
      · rw [Function.update_of_ne hne]
        exact h.complete k' v' hold hlt
  nodup k' := by
    rcases eq_or_ne k' k with rfl | hne
    · rw [Function.update_self, List.map_append, List.map_singleton, List.nodup_append]
      refine ⟨(h.nodup k').sublist (List.filter_sublist.map name), List.nodup_singleton _, ?_⟩
      intro s hs s' hs'
      obtain ⟨v', hv', rfl⟩ := List.mem_map.mp hs
      rw [List.mem_singleton.mp hs']
      exact (mem_drop.mp hv').2
    · rw [Function.update_of_ne hne]
      exact h.nodup k'

end Keeps

section Apply

variable [DecidableEq K] [DecidableEq S]

/-- What an act does to the lists. -/
def Act.apply (name : V → S) (lists : K → List V) : Act K S V → K → List V
  | .grant k v => Function.update lists k (Keeps.drop name (name v) (lists k) ++ [v])
  | .release k s => Function.update lists k (Keeps.drop name s (lists k))
  | .wipe k => Function.update lists k []

omit [LinearOrder T] in
/-- An act changes nothing for anybody but its holder. -/
theorem Act.apply_of_ne (lists : K → List V) {a : Act K S V} {k : K} (hne : a.holder ≠ k) :
    a.apply name lists k = lists k := by
  cases a with
  | grant k' v => exact Function.update_of_ne hne.symm _ _
  | release k' s => exact Function.update_of_ne hne.symm _ _
  | wipe k' => exact Function.update_of_ne hne.symm _ _

omit [LinearOrder T] in
theorem foldl_apply_of_ne (lists : K → List V) {acts : List (Act K S V)} {k : K}
    (hne : ∀ a ∈ acts, a.holder ≠ k) : acts.foldl (Act.apply name) lists k = lists k := by
  induction acts generalizing lists with
  | nil => rfl
  | cons a acts ih =>
      rw [List.foldl_cons, ih _ fun b hb ↦ hne b (List.mem_cons_of_mem a hb)]
      exact Act.apply_of_ne lists (hne a List.mem_cons_self)

theorem Keeps.apply (h : Keeps name deadline now lists acts) (a : Act K S V) :
    Keeps name deadline now (a.apply name lists) (acts ++ [a]) := by
  cases a with
  | grant k v => exact h.grant k v
  | release k s => exact h.release k s
  | wipe k => exact h.wipe k

/-- The lists keep up with any number of acts. -/
theorem Keeps.foldl (h : Keeps name deadline now lists acts) (more : List (Act K S V)) :
    Keeps name deadline now (more.foldl (Act.apply name) lists) (acts ++ more) := by
  induction more generalizing lists acts with
  | nil =>
      rw [List.append_nil]
      exact h
  | cons a more ih =>
      rw [List.append_cons]
      exact ih (h.apply a)

end Apply

end Keeps

/-! ## The latest value -/

section MaxBy

variable [LinearOrder T] (f : V → T)

/-- The last of the greatest elements, as an iterator's `max_by_key` finds it. -/
def maxByKey : List V → Option V
  | [] => none
  | v :: vs =>
    match maxByKey vs with
    | none => some v
    | some best => if f v ≤ f best then some best else some v

variable {f}

@[simp] theorem maxByKey_eq_none {vs : List V} : maxByKey f vs = none ↔ vs = [] := by
  cases vs with
  | nil => simp [maxByKey]
  | cons v vs =>
      rw [maxByKey]
      split
      · simp
      · split <;> simp

/-- What is found is an element, and no element is greater. -/
theorem maxByKey_spec {vs : List V} {best : V} (h : maxByKey f vs = some best) :
    best ∈ vs ∧ ∀ v ∈ vs, f v ≤ f best := by
  induction vs generalizing best with
  | nil => simp [maxByKey] at h
  | cons v vs ih =>
      rw [maxByKey] at h
      cases hrest : maxByKey f vs with
      | none =>
          rw [hrest] at h
          obtain rfl := Option.some.inj h
          obtain rfl := maxByKey_eq_none.mp hrest
          simp
      | some b =>
          rw [hrest] at h
          obtain ⟨hmem, hmax⟩ := ih hrest
          dsimp only at h
          split at h
          · rename_i hle
            obtain rfl := Option.some.inj h
            exact ⟨List.mem_cons_of_mem _ hmem, List.forall_mem_cons.mpr ⟨hle, hmax⟩⟩
          · rename_i hlt
            obtain rfl := Option.some.inj h
            refine ⟨List.mem_cons_self, List.forall_mem_cons.mpr ⟨le_rfl, fun w hw ↦ ?_⟩⟩
            exact (hmax w hw).trans (le_of_not_ge hlt)

end MaxBy

end Lease
