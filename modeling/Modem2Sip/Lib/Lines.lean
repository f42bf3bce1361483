import Mathlib.Algebra.GroupWithZero.Nat
import Mathlib.Data.List.Basic

/-!
# Lines that end with two symbols

Text protocols end a line with a pair of symbols and a block of lines with an empty
line.  Over any alphabet: looking for a pattern, splitting at the pair, replacing the
pair by one symbol, and what each of them does on lines that were joined with the pair.
-/

namespace Lines

variable {α : Type*} [DecidableEq α]

/-- The first place where `needle`, which is not empty, stands. -/
def findSub (needle : List α) : List α → Option Nat
  | [] => none
  | x :: s => if needle.isPrefixOf (x :: s) then some 0 else (findSub needle s).map (· + 1)

/-- The pieces between the pairs `a b`. -/
def splitPair (a b : α) : List α → List (List α)
  | [] => [[]]
  | [x] => [[x]]
  | x :: y :: s =>
    if x = a ∧ y = b then [] :: splitPair a b s
    else (splitPair a b (y :: s)).modifyHead (x :: ·)

/-- Put `c` where a pair `a b` stands. -/
def replacePair (a b c : α) : List α → List α
  | [] => []
  | [x] => [x]
  | x :: y :: s =>
    if x = a ∧ y = b then c :: replacePair a b c s else x :: replacePair a b c (y :: s)

variable {a b : α}

omit [DecidableEq α] in
theorem ne_of_not_mem_cons {x : α} {l : List α} (h : a ∉ x :: l) : x ≠ a ∧ a ∉ l := by
  rw [List.mem_cons, not_or] at h
  exact ⟨Ne.symm h.1, h.2⟩

/-! ## One line -/

theorem splitPair_of_not_mem (b : α) {l : List α} (h : a ∉ l) : splitPair a b l = [l] := by
  induction l with
  | nil => rfl
  | cons x l ih =>
      obtain ⟨hx, hl⟩ := ne_of_not_mem_cons h
      cases l with
      | nil => rfl
      | cons y l =>
          rw [splitPair, if_neg (fun hxy ↦ hx hxy.1), ih hl]
          rfl

theorem splitPair_append (b : α) {l : List α} (h : a ∉ l) (s : List α) :
    splitPair a b (l ++ a :: b :: s) = l :: splitPair a b s := by
  induction l with
  | nil => rw [List.nil_append, splitPair, if_pos ⟨rfl, rfl⟩]
  | cons x l ih =>
      obtain ⟨hx, hl⟩ := ne_of_not_mem_cons h
      have ih := ih hl
      cases l with
      | nil =>
          rw [List.nil_append] at ih
          rw [List.cons_append, List.nil_append, splitPair, if_neg (fun hxy ↦ hx hxy.1), ih]
          rfl
      | cons y l =>
          rw [List.cons_append] at ih
          rw [List.cons_append, List.cons_append, splitPair, if_neg (fun hxy ↦ hx hxy.1), ih]
          rfl

theorem replacePair_of_not_mem (b c : α) {l : List α} (h : a ∉ l) : replacePair a b c l = l := by
  induction l with
  | nil => rfl
  | cons x l ih =>
      obtain ⟨hx, hl⟩ := ne_of_not_mem_cons h
      cases l with
      | nil => rfl
      | cons y l => rw [replacePair, if_neg (fun hxy ↦ hx hxy.1), ih hl]

theorem replacePair_append (b c : α) {l : List α} (h : a ∉ l) (s : List α) :
    replacePair a b c (l ++ a :: b :: s) = l ++ c :: replacePair a b c s := by
  induction l with
  | nil => rw [List.nil_append, replacePair, if_pos ⟨rfl, rfl⟩, List.nil_append]
  | cons x l ih =>
      obtain ⟨hx, hl⟩ := ne_of_not_mem_cons h
      have ih := ih hl
      cases l with
      | nil =>
          rw [List.nil_append] at ih
          rw [List.cons_append, List.nil_append, replacePair, if_neg (fun hxy ↦ hx hxy.1), ih]
          rfl
      | cons y l =>
          rw [List.cons_append] at ih
          rw [List.cons_append, List.cons_append, replacePair, if_neg (fun hxy ↦ hx hxy.1), ih]
          rfl

/-- A pattern does not start within a line that lacks its first symbol. -/
theorem findSub_append {l : List α} (h : a ∉ l) (needle s : List α) :
    findSub (a :: needle) (l ++ s) = (findSub (a :: needle) s).map (l.length + ·) := by
  induction l with
  | nil => simp
  | cons x l ih =>
      obtain ⟨hx, hl⟩ := ne_of_not_mem_cons h
      have hno : ¬ (a :: needle).isPrefixOf (x :: (l ++ s)) = true := by
        simp [List.isPrefixOf, hx.symm]
      rw [List.cons_append, findSub, if_neg hno, ih hl, Option.map_map]
      congr 1
      funext n
      simp only [Function.comp_apply, List.length_cons]
      omega

/-! ## The first place of a pattern -/

theorem findSub_eq_some_iff {needle : List α} (hne : needle ≠ []) {s : List α} {n : Nat} :
    findSub needle s = some n ↔ needle <+: s.drop n ∧ ∀ m < n, ¬ needle <+: s.drop m := by
  induction s generalizing n with
  | nil =>
      constructor
      · rintro ⟨⟩
      · rintro ⟨h, -⟩
        rw [List.drop_nil] at h
        exact absurd (List.prefix_nil.mp h) hne
  | cons x s ih =>
      rw [findSub]
      split
      · rename_i hpre
        have hpre := List.isPrefixOf_iff_prefix.mp hpre
        constructor
        · rintro ⟨⟩
          exact ⟨hpre, fun m hm ↦ absurd hm (Nat.not_lt_zero m)⟩
        · rintro ⟨-, hfirst⟩
          cases n with
          | zero => rfl
          | succ n => exact absurd hpre (hfirst 0 (Nat.succ_pos n))
      · rename_i hpre
        have hpre : ¬ needle <+: x :: s := fun h ↦ hpre (List.isPrefixOf_iff_prefix.mpr h)
        rw [Option.map_eq_some_iff]
        constructor
        · rintro ⟨k, hk, rfl⟩
          obtain ⟨hat, hfirst⟩ := ih.mp hk
          refine ⟨hat, fun m hm ↦ ?_⟩
          cases m with
          | zero => exact hpre
          | succ m => exact hfirst m (Nat.lt_of_succ_lt_succ hm)
        · rintro ⟨hat, hfirst⟩
          cases n with
          | zero => exact absurd hat hpre
          | succ n =>
              exact ⟨n, ih.mpr ⟨hat, fun m hm ↦ hfirst (m + 1) (Nat.succ_lt_succ hm)⟩, rfl⟩

theorem findSub_eq_none_iff {needle : List α} (hne : needle ≠ []) {s : List α} :
    findSub needle s = none ↔ ∀ n, ¬ needle <+: s.drop n := by
  constructor
  · intro h n hn
    -- There is a first place as soon as there is one.
    induction n using Nat.strongRecOn with
    | _ n ih =>
      by_cases hfirst : ∃ m < n, needle <+: s.drop m
      · obtain ⟨m, hm, hat⟩ := hfirst
        exact ih m hm hat
      · have hsome := (findSub_eq_some_iff hne).mpr
          ⟨hn, fun m hm hat ↦ hfirst ⟨m, hm, hat⟩⟩
        rw [h] at hsome
        cases hsome
  · intro h
    cases hfind : findSub needle s with
    | none => rfl
    | some n => exact absurd ((findSub_eq_some_iff hne).mp hfind).1 (h n)

theorem findSub_eq_none_iff_infix {needle : List α} (hne : needle ≠ []) {s : List α} :
    findSub needle s = none ↔ ¬ needle <:+: s := by
  rw [findSub_eq_none_iff hne]
  constructor
  · rintro h ⟨a, b, rfl⟩
    refine h a.length ⟨b, ?_⟩
    rw [List.append_assoc, List.drop_left]
  · rintro h n ⟨b, hb⟩
    exact h ⟨s.take n, b, by rw [List.append_assoc, hb, List.take_append_drop]⟩

/-- A pattern that was found is whole. -/
theorem le_length_of_findSub {needle : List α} (hne : needle ≠ []) {s : List α} {n : Nat}
    (h : findSub needle s = some n) : n + needle.length ≤ s.length := by
  have hle := ((findSub_eq_some_iff hne).mp h).1.length_le
  have hpos := List.length_pos_iff.mpr hne
  rw [List.length_drop] at hle
  omega

/-- And stays the first one, whatever comes after. -/
theorem findSub_append_right {needle : List α} (hne : needle ≠ []) {s : List α} {n : Nat}
    (h : findSub needle s = some n) (t : List α) : findSub needle (s ++ t) = some n := by
  have hle := le_length_of_findSub hne h
  obtain ⟨hat, hfirst⟩ := (findSub_eq_some_iff hne).mp h
  refine (findSub_eq_some_iff hne).mpr ⟨?_, fun m hm hm' ↦ hfirst m hm ?_⟩
  · rw [List.drop_append_of_le_length (by omega)]
    exact hat.trans (List.prefix_append _ _)
  · rw [List.drop_append_of_le_length (by omega)] at hm'
    refine List.prefix_of_prefix_length_le hm' (List.prefix_append _ _) ?_
    rw [List.length_drop]
    omega

/-- A pattern that is found only with more text ends in it. -/
theorem lt_of_findSub_append {needle : List α} (hne : needle ≠ []) {s t : List α} {n : Nat}
    (hnone : findSub needle s = none) (h : findSub needle (s ++ t) = some n) :
    s.length < n + needle.length := by
  by_contra hle
  have hat := ((findSub_eq_some_iff hne).mp h).1
  rw [List.drop_append_of_le_length (by omega)] at hat
  refine (findSub_eq_none_iff hne).mp hnone n
    (List.prefix_of_prefix_length_le hat (List.prefix_append _ _) ?_)
  rw [List.length_drop]
  omega

/-- What is not yet a whole line has no end. -/
theorem findSub_of_prefix {l p : List α} (h : a ∉ l) (hp : p <+: l ++ [a, b])
    (hne : p ≠ l ++ [a, b]) : findSub [a, b] p = none := by
  cases hfind : findSub [a, b] p with
  | none => rfl
  | some n =>
      obtain ⟨t, ht⟩ := hp
      have hwhole := findSub_append_right (by simp) hfind t
      rw [ht, findSub_append h, findSub, if_pos (by simp [List.isPrefixOf])] at hwhole
      obtain rfl : l.length + 0 = n := Option.some.inj hwhole
      have hle := le_length_of_findSub (by simp) hfind
      have hlen := congrArg List.length ht
      rw [List.length_append, List.length_append] at hlen
      have ht : t = [] := List.eq_nil_of_length_eq_zero (by simp at hle hlen; omega)
      subst ht
      exact absurd (by simpa using ‹p ++ [] = l ++ [a, b]›) hne

/-! ## Joined lines -/

/-- Lines without the first symbol of the pair are read back. -/
theorem splitPair_intercalate {ls : List (List α)} (hne : ls ≠ []) (h : ∀ l ∈ ls, a ∉ l) :
    splitPair a b ([a, b].intercalate ls) = ls := by
  induction ls with
  | nil => exact absurd rfl hne
  | cons l ls ih =>
      have hl := h l List.mem_cons_self
      cases ls with
      | nil => rw [List.intercalate_singleton, splitPair_of_not_mem b hl]
      | cons l' ls =>
          rw [List.intercalate_cons_cons, List.append_assoc]
          exact (splitPair_append b hl _).trans
            (congrArg (l :: ·) (ih (by simp) fun l'' h'' ↦ h l'' (List.mem_cons_of_mem l h'')))

theorem replacePair_intercalate (c : α) {ls : List (List α)} (h : ∀ l ∈ ls, a ∉ l) :
    replacePair a b c ([a, b].intercalate ls) = [c].intercalate ls := by
  induction ls with
  | nil => rfl
  | cons l ls ih =>
      have hl := h l List.mem_cons_self
      cases ls with
      | nil =>
          rw [List.intercalate_singleton, List.intercalate_singleton, replacePair_of_not_mem b c hl]
      | cons l' ls =>
          rw [List.intercalate_cons_cons, List.append_assoc, List.intercalate_cons_cons,
            List.append_assoc, ← ih fun l'' h'' ↦ h l'' (List.mem_cons_of_mem l h'')]
          exact replacePair_append b c hl _

omit [DecidableEq α] in
/-- Joined lines are the first line and every other one behind a separator. -/
theorem intercalate_cons (sep l : List α) (ls : List (List α)) :
    sep.intercalate (l :: ls) = l ++ ls.flatMap (sep ++ ·) := by
  induction ls generalizing l with
  | nil => rw [List.intercalate_singleton, List.flatMap_nil, List.append_nil]
  | cons l' ls ih =>
      rw [List.intercalate_cons_cons, ih l', List.flatMap_cons, List.append_assoc,
        List.append_assoc]

omit [DecidableEq α] in
theorem length_intercalate_single (c : α) {ls : List (List α)} (hne : ls ≠ []) :
    ([c].intercalate ls).length + 1 = (ls.map (·.length + 1)).sum := by
  induction ls with
  | nil => exact absurd rfl hne
  | cons l ls ih =>
      cases ls with
      | nil => simp
      | cons l' ls =>
          have ih := ih (by simp)
          rw [List.map_cons, List.sum_cons, ← ih, List.intercalate_cons_cons]
          simp only [List.length_append, List.length_singleton]
          omega

omit [DecidableEq α] in
/-- Joining fewer lines gives no more. -/
theorem length_intercalate_le_of_sublist (c : α) {ls ls' : List (List α)}
    (h : ls.Sublist ls') : ([c].intercalate ls).length ≤ ([c].intercalate ls').length := by
  have hsum : (ls.map (·.length + 1)).sum ≤ (ls'.map (·.length + 1)).sum := by
    induction h with
    | slnil => exact Nat.le_refl _
    | cons l _ ih =>
        rw [List.map_cons, List.sum_cons]
        omega
    | cons_cons l _ ih =>
        rw [List.map_cons, List.map_cons, List.sum_cons, List.sum_cons]
        omega
  by_cases hne : ls = []
  · rw [hne]
    exact Nat.zero_le _
  · have hne' : ls' ≠ [] := fun hnil ↦ hne (List.sublist_nil.mp (hnil ▸ h))
    rw [← length_intercalate_single c hne, ← length_intercalate_single c hne'] at hsum
    omega

omit [DecidableEq α] in
theorem intercalate_concat (sep : List α) (ls : List (List α)) (l : List α) :
    ∃ t, sep.intercalate (ls ++ [l]) = t ++ l := by
  induction ls with
  | nil => exact ⟨[], by rw [List.nil_append, List.nil_append, List.intercalate_singleton]⟩
  | cons l' ls ih =>
      obtain ⟨t, ht⟩ := ih
      refine ⟨l' ++ sep ++ t, ?_⟩
      rw [List.cons_append, List.append_assoc _ t, ← ht]
      cases ls with
      | nil => exact List.intercalate_cons_cons
      | cons l'' ls => exact List.intercalate_cons_cons

/-- The first empty line is the one after the last of the joined lines, none of which is empty. -/
theorem findSub_intercalate (hab : a ≠ b) {ls : List (List α)} (hne : ls ≠ [])
    (h : ∀ l ∈ ls, l ≠ [] ∧ a ∉ l) (s : List α) :
    findSub [a, b, a, b] ([a, b].intercalate ls ++ a :: b :: a :: b :: s) =
      some ([a, b].intercalate ls).length := by
  induction ls with
  | nil => exact absurd rfl hne
  | cons l ls ih =>
      obtain ⟨-, hl⟩ := h l List.mem_cons_self
      cases ls with
      | nil =>
          rw [List.intercalate_singleton, findSub_append hl, findSub, if_pos (by simp [List.isPrefixOf])]
          rfl
      | cons l' ls =>
          obtain ⟨hne', hl'⟩ := h l' (List.mem_cons_of_mem l List.mem_cons_self)
          have ih := ih (by simp) fun l'' h'' ↦ h l'' (List.mem_cons_of_mem l h'')
          have ht := intercalate_cons [a, b] l' ls
          obtain ⟨x, l', rfl⟩ := List.exists_cons_of_ne_nil hne'
          obtain ⟨hx, -⟩ := ne_of_not_mem_cons hl'
          rw [List.intercalate_cons_cons, List.append_assoc, List.append_assoc, findSub_append hl]
          -- Neither of the two symbols before the next line starts the pattern.
          have hfirst : ¬ [a, b, a, b].isPrefixOf (a :: b :: ([a, b].intercalate ((x :: l') :: ls) ++
              a :: b :: a :: b :: s)) = true := by
            rw [ht]
            simp [List.isPrefixOf, hx.symm]
          have hsecond : ¬ [a, b, a, b].isPrefixOf (b :: ([a, b].intercalate ((x :: l') :: ls) ++
              a :: b :: a :: b :: s)) = true := by
            simp [List.isPrefixOf, hab]
          rw [List.cons_append, List.cons_append, List.nil_append, findSub, if_neg hfirst, findSub,
            if_neg hsecond, ih]
          simp only [Option.map_some, List.length_append, List.length_cons, List.length_nil,
            Option.some.injEq]
          omega

/-- The same for lines that are joined with one symbol. -/
theorem findSub_intercalate_single {ls : List (List α)} (hne : ls ≠ [])
    (h : ∀ l ∈ ls, l ≠ [] ∧ a ∉ l) (s : List α) :
    findSub [a, a] ([a].intercalate ls ++ a :: a :: s) = some ([a].intercalate ls).length := by
  induction ls with
  | nil => exact absurd rfl hne
  | cons l ls ih =>
      obtain ⟨-, hl⟩ := h l List.mem_cons_self
      cases ls with
      | nil =>
          rw [List.intercalate_singleton, findSub_append hl, findSub, if_pos (by simp [List.isPrefixOf])]
          rfl
      | cons l' ls =>
          obtain ⟨hne', hl'⟩ := h l' (List.mem_cons_of_mem l List.mem_cons_self)
          have ih := ih (by simp) fun l'' h'' ↦ h l'' (List.mem_cons_of_mem l h'')
          have ht := intercalate_cons [a] l' ls
          obtain ⟨x, l', rfl⟩ := List.exists_cons_of_ne_nil hne'
          obtain ⟨hx, -⟩ := ne_of_not_mem_cons hl'
          rw [List.intercalate_cons_cons, List.append_assoc, List.append_assoc, findSub_append hl]
          have hno : ¬ [a, a].isPrefixOf (a :: ([a].intercalate ((x :: l') :: ls) ++
              a :: a :: s)) = true := by
            rw [ht]
            simp [List.isPrefixOf, hx.symm]
          rw [List.cons_append, List.nil_append, findSub, if_neg hno, ih]
          simp only [Option.map_some, List.length_append, List.length_cons, List.length_nil,
            Option.some.injEq]
          omega

omit [DecidableEq α] in
/-- Lines that were ended with the pair one after the other, but for the last pair. -/
theorem flatMap_append_eq {ls : List (List α)} (hne : ls ≠ []) (sep : List α) :
    (ls.flatMap fun l ↦ l ++ sep) = sep.intercalate ls ++ sep := by
  induction ls with
  | nil => exact absurd rfl hne
  | cons l ls ih =>
      cases ls with
      | nil => rw [List.intercalate_singleton, List.flatMap_singleton]
      | cons l' ls =>
          rw [List.flatMap_cons, ih (by simp), List.intercalate_cons_cons, List.append_assoc,
            List.append_assoc, List.append_assoc]

end Lines
