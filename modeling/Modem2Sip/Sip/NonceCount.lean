import Modem2Sip.Sip.Replay

/-!
# Nonce counts across eviction

The counts that requests were let through with only go up, for each nonce.  While the
nonce table has an entry for it, the entry is the highest count so far.  When
eviction has taken the entry out, it was ten minutes old; a nonce is valid for five
minutes from its issue, which is before its first use, so it is not valid any more.
-/

namespace Modem2Sip.Sip.NonceCount

open Text Run Replay

variable (md5Hex : List UInt8 → Str) (cfg : CoreConfig)

structure State where
  now : Nat
  seen : NonceTable
  /-- The credentials that requests were let through on, the latest last. -/
  accepted : List Credentials

def start (now : Nat) : State where
  now := now
  seen := .empty
  accepted := []

/-- The credentials that a request is let through on, unless it is exempt. -/
def reliedOn (req : Request) : Option Credentials :=
  if authExempt cfg req then none else provided req

def step (s : State) : Event → State
  | .request req tag =>
    match checkAuth md5Hex cfg s.now tag s.seen req with
    | (seen, none) => { s with seen, accepted := s.accepted ++ (reliedOn cfg req).toList }
    | (seen, some _) => { s with seen }
  | .gc => { s with seen := gcNonces s.now s.seen }
  | .advance ms => { s with now := s.now + ms }

/-- The counts accepted with a nonce and a `qop`, in order. -/
def countsOf (accepted : List Credentials) (nonce : Str) : List Nat :=
  (accepted.filter fun c ↦ c.nonce == nonce && c.qop.getD [] != []).map fun c ↦ ncCount c.nc

/-! ## The invariant -/

structure Inv (s : State) : Prop where
  /-- Each count is above the earlier ones of its nonce. -/
  increasing : s.accepted.Pairwise fun c c' ↦ c.nonce = c'.nonce → ncCount c.nc < ncCount c'.nc
  /-- An entry was made while its nonce was valid. -/
  entry : ∀ nonce highest since, s.seen.get? nonce = some (highest, since) →
    since ≤ s.now ∧ isValidNonce md5Hex cfg.secret (wallSecs since) nonce 300 = true
  /-- A nonce that was used has no more uses, or the table has its highest count. -/
  spent : ∀ c ∈ s.accepted, Expired md5Hex cfg s.now c.nonce ∨
    ∃ highest since, s.seen.get? c.nonce = some (highest, since) ∧ ncCount c.nc ≤ highest

theorem inv_start (now : Nat) : Inv md5Hex cfg (start now) where
  increasing := List.Pairwise.nil
  entry := by
    intro nonce highest since h
    rw [start, Map.get?_empty] at h
    cases h
  spent := by
    intro c hc
    cases hc

theorem inv_advance {s : State} (h : Inv md5Hex cfg s) (ms : Nat) :
    Inv md5Hex cfg (step md5Hex cfg s (.advance ms)) where
  increasing := h.increasing
  entry := by
    intro nonce highest since hget
    obtain ⟨hle, hvalid⟩ := h.entry nonce highest since hget
    exact ⟨hle.trans (Nat.le_add_right ..), hvalid⟩
  spent := by
    intro c hc
    rcases h.spent c hc with hexp | hkept
    · exact .inl (hexp.mono md5Hex cfg (Nat.le_add_right ..))
    · exact .inr hkept

/-- An entry that eviction takes out is of a nonce that is not valid any more. -/
theorem inv_gc {s : State} (h : Inv md5Hex cfg s) : Inv md5Hex cfg (step md5Hex cfg s .gc) where
  increasing := h.increasing
  entry := by
    intro nonce highest since hget
    exact h.entry nonce highest since (get?_gcNonces_of_some hget)
  spent := by
    intro c hc
    rcases h.spent c hc with hexp | ⟨highest, since, hget, hle⟩
    · exact .inl hexp
    rcases get?_gcNonces s.now hget with hkept | hold
    · exact .inr ⟨highest, since, hkept, hle⟩
    · obtain ⟨hsince, hvalid⟩ := h.entry _ _ _ hget
      have hlater : since + 301 * 1000 ≤ s.now := by
        dsimp only at hold
        omega
      exact .inl (expired_of_valid md5Hex cfg hvalid hlater)

/-- A valid nonce that was used before still has its entry, which the new count is above. -/
theorem inv_accept {s : State} (h : Inv md5Hex cfg s) {c : Credentials} {seen' : NonceTable}
    (hvalid : isValidNonce md5Hex cfg.secret (wallSecs s.now) c.nonce 300 = true)
    (hclaim : claimNonce s.now s.seen c = (true, seen')) :
    Inv md5Hex cfg { s with seen := seen', accepted := s.accepted ++ [c] } := by
  obtain ⟨-, since, rfl, hnew⟩ | ⟨hfalse, -⟩ := claimNonce_cases hclaim
  swap
  · cases hfalse
  have habove : ∀ c' ∈ s.accepted, c'.nonce = c.nonce → ncCount c'.nc < ncCount c.nc := by
    intro c' hc' hnonce
    rcases h.spent c' hc' with hexp | ⟨highest, since', hget, hle⟩
    · rw [hnonce] at hexp
      have := hexp s.now le_rfl
      rw [hvalid] at this
      cases this
    · rw [hnonce] at hget
      rcases hnew with ⟨hnone, -⟩ | ⟨highest', hget', hlt⟩
      · rw [hnone] at hget
        cases hget
      · rw [hget] at hget'
        cases hget'
        omega
  refine ⟨?_, ?_, ?_⟩
  · rw [List.pairwise_append]
    refine ⟨h.increasing, List.pairwise_singleton _ _, ?_⟩
    intro c₁ hc₁ c₂ hc₂
    rw [List.mem_singleton.mp hc₂]
    exact habove c₁ hc₁
  · intro nonce highest since' hget
    rw [Map.get?_insert] at hget
    split at hget
    · rename_i hnonce
      subst hnonce
      cases hget
      rcases hnew with ⟨-, rfl⟩ | ⟨highest', hget', -⟩
      · exact ⟨le_rfl, hvalid⟩
      · exact h.entry _ _ _ hget'
    · exact h.entry _ _ _ hget
  · intro c' hc'
    have hself : (s.seen.insert c.nonce (ncCount c.nc, since)).get? c.nonce =
        some (ncCount c.nc, since) := Map.get?_insert_self ..
    rcases List.mem_append.mp hc' with hc' | hc'
    · by_cases hnonce : c'.nonce = c.nonce
      · refine .inr ⟨ncCount c.nc, since, ?_, (habove c' hc' hnonce).le⟩
        rw [hnonce]
        exact hself
      · rcases h.spent c' hc' with hexp | ⟨highest, since', hget, hle⟩
        · exact .inl hexp
        · exact .inr ⟨highest, since', by rw [Map.get?_insert, if_neg hnonce, hget], hle⟩
    · rw [List.mem_singleton.mp hc']
      exact .inr ⟨_, _, hself, le_rfl⟩

theorem inv_step (s : State) (e : Event) (h : Inv md5Hex cfg s) :
    Inv md5Hex cfg (step md5Hex cfg s e) := by
  cases e with
  | gc => exact inv_gc md5Hex cfg h
  | advance ms => exact inv_advance md5Hex cfg h ms
  | request req tag =>
    rcases hcheck : checkAuth md5Hex cfg s.now tag s.seen req with ⟨seen', out⟩
    obtain ⟨auth, c, -, hexempt, hc, -, hvalid, hclaim, rfl⟩ | ⟨rfl, hout⟩ := checkAuth_cases hcheck
    · have haccept := inv_accept md5Hex cfg h hvalid hclaim
      rw [step, hcheck]
      dsimp only
      rwa [reliedOn, hexempt, if_neg Bool.false_ne_true, hc]
    · rw [step, hcheck]
      cases out with
      | some resp => exact h
      | none =>
        have hexempt : authExempt cfg req = true := hout.resolve_left fun h ↦ h rfl
        dsimp only
        rw [reliedOn, if_pos hexempt, Option.toList_none, List.append_nil]
        exact h

/-- In every run of checks, evictions and a clock that goes forward, the counts accepted with a
nonce and a `qop` strictly increase, and no pair of a nonce and a count is accepted twice. -/
theorem counts_strictly_increase (now : Nat) (es : List Event) :
    (∀ nonce, (countsOf (run (step md5Hex cfg) (start now) es).accepted nonce).Pairwise (· < ·)) ∧
      (((run (step md5Hex cfg) (start now) es).accepted.filter fun c ↦ c.qop.getD [] != []).map
        fun c ↦ (c.nonce, ncCount c.nc)).Nodup := by
  have hinv := Run.invariant (inv_step md5Hex cfg) es (inv_start md5Hex cfg now)
  constructor
  · intro nonce
    unfold countsOf
    rw [List.pairwise_map]
    refine (hinv.increasing.filter _).imp_of_mem fun hc hc' h ↦ h ?_
    simp only [List.mem_filter, Bool.and_eq_true, beq_iff_eq] at hc hc'
    exact hc.2.1.trans hc'.2.1.symm
  · rw [List.Nodup, List.pairwise_map]
    refine (hinv.increasing.filter _).imp fun h heq ↦ ?_
    obtain ⟨hnonce, hcount⟩ := Prod.mk.inj heq
    exact absurd hcount (h hnonce).ne

end Modem2Sip.Sip.NonceCount
