import Modem2Sip.Gateway.NewCall

/-!
# One final response for each INVITE

From its 100 on, an INVITE is owed one final response and nothing after it.  The
codes sent on the transaction of a delivered request are read off the log.  While
the call is in its slot they are all provisional until it is answered; when it
leaves the slot they end in the one final response.  `Owed` is that invariant, and
`keepsAnswer` what an event has to satisfy for its step to keep it.
-/

namespace Modem2Sip.Gateway

open Text Net Sip

variable (md5Hex : List UInt8 → Str) (cfg : Config) (env : Env)

/-! ## The codes of a transaction -/

/-- The code of a response to the delivered request `t`. -/
def Entry.codeOn (t : Nat) : Entry → Option Nat
  | .respond (some t') _ resp _ => if t' = t then some resp.code else none
  | _ => none

/-- The codes sent on the transaction of the delivered request `t`, the oldest first. -/
def codes (t : Nat) (g : State) : List Nat := g.log.filterMap fun e ↦ e.2.codeOn t

/-- Only provisional responses. -/
def Pending (ks : List Nat) : Prop := ∀ k ∈ ks, k < 200

/-- Provisional responses and then one final response. -/
def Settled (ks : List Nat) : Prop := Pending ks.dropLast ∧ ∃ k ∈ ks.getLast?, 200 ≤ k

instance : DecidablePred Pending := fun ks ↦ inferInstanceAs (Decidable (∀ k ∈ ks, k < 200))

instance : DecidablePred Settled := fun ks ↦
  inferInstanceAs (Decidable (Pending ks.dropLast ∧ ∃ k ∈ ks.getLast?, 200 ≤ k))

theorem Settled.concat {ks : List Nat} (h : Pending ks) {k : Nat} (hk : 200 ≤ k) :
    Settled (ks ++ [k]) := by
  simp [Settled, h, hk]

theorem Pending.append {ks ls : List Nat} (hk : Pending ks) (hl : Pending ls) :
    Pending (ks ++ ls) := fun k hmem ↦ by
  rcases List.mem_append.mp hmem with h | h
  · exact hk k h
  · exact hl k h

section Codes

variable {g g' : State}

theorem codes_eq_of_log {new : List (Nat × Entry)} (h : g'.log = g.log ++ new) (t : Nat) :
    codes t g' = codes t g ++ new.filterMap fun e ↦ e.2.codeOn t := by
  rw [codes, h, List.filterMap_append, codes]

theorem codes_emit (g : State) (t : Nat) (e : Entry) :
    codes t (g.emit e) = codes t g ++ (e.codeOn t).toList := by
  rw [codes_eq_of_log (State.emit_log ..)]
  cases h : e.codeOn t <;> simp [h]

theorem codes_respond (g : State) (t : Nat) (txn : Option Nat) (req : Request) (resp : Response)
    (dest : SocketAddr) :
    codes t (g.respond env txn req resp dest).1 =
      codes t g ++ if txn = some t then [resp.code] else [] := by
  refine (codes_emit ..).trans (congrArg _ ?_)
  cases txn with
  | none => simp [Entry.codeOn]
  | some t' => by_cases h : t' = t <;> simp [Entry.codeOn, h]

/-- The codes that a steady handler adds are those that it admits. -/
theorem Steady.codes {resp : Option Nat → Nat → Prop} {meth : Method → Prop}
    (h : Steady (Entry.Allowed resp meth) g g') (t : Nat) :
    ∃ new, codes t g' = codes t g ++ new ∧ ∀ k ∈ new, resp (some t) k := by
  obtain ⟨new, hlog, hnew⟩ := h.log
  refine ⟨_, codes_eq_of_log hlog t, fun k hk ↦ ?_⟩
  obtain ⟨⟨time, e⟩, he, hcode⟩ := List.mem_filterMap.mp hk
  have hallowed := (hnew _ he).2
  cases e with
  | respond txn req r dest =>
      cases txn with
      | none => simp [Entry.codeOn] at hcode
      | some t' =>
          obtain ⟨rfl, rfl⟩ : t' = t ∧ r.code = k := by simpa [Entry.codeOn] using hcode
          exact hallowed
  | _ => simp [Entry.codeOn] at hcode

end Codes

/-! ## The invariant -/

/-- Nothing was sent on transactions to come, and an INVITE that got its 100 and is not the one of
the call got its final response. -/
structure Books (g : State) : Prop where
  fresh : ∀ t, g.nextTxn ≤ t → codes t g = []
  owner : ∀ t, g.inviteTxn = some t → t < g.nextTxn
  past : ∀ t, 100 ∈ codes t g → g.inviteTxn ≠ some t → Settled (codes t g)

/-- The INVITE of a call from SIP is answered if and only if the call is. -/
structure Owed (g : State) : Prop extends Books g where
  toSip : ∀ l, g.leg = some l → l.role = .toSip → l.inviteTxn = none
  fromSip : ∀ l, g.leg = some l → l.role = .fromSip → ∃ t, l.inviteTxn = some t ∧
    if l.answered then Settled (codes t g) else Pending (codes t g)

theorem owed_init (now : Nat) : Owed (State.init now) where
  fresh _ _ := rfl
  owner _ h := by simp [State.inviteTxn, State.leg, State.init] at h
  past _ h := by simp [codes, State.init] at h
  toSip _ h := by simp [State.leg, State.init] at h
  fromSip _ h := by simp [State.leg, State.init] at h

section Frame

variable {g g' : State}

/-- The part of a leg that the invariant is about. -/
def Leg.owner (l : Leg) : Role × Option Nat × Bool := (l.role, l.inviteTxn, l.answered)

/-- The invariant is about the call's INVITE and the codes only. -/
theorem Owed.congr (h : Owed g) (hleg : g'.leg.map Leg.owner = g.leg.map Leg.owner)
    (hnext : g.nextTxn ≤ g'.nextTxn) (hlog : ∀ t, codes t g' = codes t g) : Owed g' := by
  have htxn : g'.inviteTxn = g.inviteTxn := by
    unfold State.inviteTxn
    cases hl : g.leg <;> cases hl' : g'.leg <;> simp_all [Leg.owner]
  have hback (l' : Leg) (hl' : g'.leg = some l') :
      ∃ l, g.leg = some l ∧ l.role = l'.role ∧ l.inviteTxn = l'.inviteTxn ∧
        l.answered = l'.answered := by
    cases hl : g.leg with
    | none => simp [hl, hl'] at hleg
    | some l => simpa [hl, hl', Leg.owner, eq_comm] using hleg
  constructor
  · constructor
    · intro t ht
      rw [hlog, h.fresh t (hnext.trans ht)]
    · intro t ht
      exact (h.owner t (htxn ▸ ht)).trans_le hnext
    · intro t hmem hne
      rw [hlog] at hmem ⊢
      exact h.past t hmem (htxn ▸ hne)
  · intro l' hl' hrole
    obtain ⟨l, hl, hr, ht, -⟩ := hback l' hl'
    exact ht ▸ h.toSip l hl (hr.trans hrole)
  · intro l' hl' hrole
    obtain ⟨l, hl, hr, ht, ha⟩ := hback l' hl'
    simpa only [← ht, ← ha, hlog] using h.fromSip l hl (hr.trans hrole)

theorem State.inviteTxn_of_leg {l : Leg} (hl : g.leg = some l) : g.inviteTxn = l.inviteTxn := by
  simp [State.inviteTxn, hl]

/-- Requests to come stay without a response. -/
theorem Steady.codes_fresh {resp : Option Nat → Nat → Prop} {meth : Method → Prop}
    (h : Steady (Entry.Allowed resp meth) g g') (hlt : ∀ t k, resp (some t) k → t < g.nextTxn)
    (hfresh : ∀ t, g.nextTxn ≤ t → Gateway.codes t g = []) (t : Nat) (ht : g'.nextTxn ≤ t) :
    Gateway.codes t g' = [] := by
  rw [h.nextTxn] at ht
  obtain ⟨new, hcodes, hnew⟩ := h.codes t
  rw [hcodes, hfresh t ht, List.nil_append]
  refine List.eq_nil_iff_forall_not_mem.mpr fun k hk ↦ ?_
  have := hlt t k (hnew k hk)
  omega

theorem Books.of_steady {resp : Option Nat → Nat → Prop} {meth : Method → Prop} (hb : Books g)
    (h : Steady (Entry.Allowed resp meth) g g')
    (hlt : ∀ t k, resp (some t) k → t < g.nextTxn)
    (hother : ∀ t k, resp (some t) k → g.inviteTxn ≠ some t → k ≠ 100 ∧ 100 ∉ codes t g) :
    Books g' := by
  have htxn : g'.inviteTxn = g.inviteTxn := by rw [State.inviteTxn, h.leg, State.inviteTxn]
  constructor
  · exact h.codes_fresh hlt hb.fresh
  · rw [htxn, h.nextTxn]
    exact hb.owner
  · intro t hmem hne
    rw [htxn] at hne
    obtain ⟨new, hcodes, hnew⟩ := h.codes t
    rw [hcodes] at hmem ⊢
    rcases List.mem_append.mp hmem with hold | hadded
    · -- A transaction that got its 100 gets nothing more.
      have : new = [] := List.eq_nil_iff_forall_not_mem.mpr fun k hk ↦
        (hother t k (hnew k hk) hne).2 hold
      rw [this, List.append_nil]
      exact hb.past t hold hne
    · exact absurd rfl (hother t 100 (hnew 100 hadded) hne).1

theorem Owed.of_steady {resp : Option Nat → Nat → Prop} {meth : Method → Prop} (ho : Owed g)
    (h : Steady (Entry.Allowed resp meth) g g')
    (hlt : ∀ t k, resp (some t) k → t < g.nextTxn)
    (hother : ∀ t k, resp (some t) k → g.inviteTxn ≠ some t → k ≠ 100 ∧ 100 ∉ codes t g)
    (hcall : ∀ l t k, g.leg = some l → l.inviteTxn = some t → resp (some t) k →
      l.answered = false ∧ k < 200) : Owed g' where
  toBooks := ho.toBooks.of_steady h hlt hother
  toSip := h.leg ▸ ho.toSip
  fromSip l hl hrole := by
    rw [h.leg] at hl
    obtain ⟨t, ht, hcodes⟩ := ho.fromSip l hl hrole
    obtain ⟨new, heq, hnew⟩ := h.codes t
    refine ⟨t, ht, ?_⟩
    rw [heq]
    cases hans : l.answered with
    | false =>
        simp only [hans, Bool.false_eq_true, if_false] at hcodes ⊢
        exact hcodes.append fun k hk ↦ (hcall l t k hl ht (hnew k hk)).2
    | true =>
        simp only [hans, if_true] at hcodes ⊢
        have : new = [] := List.eq_nil_iff_forall_not_mem.mpr fun k hk ↦ by
          have := (hcall l t k hl ht (hnew k hk)).1
          simp_all
        rwa [this, List.append_nil]

/-- A handler that answers nothing. -/
theorem Owed.sends {meth : Method → Prop} (ho : Owed g) (h : Steady (Entry.Sends meth) g g') :
    Owed g' :=
  ho.of_steady h (fun _ _ ↦ False.elim) (fun _ _ ↦ False.elim) fun _ _ _ _ _ ↦ False.elim

/-- A change of the call that keeps the owner of its INVITE. -/
theorem Owed.updateCall (ho : Owed g) {f : ActiveCall → ActiveCall}
    (hf : ∀ c, (f c).leg.owner = c.leg.owner) : Owed (g.updateCall f) := by
  refine ho.congr ?_ le_rfl fun _ ↦ rfl
  unfold State.leg
  rw [State.updateCall_call]
  cases g.call with
  | none => rfl
  | some c => exact congrArg some (hf c)

theorem Owed.silent (ho : Owed g) (h : Steady Entry.Silent g g') : Owed g' := ho.sends h

/-- A provisional response on the INVITE of a call that rings. -/
theorem Owed.provisional {admitted : Nat → Prop} (ho : Owed g)
    (h : Steady (Entry.Answers g.inviteTxn admitted) g g') (hk : ∀ k, admitted k → k < 200)
    (hrings : ∀ l, g.leg = some l → l.role = .fromSip → l.answered = false) : Owed g' := by
  refine ho.of_steady h ?_ ?_ ?_
  · rintro t k ⟨ht, -⟩
    exact ho.owner t ht.symm
  · rintro t k ⟨ht, -⟩ hne
    exact absurd ht.symm hne
  · rintro l t k hl ht ⟨-, hadm⟩
    refine ⟨?_, hk k hadm⟩
    cases hrole : l.role with
    | fromSip => exact hrings l hl hrole
    | toSip => simp [ho.toSip l hl hrole] at ht

/-- Nothing was sent on the transaction yet, and it is not that of the call. -/
structure IsNew (g : State) (txn : Nat) : Prop where
  lt : txn < g.nextTxn
  ne : g.inviteTxn ≠ some txn
  codes : codes txn g = []

/-- A final response to the request that is being handled. -/
theorem Owed.reply {txn : Nat} (ho : Owed g) (hnew : IsNew g txn)
    (h : Steady (Entry.Answers (some txn) (200 ≤ ·)) g g') : Owed g' := by
  refine ho.of_steady h ?_ ?_ ?_
  · rintro t k ⟨ht, -⟩
    obtain rfl := Option.some.inj ht
    exact hnew.lt
  · rintro t k ⟨ht, hk⟩ -
    obtain rfl := Option.some.inj ht
    exact ⟨by omega, by simp [hnew.codes]⟩
  · rintro l t k hl ht ⟨heq, -⟩
    obtain rfl := Option.some.inj heq
    exact absurd ((State.inviteTxn_of_leg hl).trans ht) hnew.ne

/-! ## The end of a call -/

/-- The call may leave its slot once its INVITE has its final response. -/
theorem Books.finishCall (hb : Books g)
    (hset : ∀ t, g.inviteTxn = some t → 100 ∈ Gateway.codes t g → Settled (Gateway.codes t g))
    (disposition : Str) : Owed (g.finishCall disposition) := by
  have hcodes (t : Nat) : Gateway.codes t (g.finishCall disposition) = Gateway.codes t g := by
    cases hc : g.call with
    | none => simp [State.finishCall, hc]
    | some c =>
        rw [codes_eq_of_log (g.finishCall_log hc disposition)]
        simp [Entry.codeOn]
  have hleg : (g.finishCall disposition).leg = none := by simp [State.leg]
  constructor
  · constructor
    · intro t ht
      rw [State.finishCall_nextTxn] at ht
      rw [hcodes, hb.fresh t ht]
    · intro t ht
      simp [State.inviteTxn, hleg] at ht
    · intro t hmem _
      rw [hcodes] at hmem ⊢
      by_cases ht : g.inviteTxn = some t
      · exact hset t ht hmem
      · exact hb.past t hmem ht
  · simp [hleg]
  · simp [hleg]

/-- An answered call, or one of ours, may leave the slot at any time. -/
theorem Owed.finishCall (ho : Owed g)
    (hans : ∀ l, g.leg = some l → l.role = .fromSip → l.answered = true) (disposition : Str) :
    Owed (g.finishCall disposition) := by
  refine ho.toBooks.finishCall (fun t ht _ ↦ ?_) disposition
  obtain ⟨l, hl, htxn⟩ := Option.bind_eq_some_iff.mp ht
  cases hrole : l.role with
  | toSip => simp [ho.toSip l hl hrole] at htxn
  | fromSip =>
      obtain ⟨t', ht', hset⟩ := ho.fromSip l hl hrole
      obtain rfl : t = t' := Option.some.inj (htxn.symm.trans ht')
      simpa [hans l hl hrole] using hset

/-- A final response on the INVITE of a call that rings, and the call leaves its slot. -/
theorem Owed.respond_finishCall {c : ActiveCall} (ho : Owed g) (hc : g.call = some c)
    (hrole : c.role = .fromSip) (hans : c.answered = false) {resp : Response}
    (hcode : 200 ≤ resp.code) (req : Request) (dest : SocketAddr)
    (hsteady : Steady Entry.Silent (g.respond env c.inviteTxn req resp dest).1 g')
    (disposition : Str) : Owed (g'.finishCall disposition) := by
  obtain ⟨t, ht, hpend⟩ := ho.fromSip c.leg (State.leg_of_call hc) hrole
  replace ht : c.inviteTxn = some t := ht
  replace hpend : Pending (codes t g) := by
    simpa [show c.leg.answered = false from hans] using hpend
  have hfinal : Steady (Entry.Answers (some t) (200 ≤ ·)) g g' :=
    (Steady.emit g ⟨ht, hcode⟩).trans hsteady.allowed
  have htxn : g.inviteTxn = some t := (State.inviteTxn_of_call hc).trans ht
  have htxn' : g'.inviteTxn = some t := by rw [State.inviteTxn, hfinal.leg, ← State.inviteTxn, htxn]
  have hbooks : Books g' := by
    refine ho.toBooks.of_steady hfinal ?_ ?_
    · rintro t' k ⟨heq, -⟩
      exact ho.owner t' (htxn.trans heq.symm)
    · rintro t' k ⟨heq, -⟩ hne
      exact absurd (htxn.trans heq.symm) hne
  refine hbooks.finishCall (fun t' ht' _ ↦ ?_) disposition
  obtain rfl : t = t' := Option.some.inj (htxn'.symm.trans ht')
  obtain ⟨new, hcodes, hnone⟩ := hsteady.codes t
  rw [hcodes, List.eq_nil_iff_forall_not_mem.mpr hnone, List.append_nil, codes_respond, if_pos ht]
  exact .concat hpend hcode

end Frame

/-! ## The handlers -/

section Handlers

variable {g g' : State}

/-- A call that is torn down while it rings gets its final response on the way out. -/
theorem Owed.teardownCall (ho : Owed g) (reason : Str) (code : Nat) :
    Owed (g.teardownCall cfg env reason code) := by
  cases hc : g.call with
  | none => simpa [State.teardownCall, hc] using ho
  | some c =>
      have hleg (g' : State) (h : g'.leg = g.leg) (l : Leg) (hl : g'.leg = some l) : l = c.leg :=
        Option.some.inj (hl.symm.trans (h.trans (State.leg_of_call hc)))
      cases hans : c.answered with
      | true =>
          obtain ⟨g', hs, heq⟩ := g.teardownCall_answered cfg env hc hans reason code
          rw [heq]
          refine (ho.sends hs).finishCall (fun l hl _ ↦ ?_) reason
          rw [hleg g' hs.leg l hl]
          exact hans
      | false =>
          cases hrole : c.role with
          | fromSip =>
              obtain ⟨resp, hcode, heq⟩ :=
                g.teardownCall_fromSip cfg env hc hans hrole reason code
              rw [heq]
              exact ho.respond_finishCall env hc hrole hans (by omega) _ _
                (State.hangupMobile_steady _) reason
          | toSip =>
              obtain ⟨g', hs, heq⟩ := g.teardownCall_toSip cfg env hc hans hrole reason code
              rw [heq]
              refine (ho.sends hs).finishCall (fun l hl hr ↦ ?_) reason
              obtain rfl := hleg g' hs.leg l hl
              exact absurd (hrole.symm.trans hr) (by decide)

/-! ### SIP requests -/

/-- An INVITE was accepted: its call is in the slot and rings, or it got its final response. -/
theorem Owed.accepted {g' : State} {txn : Nat} (ho : Owed g) (hnew : IsNew g txn)
    (hleg : g.leg = none) (hnext : g'.nextTxn = g.nextTxn)
    (hsame : ∀ t, t ≠ txn → codes t g' = codes t g)
    (hcall : (g'.leg = none ∧ Settled (codes txn g')) ∨
      ∃ l, g'.leg = some l ∧ l.role = .fromSip ∧ l.inviteTxn = some txn ∧ l.answered = false ∧
        Pending (codes txn g')) : Owed g' := by
  have htxn : g.inviteTxn = none := by simp [State.inviteTxn, hleg]
  have hfresh (t : Nat) (ht : g'.nextTxn ≤ t) : codes t g' = [] := by
    have := hnew.lt
    rw [hsame t (by omega), ho.fresh t (by omega)]
  have hpast (t : Nat) (ht : t ≠ txn) (hmem : 100 ∈ codes t g') : Settled (codes t g') := by
    rw [hsame t ht] at hmem ⊢
    exact ho.past t hmem (by simp [htxn])
  rcases hcall with ⟨hnone, hset⟩ | ⟨l, hl, hrole, howner, hans, hpend⟩
  · have htxn' : g'.inviteTxn = none := by simp [State.inviteTxn, hnone]
    refine ⟨⟨hfresh, by simp [htxn'], fun t hmem _ ↦ ?_⟩, by simp [hnone], by simp [hnone]⟩
    by_cases ht : t = txn
    · exact ht ▸ hset
    · exact hpast t ht hmem
  · have htxn' : g'.inviteTxn = some txn := (State.inviteTxn_of_leg hl).trans howner
    refine ⟨⟨hfresh, ?_, fun t hmem hne ↦ hpast t (fun h ↦ hne (h ▸ htxn')) hmem⟩, ?_, ?_⟩
    · intro t ht
      obtain rfl := Option.some.inj (htxn'.symm.trans ht)
      exact hnext ▸ hnew.lt
    · intro l' hl' hrole'
      obtain rfl := Option.some.inj (hl.symm.trans hl')
      exact absurd (hrole.symm.trans hrole') (by decide)
    · intro l' hl' _
      obtain rfl := Option.some.inj (hl.symm.trans hl')
      exact ⟨txn, howner, by simpa [hans] using hpend⟩

variable {txn : Nat}

theorem Owed.placeCall (ho : Owed g) (hnew : IsNew g txn) (hc : g.call = none) (req : Request)
    (src : SocketAddr) (number : Str) (sdp : Sdp) (codec : Codec) (recipient sender : NameAddr)
    (callId : Str) :
    Owed ((g.reply cfg env txn req src 100).1.placeCall cfg env txn req src number sdp codec
      recipient sender callId).1 := by
  obtain ⟨resp, hresp, heq⟩ := g.reply_eq cfg env txn req src 100
  have htried (t : Nat) : codes t (g.reply cfg env txn req src 100).1 =
      codes t g ++ if some txn = some t then [100] else [] := by
    rw [heq, codes_respond, hresp]
  have hleg : g.leg = none := by simp [State.leg, hc]
  have hfailed {g₁ : State} (hcall₁ : g₁.call = none) (hnext₁ : g₁.nextTxn = g.nextTxn)
      (hcodes₁ : ∀ t, codes t g₁ = codes t g ++ if some txn = some t then [100] else [])
      {code : Nat} (hcode : 200 ≤ code) : Owed (g₁.reply cfg env txn req src code).1 := by
    obtain ⟨resp', hresp', heq'⟩ := g₁.reply_eq cfg env txn req src code
    rw [heq']
    refine ho.accepted hnew hleg hnext₁ (fun t ht ↦ ?_) (.inl ⟨?_, ?_⟩)
    · simp [codes_respond, hcodes₁, Ne.symm ht]
    · simp [State.leg, State.respond, hcall₁]
    · rw [codes_respond, hcodes₁, hnew.codes]
      simp [Settled, Pending, hresp', hcode]
  unfold State.placeCall
  split
  · exact hfailed (by simp [heq, State.respond, hc]) (by simp [heq, State.respond]) htried
      (by decide)
  · dsimp only
    split
    · refine hfailed (by simp [heq, State.respond, hc]) (by simp [heq, State.respond])
        (fun t ↦ ?_) (by decide)
      simp [codes_emit, htried, Entry.codeOn]
    · have hcodes (t : Nat) : codes t ((((g.reply cfg env txn req src 100).1.emit
          (.dial number)).emit (.cdrStarted number)).takeCseq.2) =
          codes t g ++ if some txn = some t then [100] else [] := by
        refine Eq.trans ?_ (htried t)
        refine (codes_emit ..).trans ?_
        simp [codes_emit, Entry.codeOn]
      refine ho.accepted hnew hleg (by simp [heq, State.respond, State.takeCseq]) (fun t ht ↦ ?_)
        (.inr ⟨_, rfl, rfl, rfl, rfl, ?_⟩)
      · refine (hcodes t).trans ?_
        simp [Ne.symm ht]
      · refine (hcodes txn).symm ▸ ?_
        simp [hnew.codes, Pending]

theorem Owed.onSipInvite (ho : Owed g) (hnew : IsNew g txn) (hsend : ∀ n, env.sendOk n = true)
    (req : Request) (src : SocketAddr) : Owed (g.onSipInvite cfg env txn req src).1 := by
  have hreply {code : Nat} (hcode : 200 ≤ code) : Owed (g.reply cfg env txn req src code).1 :=
    ho.reply hnew <| (g.reply_steady cfg env txn req src code).mono fun _ he ↦
      he.mono (fun _ _ h ↦ ⟨h.1, h.2 ▸ hcode⟩) fun _ ↦ id
  unfold State.onSipInvite
  cases hc : g.call with
  | none =>
      dsimp only
      cases hadm : g.admits req with
      | false =>
          obtain ⟨code, hcode, heq⟩ := g.onNewInvite_refused cfg env txn req src hadm
          rw [heq]
          exact hreply (by omega)
      | true =>
          obtain ⟨number, sdp, codec, recipient, sender, callId, heq⟩ :=
            g.onNewInvite_admitted cfg env txn req src hadm
          rw [heq, if_pos (hsend _)]
          exact ho.placeCall cfg env hnew hc ..
  | some c =>
      dsimp only
      split
      · split
        · rename_i hans
          have hrings (l : Leg) (hl : g.leg = some l) (_ : l.role = .fromSip) :
              l.answered = false := by
            obtain rfl := Option.some.inj ((State.leg_of_call hc).symm.trans hl)
            exact (by simpa using hans : c.answered = false)
          split
          · exact ho.provisional (g.respondWithMedia_steady cfg env 183) (by simp) hrings
          · exact ho.provisional (g.sendProvisional_steady cfg env 180) (by simp) hrings
        · exact ho.reply hnew (g.onSipReinvite_steady cfg env txn req src)
      · exact hreply (by decide)

/-- What a request, an event of the modem or an internal event has to satisfy so that no INVITE is
left without its final response or gets another response after it: a BYE does not end a call that
rings, the modem does not report alerting for the first time after the answer, and no event of an
earlier call that we placed has the Call-ID of a call from SIP. -/
def State.keepsAnswer (g : State) : Event → Bool
  | .request req _ => !(req.method == .bye && g.inDialog req &&
      g.call.any fun c ↦ c.role == .fromSip && !c.answered)
  | .callState path new _ => !((new == stateRingingOut || new == stateDialing) &&
      g.call.any fun c ↦ c.mmPath == some path && c.role == .fromSip && c.answered &&
        !c.ringingSent)
  | .internal =>
    match g.internal with
    | .sipAnswered callId _ :: _ | .sipFailed callId _ :: _ | .ringTimeout callId :: _ =>
      !g.call.any fun c ↦ c.role == .fromSip && c.callId == callId
    | _ => true
  | _ => true

theorem Owed.onSipBye (ho : Owed g) (hnew : IsNew g txn) (req : Request) (src : SocketAddr)
    (hkeep : g.inDialog req = true → ∀ c, g.call = some c → c.role = .fromSip →
      c.answered = true) : Owed (g.onSipBye cfg env txn req src).1 := by
  have hfinal : 200 ≤ if g.inDialog req then 200 else 481 := by split <;> decide
  unfold State.onSipBye
  dsimp only
  revert hfinal
  generalize (if g.inDialog req then 200 else 481) = code
  intro hfinal
  have hresp : Steady (Entry.Answers (some txn) (200 ≤ ·)) g
      (g.respond env (some txn) req (g.response cfg env req code) src).1 := .emit g ⟨rfl, hfinal⟩
  split
  · exact ho.reply hnew hresp
  · split
    · rename_i hin
      have hhang := State.hangupMobile_steady
        (g.respond env (some txn) req (g.response cfg env req code) src).1
      refine ((ho.reply hnew hresp).sends hhang).finishCall (fun l hl hrole ↦ ?_) _
      rw [hhang.leg, hresp.leg] at hl
      obtain ⟨c, hc, rfl⟩ := Option.map_eq_some_iff.mp hl
      exact hkeep hin c hc hrole
    · exact ho.reply hnew hresp

theorem Owed.onSipCancel (ho : Owed g) (hnew : IsNew g txn) (req : Request) (src : SocketAddr) :
    Owed (g.onSipCancel cfg env txn req src).1 := by
  have hresp : Owed (g.respond env (some txn) req (g.response cfg env req 200) src).1 :=
    ho.reply hnew (.emit g ⟨rfl, le_rfl⟩)
  unfold State.onSipCancel
  dsimp only
  split
  · exact hresp
  · split
    · exact hresp
    · rename_i c hc
      split
      · rename_i hcancels
        obtain ⟨⟨⟨hrole, hans⟩, -⟩, -⟩ :
            ((c.role = .fromSip ∧ c.answered = false) ∧ some c.callId = req.headers.callId) ∧
              State.cseqNumber req.headers = State.cseqNumber c.invite.headers := by
          simpa [State.cancels] using hcancels
        exact hresp.respond_finishCall env hc hrole hans (by simp) _ _
          (State.hangupMobile_steady _) _
      · exact hresp

theorem Owed.onSipRequest (ho : Owed g) (hnew : IsNew g txn) (hsend : ∀ n, env.sendOk n = true)
    (req : Request) (src : SocketAddr) (hkeep : g.keepsAnswer (.request req src) = true) :
    Owed (g.onSipRequest cfg env txn req src).1 := by
  unfold State.onSipRequest
  cases hm : req.method with
  | invite => exact ho.onSipInvite cfg env hnew hsend req src
  | ack => exact ho
  | bye =>
      refine ho.onSipBye cfg env hnew req src fun hin c hc hrole ↦ ?_
      simpa [State.keepsAnswer, hm, hin, hc, hrole] using hkeep
  | cancel => exact ho.onSipCancel cfg env hnew req src
  | info => exact ho.reply hnew (g.onSipInfo_steady cfg env txn req src)
  | message => exact ho.reply hnew (g.onSipMessage_steady cfg env txn req src)
  | _ => exact ho.reply hnew (.emit g ⟨rfl, (by decide : 200 ≤ 405)⟩)

/-! ### Events of the modem -/

/-- One of our own calls is put in the empty slot. -/
theorem Owed.place {c : ActiveCall} (ho : Owed g) (hleg : g.leg = none) (hrole : c.role = .toSip)
    (htxn : c.inviteTxn = none) : Owed { g with call := some c } := by
  have hnone : State.inviteTxn { g with call := some c } = none :=
    (State.inviteTxn_of_call rfl).trans htxn
  refine ⟨⟨ho.fresh, by simp [hnone], fun t hmem _ ↦ ?_⟩, ?_, ?_⟩
  · exact ho.past t hmem (by simp [State.inviteTxn, hleg])
  · rintro l hl -
    obtain rfl : c.leg = l := Option.some.inj hl
    exact htxn
  · rintro l hl hr
    obtain rfl : c.leg = l := Option.some.inj hl
    exact absurd (hrole.symm.trans hr) (by decide)

theorem Owed.onMmCallAdded (ho : Owed g) (path : Path) : Owed (g.onMmCallAdded cfg env path) := by
  have hemit (g' : State) (h : Owed g') : Owed (g'.emit (.hangup path)) :=
    h.silent (.emit g' trivial)
  unfold State.onMmCallAdded
  split
  · exact ho
  · split
    · exact ho
    · split
      · exact ho
      · rename_i info _
        split
        · exact ho.silent (.emit g trivial)
        · split
          · exact hemit g ho
          · split
            · exact hemit g ho
            · rename_i hidle
              have hleg : g.leg = none := by simpa [State.leg] using hidle
              rcases g.startSipCall_cases cfg env path info with
                heq | ⟨req, dest, hmethod, hsent⟩
              · simp only [heq]
                exact hemit g ho
              · have hs : Steady (Entry.Sends (· = .invite)) g
                    (g.takeCseq.2.sendRequest env req dest).1 :=
                  (Steady.takeCseq g).trans (State.sendRequest_steady _ _ _ _ hmethod)
                rcases hsent with heq | ⟨txn, c, deadline, -, hplaced, -, -, -, -, -, heq⟩
                · simp only [heq]
                  exact hemit _ (ho.sends hs)
                · simp only [heq]
                  have hstarted := hs.trans (.emit _ (e := .cdrStarted c.peerNumber) trivial)
                  exact (ho.sends hstarted).place (hstarted.leg.trans hleg) hplaced.role
                    hplaced.inviteTxn

/-- The call is marked as answered once its INVITE has its final response. -/
theorem Owed.confirm {g' : State} {t : Nat} (ho : Owed g) {c : ActiveCall} (hc : g.call = some c)
    (hrole : c.role = .fromSip) (ht : c.inviteTxn = some t) (hans : c.answered = false)
    (hnext : g'.nextTxn = g.nextTxn)
    (hleg : g'.leg = some { c.leg with answered := true })
    (hcodes : ∀ t', codes t' g' = codes t' g ++ if t' = t then [200] else []) : Owed g' := by
  have htxn : g.inviteTxn = some t := (State.inviteTxn_of_call hc).trans ht
  have htxn' : g'.inviteTxn = some t := (State.inviteTxn_of_leg hleg).trans ht
  obtain ⟨t', ht', hpend⟩ := ho.fromSip c.leg (State.leg_of_call hc) hrole
  obtain rfl : t = t' := Option.some.inj (ht.symm.trans ht')
  replace hpend : Pending (codes t g) := by
    simpa [show c.leg.answered = false from hans] using hpend
  refine ⟨⟨fun t' ht' ↦ ?_, ?_, fun t' hmem hne ↦ ?_⟩, ?_, ?_⟩
  · have := ho.owner t htxn
    rw [hnext] at ht'
    rw [hcodes, if_neg (by omega), List.append_nil, ho.fresh t' ht']
  · rw [htxn', hnext, ← htxn]
    exact ho.owner
  · have hne' : t' ≠ t := fun h ↦ hne (h ▸ htxn')
    rw [hcodes, if_neg hne', List.append_nil] at hmem ⊢
    exact ho.past t' hmem (fun h ↦ hne' (Option.some.inj (h.symm.trans htxn)))
  · intro l hl hr
    obtain rfl := Option.some.inj (hleg.symm.trans hl)
    exact absurd (hrole.symm.trans hr) (by decide)
  · intro l hl _
    obtain rfl := Option.some.inj (hleg.symm.trans hl)
    refine ⟨t, ht, ?_⟩
    rw [if_pos rfl, hcodes, if_pos rfl]
    exact .concat hpend (by decide)

/-- A call of ours may be marked as answered at any time. -/
theorem Owed.answered_toSip (ho : Owed g) (hrole : ∀ l, g.leg = some l → l.role = .toSip) :
    Owed (g.updateCall fun c ↦ { c with answered := true }) := by
  have hleg' : (g.updateCall fun c ↦ { c with answered := true }).leg =
      g.leg.map fun l ↦ { l with answered := true } := by
    simp only [State.leg, State.updateCall, Option.map_map]
    rfl
  have htxn : (g.updateCall fun c ↦ { c with answered := true }).inviteTxn = g.inviteTxn := by
    simp only [State.inviteTxn, hleg', Option.bind_map]
    rfl
  refine ⟨⟨ho.fresh, by rw [htxn]; exact ho.owner, by rw [htxn]; exact ho.past⟩, ?_, ?_⟩
  · intro l hl _
    obtain ⟨l', hl', rfl⟩ := Option.map_eq_some_iff.mp (hleg'.symm.trans hl)
    exact ho.toSip l' hl' (hrole l' hl')
  · intro l hl hr
    obtain ⟨l', hl', rfl⟩ := Option.map_eq_some_iff.mp (hleg'.symm.trans hl)
    exact absurd ((hrole l' hl').symm.trans hr) (by decide)

theorem Owed.onModemAnswered (ho : Owed g) (hsend : ∀ n, env.sendOk n = true) {c : ActiveCall}
    (hc : g.call = some c) (hans : c.answered = false) : Owed (g.onModemAnswered cfg env) := by
  have hcdr (g' : State) (h : Owed g') :=
    State.cdrAnswered_of (P := Owed) h (fun _ ↦ h.silent (.emit g' trivial)) c.cdrId
  unfold State.onModemAnswered
  rw [hc]
  dsimp only
  cases hrole : c.role with
  | toSip =>
      refine hcdr _ (ho.answered_toSip fun l hl ↦ ?_)
      obtain rfl := Option.some.inj ((State.leg_of_call hc).symm.trans hl)
      exact hrole
  | fromSip =>
      dsimp only
      obtain ⟨g', hs, heq | ⟨c', resp, hc', hcode, heq⟩⟩ := g.respondWithMedia_cases cfg env 200
      · rw [heq, hc]
        exact (ho.sends hs).teardownCall cfg env _ _
      · obtain rfl := Option.some.inj (hc.symm.trans hc')
        rw [heq]
        obtain ⟨t, ht, -⟩ := ho.fromSip c.leg (State.leg_of_call hc) hrole
        replace ht : c.inviteTxn = some t := ht
        have hok : (g'.respond env c.inviteTxn c.invite resp c.inviteDest).2 = true := hsend _
        simp only [hok, Bool.not_true, Bool.false_eq_true, if_false]
        refine hcdr _ (ho.confirm hc hrole ht hans hs.nextTxn ?_ fun t' ↦ ?_)
        · obtain ⟨c', hc', hleg⟩ := hs.call_some hc
          have : ({ c' with answered := true } : ActiveCall).leg =
              { c'.leg with answered := true } := rfl
          rw [← hleg, ← this]
          exact State.leg_of_call (by simp [State.respond, hc'])
        · obtain ⟨new, hcodes, hnone⟩ := hs.codes t'
          have hresp : codes t' (g'.respond env c.inviteTxn c.invite resp c.inviteDest).1 =
              codes t' g ++ if t' = t then [200] else [] := by
            rw [codes_respond, hcodes, List.eq_nil_iff_forall_not_mem.mpr hnone, List.append_nil,
              hcode, ht]
            simp [eq_comm]
          exact hresp

theorem Owed.onMmCallState (ho : Owed g) (hsend : ∀ n, env.sendOk n = true) (path : Path)
    (new : Int) (reason : Nat) (hkeep : g.keepsAnswer (.callState path new reason) = true) :
    Owed (g.onMmCallState cfg env path new reason) := by
  unfold State.onMmCallState
  split
  · exact ho
  · rename_i c hfilter
    obtain ⟨hc, hpath⟩ : g.call = some c ∧ c.mmPath = some path := by
      simpa using Option.filter_eq_some_iff.mp hfilter
    split
    · rename_i hnew
      split
      · rename_i hring
        have hrings (g' : State) (h : g'.leg = g.leg) (l : Leg) (hl : g'.leg = some l)
            (_ : l.role = .fromSip) : l.answered = false := by
          obtain rfl := Option.some.inj ((State.leg_of_call hc).symm.trans (h.symm.trans hl))
          have hstate : new == stateRingingOut || new == stateDialing := by simpa using hnew
          rcases hring with ⟨hrole, hsent⟩
          have : c.answered = false := by
            simpa [State.keepsAnswer, hstate, hc, hpath, hrole, hsent] using hkeep
          exact this
        have hring := ho.provisional (g.sendProvisional_steady cfg env 180) (by simp)
          (hrings g rfl)
        split
        · have hearly := g.startEarlyMedia_steady cfg env
          have ho' := ho.provisional hearly (by simp) (hrings g rfl)
          dsimp only
          split
          · exact ho'
          · exact ho'.provisional (State.sendProvisional_steady cfg env _ 180) (by simp)
              (hrings _ hearly.leg)
        · exact hring
      · exact ho
    · split
      · split
        · exact ho
        · rename_i hans
          exact ho.onModemAnswered cfg env hsend hc (by simpa using hans)
      · split
        · exact ho.teardownCall cfg env _ _
        · exact ho

/-! ### Internal events -/

theorem Owed.onSipAnswered (ho : Owed g) (hrole : ∀ l, g.leg = some l → l.role = .toSip)
    (resp : Response) : Owed (g.onSipAnswered cfg env resp) := by
  cases hc : g.call with
  | none => simpa [State.onSipAnswered, hc] using ho
  | some c =>
      have hack := g.acked_steady cfg env hc resp
      rcases g.onSipAnswered_cases cfg env hc resp with heq | ⟨g', hs, heq⟩
      · rw [heq]
        exact ho.sends hack
      · have ho' := ((ho.sends hack).answered_toSip (hack.leg ▸ hrole)).sends hs
        rcases heq with heq | ⟨reason, code, heq⟩ <;> rw [heq]
        · exact ho'
        · exact ho'.teardownCall cfg env reason code

theorem Owed.onSipFailed (ho : Owed g) (hrole : ∀ l, g.leg = some l → l.role = .toSip)
    (resp : Response) : Owed (g.onSipFailed md5Hex cfg env resp) := by
  have hack := g.ackFailure_steady env resp
  have hfinish (g' : State) (ho' : Owed g') (hleg : g'.leg = g.leg) :
      Owed (g'.hangupMobile.finishCall "sip rejected") := by
    have hhang := g'.hangupMobile_steady
    refine (ho'.silent hhang).finishCall (fun l hl hr ↦ ?_) _
    rw [hhang.leg, hleg] at hl
    exact absurd ((hrole l hl).symm.trans hr) (by decide)
  have ho' := ho.sends hack
  unfold State.onSipFailed
  dsimp only
  split
  · rcases (g.ackFailure env resp).retryInviteWithAuth_cases md5Hex cfg env resp with
      ⟨g', hs, heq⟩ | ⟨c, req, txn, deadline, -, -, -, -, -, -, -, heq⟩
    · rw [heq]
      exact hfinish g' (ho'.sends hs) (hs.leg.trans hack.leg)
    · rw [heq]
      have hsent := (Steady.takeCseq (g.ackFailure env resp)).trans
        (State.sendRequest_steady (P := Entry.Sends fun _ ↦ True) env _ req c.remoteAddr trivial)
      exact (ho'.sends hsent).updateCall fun _ ↦ rfl
  · exact hfinish _ ho' hack.leg

theorem Owed.upgradeToEarlyMedia (ho : Owed g) : Owed (g.upgradeToEarlyMedia cfg env).1 := by
  cases hc : g.call with
  | none => simpa [State.upgradeToEarlyMedia, hc] using ho
  | some c =>
      cases hans : c.answered with
      | true => simpa [State.upgradeToEarlyMedia, hc, hans] using ho
      | false =>
          refine ho.provisional (g.upgradeToEarlyMedia_steady cfg env) (by simp) fun l hl _ ↦ ?_
          obtain rfl := Option.some.inj ((State.leg_of_call hc).symm.trans hl)
          exact hans

theorem Owed.onInternal (ho : Owed g) {ev : Internal} (rest : List Internal)
    (hkeep : ({ g with internal := ev :: rest } : State).keepsAnswer .internal = true) :
    Owed (g.onInternal md5Hex cfg env ev) := by
  have htoSip {callId : Str} (hmatch : g.callIdMatches callId = true)
      (hguard : (g.call.any fun c ↦ c.role == .fromSip && c.callId == callId) = false)
      (l : Leg) (hl : g.leg = some l) : l.role = .toSip := by
    obtain ⟨c, hc, rfl⟩ := Option.map_eq_some_iff.mp hl
    have hid : c.callId = callId := by simpa [State.callIdMatches, hc] using hmatch
    cases hrole : c.role with
    | toSip => exact hrole
    | fromSip => simp [hc, hrole, hid] at hguard
  cases ev with
  | sipProgress callId code => exact ho
  | sipAnswered callId resp =>
      dsimp only [State.onInternal]
      split
      · rename_i hmatch
        exact ho.onSipAnswered cfg env (htoSip hmatch (by simpa [State.keepsAnswer] using hkeep)) resp
      · exact ho
  | sipFailed callId resp =>
      dsimp only [State.onInternal]
      split
      · rename_i hmatch
        exact ho.onSipFailed md5Hex cfg env
          (htoSip hmatch (by simpa [State.keepsAnswer] using hkeep)) resp
      · exact ho
  | ringTimeout callId =>
      dsimp only [State.onInternal]
      split
      · rename_i hmatch
        have hs := (g.cancelOutgoingInvite_steady env).trans (State.hangupMobile_steady _).allowed
        refine (ho.sends hs).finishCall (fun l hl hr ↦ ?_) _
        have := htoSip hmatch (by simpa [State.keepsAnswer] using hkeep) l (hs.leg ▸ hl)
        exact absurd (this.symm.trans hr) (by decide)
      · exact ho
  | earlyMediaAudio callId level =>
      dsimp only [State.onInternal]
      split
      · exact ho.upgradeToEarlyMedia cfg env
      · exact ho
  | dtmf callId digit =>
      dsimp only [State.onInternal]
      split
      · exact ho.silent (g.deliverDtmf_steady cfg env _)
      · exact ho
  | dtmfFromModem callId digit =>
      dsimp only [State.onInternal]
      split
      · exact ho.sends (g.sendDtmfInfo_steady cfg env _)
      · exact ho
  | smsRetry path attempt => exact ho.silent (.emit g trivial)

/-! ### The tasks beside the loop -/

theorem Owed.beside (ho : Owed g) (h : Beside g g') : Owed g' := by
  refine ho.congr ?_ h.nextTxn.ge fun t ↦ ?_
  · rw [State.leg, State.leg, Option.map_map, Option.map_map]
    exact h.map_call fun _ ↦ rfl
  · obtain ⟨new, hlog, hnew⟩ := h.log
    rw [codes_eq_of_log hlog, List.filterMap_eq_nil_iff.mpr, List.append_nil]
    rintro ⟨time, e⟩ he
    obtain ⟨-, resp, rfl⟩ := hnew _ he
    rfl

theorem Owed.onRtp (ho : Owed g) (src : SocketAddr) : Owed (g.onRtp cfg src) := by
  unfold State.onRtp
  split
  · exact ho
  · rename_i c hc
    split
    · exact ho
    · rename_i m _
      split
      · refine ho.congr ?_ le_rfl fun t ↦ ?_
        · simp [State.leg, hc, ActiveCall.leg]
        · refine (codes_emit ..).trans ?_
          simp [Entry.codeOn, codes]
      · exact ho

end Handlers

/-! ## Runs -/

/-- What the event loop does in one event keeps the invariant. -/
theorem Owed.step {g : State} (ho : Owed g) (e : Event × Env) (hsend : ∀ n, e.2.sendOk n = true)
    (hkeep : g.keepsAnswer e.1 = true) : Owed (g.step md5Hex cfg e) := by
  obtain ⟨e, env⟩ := e
  unfold State.step
  dsimp only
  split
  · exact ho
  · cases e with
    | request req src =>
        have ho' : Owed { g with nextTxn := g.nextTxn + 1 } :=
          ho.congr rfl (Nat.le_succ _) fun _ ↦ rfl
        refine ho'.onSipRequest cfg env ⟨Nat.lt_succ_self _, fun h ↦ ?_, ho.fresh _ le_rfl⟩ hsend
          req src hkeep
        exact absurd (ho.owner g.nextTxn h) (lt_irrefl _)
    | modemUp modem => exact ho.congr rfl le_rfl fun _ ↦ rfl
    | modemDown =>
        have ho' : Owed { g with modem := none } := ho.congr rfl le_rfl fun _ ↦ rfl
        exact ho'.teardownCall cfg env _ _
    | callAdded path => exact ho.onMmCallAdded cfg env path
    | callDeleted path =>
        dsimp only
        split
        · exact ho.teardownCall cfg env _ _
        · exact ho
    | callState path new reason => exact ho.onMmCallState cfg env hsend path new reason hkeep
    | modemDtmf path digit =>
        dsimp only
        split
        · exact ho.sends (g.sendDtmfInfo_steady cfg env digit)
        · exact ho
    | smsAdded path received => exact ho.silent (.emit g trivial)
    | internal =>
        dsimp only
        split
        · exact ho
        · rename_i ev rest hq
          have ho' : Owed { g with internal := rest } := ho.congr rfl le_rfl fun _ ↦ rfl
          refine ho'.onInternal md5Hex cfg env rest ?_
          rw [← hq]
          exact hkeep
    | tick =>
        dsimp only
        unfold State.checkMedia
        split
        · exact ho
        · split
          · exact ho
          · split
            · exact ho.teardownCall cfg env _ _
            · split
              · exact ho.teardownCall cfg env _ _
              · exact ho
    | shutdown => exact (ho.teardownCall cfg env _ _).congr rfl le_rfl fun _ ↦ rfl
    | response resp => exact ho.beside (.onResponse g resp)
    | rtp src => exact ho.onRtp cfg src
    | inviteTask i => exact ho.beside (.inviteTask g i)
    | inviteTimeout i => exact ho.beside (.inviteTimeout g i)
    | audioHeard level => exact ho.beside (.audioHeard g level)
    | rtpDigit digit => exact ho.beside (.relayDigit g _ _)
    | inbandDigit digit => exact ho.beside (.relayDigit g _ _)
    | transact req dest =>
        dsimp only
        split
        · exact ho
        · exact ho.sends (g.sendInBackground_steady (P := Entry.Sends fun _ ↦ True) env req dest
            trivial)
    | backgroundDone i =>
        dsimp only
        split
        · exact ho
        · exact ho.congr rfl le_rfl fun _ ↦ rfl
    | advance ms => exact ho.congr rfl le_rfl fun _ ↦ rfl

/-- In every run whose datagrams go out and whose events keep the answer, an INVITE that got its 100
has been sent provisionals only while its call is in the slot, and otherwise exactly one final
response, which came last. -/
theorem one_final_response (now : Nat) (es : List (Event × Env))
    (hsend : ∀ e ∈ es, ∀ n, e.2.sendOk n = true)
    (hkeep : Run.Guarded (State.step md5Hex cfg) (fun g e ↦ g.keepsAnswer e.1 = true)
      (State.init now) es) :
    let g := (State.init now).run md5Hex cfg es
    ∀ t, 100 ∈ codes t g →
      (g.inviteTxn = some t ∧ Pending (codes t g)) ∨ Settled (codes t g) := by
  have ho : Owed ((State.init now).run md5Hex cfg es) :=
    (hkeep.and hsend).invariant (fun g e ho h ↦ ho.step md5Hex cfg e h.1 h.2) (owed_init now)
  intro g t hmem
  by_cases ht : g.inviteTxn = some t
  · obtain ⟨l, hl, htxn⟩ := Option.bind_eq_some_iff.mp ht
    cases hrole : l.role with
    | toSip => simp [ho.toSip l hl hrole] at htxn
    | fromSip =>
        obtain ⟨t', ht', hcodes⟩ := ho.fromSip l hl hrole
        obtain rfl : t = t' := Option.some.inj (htxn.symm.trans ht')
        cases hans : l.answered with
        | false => exact .inl ⟨ht, by simpa [hans] using hcodes⟩
        | true => exact .inr (by simpa [hans] using hcodes)
  · exact .inr (ho.past t hmem ht)

/-- The caller hangs up with a BYE in the early dialog: the BYE is answered, the call is gone, and
the INVITE has got nothing but provisionals. -/
theorem bye_while_ringing_leaves_invite_open :
    let g := (State.init 1700000000000).run (fun _ ↦ []) (Sample.config false)
      [ (.modemUp { ownNumber := none }, Sample.env),
        (.request (Sample.request .invite 1 [] Sample.offer) Sample.peer, Sample.env),
        (.callState "/call/1" stateRingingOut 0, Sample.env),
        (.request (Sample.request .bye 2 ";tag=r0" "") Sample.peer, Sample.env) ]
    100 ∈ codes 0 g ∧ g.inviteTxn ≠ some 0 ∧ ¬ Settled (codes 0 g) := by
  decide +kernel

/-- A call that rings, is answered, and is ended by the caller. -/
theorem one_final_response_answered :
    let g := (State.init 1700000000000).run (fun _ ↦ []) (Sample.config false)
      [ (.modemUp { ownNumber := none }, Sample.env),
        (.request (Sample.request .invite 1 [] Sample.offer) Sample.peer, Sample.env),
        (.callState "/call/1" stateRingingOut 0, Sample.env),
        (.callState "/call/1" stateActive 0, Sample.env),
        (.request (Sample.request .bye 2 ";tag=r0" "") Sample.peer, Sample.env) ]
    100 ∈ codes 0 g ∧ ((g.inviteTxn = some 0 ∧ Pending (codes 0 g)) ∨ Settled (codes 0 g)) := by
  have hmem : 100 ∈ codes 0 ((State.init 1700000000000).run (fun _ ↦ []) (Sample.config false)
      [ (.modemUp { ownNumber := none }, Sample.env),
        (.request (Sample.request .invite 1 [] Sample.offer) Sample.peer, Sample.env),
        (.callState "/call/1" stateRingingOut 0, Sample.env),
        (.callState "/call/1" stateActive 0, Sample.env),
        (.request (Sample.request .bye 2 ";tag=r0" "") Sample.peer, Sample.env) ]) := by
    decide +kernel
  refine ⟨hmem, one_final_response _ _ _ _ ?_ (by decide +kernel) 0 hmem⟩
  simp [Sample.env]

end Modem2Sip.Gateway
