import Modem2Sip.Gateway.Acknowledge
import Modem2Sip.Gateway.Turn

/-!
# An answered call has a confirmed dialog

`answered` decides whether a call is ended with a BYE or given up with a CANCEL or
a failure, so it has to say that the dialog is confirmed: the 200 went out to the
caller, or the 2xx of the peer came in and was acknowledged.  Two legs of a call
set it.  `answersInOrder` says when an event leaves it to the right one, and
`Tame` is what all the other handlers do to a call: they end it, or leave it
no more answered than it was.
-/

namespace Modem2Sip.Gateway

open Text Net Sip

variable (md5Hex : List UInt8 → Str) (cfg : Config) (env : Env)

/-! ## Confirmed dialogs -/

/-- The dialog of the call is confirmed: the INVITE of the caller was answered 200, or the 2xx to
ours arrived and its ACK was sent. -/
def Leg.Confirmed (log : List (Nat × Entry)) (l : Leg) : Prop :=
  match l.role with
  | .fromSip => ∃ t resp dest, (t, .respond l.inviteTxn l.invite resp dest) ∈ log ∧ resp.code = 200
  | .toSip =>
    (∃ t resp, (t, .heard resp) ∈ log ∧ resp.isSuccess = true ∧ finalTo l.invite resp = true) ∧
      ∃ t ack dest, (t, .send ack dest) ∈ log ∧ ack.method = .ack ∧
        ack.headers.get "call-id" = some l.callId ∧
        ack.headers.get "cseq" = some (dec l.localCseq ++ " ACK")

/-- A response that arrived. -/
def Heard (log : List (Nat × Entry)) (resp : Response) : Prop := ∃ t, (t, .heard resp) ∈ log

namespace State

/-- What an event has to satisfy so that only an answer makes a call answered: the modem does not
report a call connected that the SIP side has not answered, and the 2xx that the event loop takes
up for a call is one to its INVITE. -/
def answersInOrder (g : State) (e : Event × Env) : Bool :=
  g.stopped ||
    match e.1 with
    | .callState path new _ =>
      !(new == stateActive && g.mmPath == some path &&
        g.call.any fun c ↦ c.role == .toSip && !c.answered)
    | .internal =>
      match g.internal with
      | .sipAnswered callId resp :: _ =>
        g.call.all fun c ↦ c.callId != callId || c.answered || !e.2.sendOk g.log.length ||
          (c.role == .toSip && finalTo c.invite resp)
      | _ => true
    | _ => true

/-- Does this event give the call up, because nobody answers or because its mobile side is gone? -/
def abandons (g : State) (e : Event) : Bool :=
  !g.stopped &&
    match e with
    | .modemDown | .shutdown => true
    | .callDeleted path => g.mmPath == some path
    | .callState path new _ => g.mmPath == some path && new == stateTerminated
    | .internal =>
      match g.internal with
      | .ringTimeout callId :: _ => g.callIdMatches callId
      | _ => false
    | _ => false

end State

/-! ## Tame handlers -/

/-- The call is as it was but for its tasks, and not answered anew, or it is gone; and nothing
gets into the channels and the queue that reports an answer. -/
structure Tame (g g' : State) : Prop where
  log : g.log <+: g'.log
  nextChan : g.nextChan ≤ g'.nextChan
  leg : ∀ l', g'.leg = some l' → ∃ l, g.leg = some l ∧ l'.Narrows l ∧
    l'.inviteTxn = l.inviteTxn ∧ (l'.answered = true → l.answered = true)
  chans : ∀ k < g.nextChan, ∀ q', g'.chans.get? k = some q' → ∃ q, g.chans.get? k = some q ∧ q' ⊆ q
  internal : ∀ id r, .sipAnswered id r ∈ g'.internal → .sipAnswered id r ∈ g.internal

namespace Tame

variable {g g₁ g₂ g₃ g' : State}

theorem trans (h₁ : Tame g₁ g₂) (h₂ : Tame g₂ g₃) : Tame g₁ g₃ where
  log := h₁.log.trans h₂.log
  nextChan := h₁.nextChan.trans h₂.nextChan
  leg l₃ hl₃ := by
    obtain ⟨l₂, hl₂, hn₂, htxn₂, hans₂⟩ := h₂.leg l₃ hl₃
    obtain ⟨l₁, hl₁, hn₁, htxn₁, hans₁⟩ := h₁.leg l₂ hl₂
    refine ⟨l₁, hl₁, ⟨hn₂.role.trans hn₁.role, hn₂.callId.trans hn₁.callId,
      hn₂.invite.trans hn₁.invite, hn₂.localCseq.trans hn₁.localCseq,
      fun _ h ↦ hn₁.waiting (hn₂.waiting h)⟩, htxn₂.trans htxn₁, fun h ↦ hans₁ (hans₂ h)⟩
  chans k hk q₃ hq₃ := by
    obtain ⟨q₂, hq₂, hsub₂⟩ := h₂.chans k (hk.trans_le h₁.nextChan) q₃ hq₃
    obtain ⟨q₁, hq₁, hsub₁⟩ := h₁.chans k hk q₂ hq₂
    exact ⟨q₁, hq₁, fun _ h ↦ hsub₁ (hsub₂ h)⟩
  internal id r h := h₁.internal id r (h₂.internal id r h)

/-- A change that the call has no part in. -/
theorem congr (hlog : g.log <+: g'.log) (hnext : g'.nextChan = g.nextChan) (hleg : g'.leg = g.leg)
    (hchans : g'.chans = g.chans)
    (hinternal : ∀ id r, .sipAnswered id r ∈ g'.internal → .sipAnswered id r ∈ g.internal) :
    Tame g g' where
  log := hlog
  nextChan := hnext.ge
  leg l' hl' := ⟨l', hleg ▸ hl', .refl l', rfl, id⟩
  chans _ _ q' hq' := ⟨q', hchans ▸ hq', fun _ ↦ id⟩
  internal := hinternal

theorem refl (g : State) : Tame g g := congr (List.prefix_refl _) rfl rfl rfl fun _ _ ↦ id

theorem of_steady {P : Entry → Prop} (h : Steady P g g') : Tame g g' where
  log := by
    obtain ⟨new, hlog, -⟩ := h.log
    exact ⟨new, hlog.symm⟩
  nextChan := h.nextChan
  leg l' hl' := ⟨l', h.leg ▸ hl', .refl l', rfl, id⟩
  chans k hk q' hq' := ⟨q', h.chans k hk ▸ hq', fun _ ↦ id⟩
  internal _ _ hmem := h.internal ▸ hmem

/-- The tasks that end take their channels with them. -/
theorem dropTasks_get? (g : State) (ts : List Task) {k : Nat} {q : List Response}
    (hq : (g.dropTasks ts).chans.get? k = some q) : g.chans.get? k = some q := by
  induction ts generalizing g with
  | nil => exact hq
  | cons t ts ih =>
      cases t with
      | inviteResponse txn deadline =>
          have hq' := ih (g.dropTxn txn) hq
          rw [State.dropTxn, Map.get?_erase] at hq'
          split at hq'
          · cases hq'
          · exact hq'
      | _ => exact ih g hq

theorem finishCall (g : State) (disposition : Str) : Tame g (g.finishCall disposition) := by
  cases hc : g.call with
  | none => simpa [State.finishCall, hc] using refl g
  | some c =>
      have hleg : (g.finishCall disposition).leg = none := by simp [State.leg]
      refine ⟨⟨_, (g.finishCall_log hc disposition).symm⟩, ?_, by simp [hleg], ?_, ?_⟩
      · unfold State.finishCall
        rw [hc]
        dsimp only [State.emit]
        rw [State.dropTasks_eq]
      · intro k _ q' hq'
        have hq : (({ g with call := none } : State).dropTasks c.tasks).chans.get? k = some q' := by
          simpa [State.finishCall, hc, State.emit] using hq'
        exact ⟨q', dropTasks_get? { g with call := none } c.tasks hq, fun _ ↦ id⟩
      · intro id r hmem
        unfold State.finishCall at hmem
        rw [hc] at hmem
        dsimp only [State.emit] at hmem
        rwa [State.dropTasks_eq] at hmem

theorem endTask (g : State) (i : Nat) : Tame g (g.endTask i) := by
  obtain ⟨hlog, hinternal, -, hnext, -, -⟩ := g.endTask_spec i
  refine ⟨hlog ▸ List.prefix_refl _, hnext.ge, ?_, ?_, fun _ _ h ↦ hinternal ▸ h⟩
  · intro l' hl'
    cases hc : g.call with
    | none =>
        have hsame : g.endTask i = g := by simp [State.endTask, hc]
        exact ⟨l', hsame ▸ hl', .refl l', rfl, id⟩
    | some c =>
        cases htask : c.tasks[i]? with
        | none =>
            have hsame : g.endTask i = g := by simp [State.endTask, hc, htask]
            exact ⟨l', hsame ▸ hl', .refl l', rfl, id⟩
        | some task =>
            have hcall := State.endTask_call (g := g) (i := i) hc (by simpa [hc] using htask)
            rw [State.leg_of_call hcall] at hl'
            obtain rfl := Option.some.inj hl'
            refine ⟨c.leg, State.leg_of_call hc, ⟨rfl, rfl, rfl, rfl, fun txn htxn ↦ ?_⟩, rfl, id⟩
            obtain ⟨task', hmem, heq⟩ := List.mem_filterMap.mp htxn
            exact List.mem_filterMap.mpr ⟨task', List.mem_of_mem_eraseIdx hmem, heq⟩
  · intro k _ q' hq'
    unfold State.endTask at hq'
    split at hq'
    · exact ⟨q', hq', fun _ ↦ id⟩
    · dsimp only at hq'
      split at hq'
      · simp only [State.dropTxn, State.updateCall, Map.get?_erase] at hq'
        split at hq'
        · cases hq'
        · exact ⟨q', hq', fun _ ↦ id⟩
      · exact ⟨q', hq', fun _ ↦ id⟩

theorem enqueue (g : State) {ev : Internal} (hev : ∀ id r, ev ≠ .sipAnswered id r) :
    Tame g (g.enqueue ev) := by
  refine congr (List.prefix_refl _) rfl rfl rfl fun id r hmem ↦ ?_
  rcases List.mem_append.mp hmem with h | h
  · exact h
  · exact absurd (List.mem_singleton.mp h).symm (hev id r)

/-! ### The handlers -/

/-- A handler that does not change the call. -/
theorem of_turn (h : Turn False g g') : Tame g g' := by
  refine h.lift refl trans fun hmove ↦ ?_
  cases hmove with
  | rest hs => exact of_steady hs
  | finish _ disposition => exact (of_steady (State.hangupMobile_steady _)).trans (finishCall _ disposition)
  | update _ hchanges => exact hchanges.elim

theorem audioHeard (g : State) (level : Nat) : Tame g (g.audioHeard level) := by
  unfold State.audioHeard
  split
  · exact refl g
  · split
    · split
      · exact refl g
      · exact (endTask g _).trans (enqueue _ nofun)
    · exact refl g

theorem relayDigit (g : State) (task : Task) {ev : Str → Internal}
    (hev : ∀ callId id r, ev callId ≠ .sipAnswered id r) : Tame g (g.relayDigit task ev) := by
  unfold State.relayDigit
  split
  · exact refl g
  · split
    · exact enqueue g (hev _)
    · exact refl g

theorem inviteTimeout (g : State) (i : Nat) : Tame g (g.inviteTimeout i) := by
  unfold State.inviteTimeout
  split
  · split
    · exact refl g
    · exact (endTask g i).trans (enqueue _ nofun)
  · exact refl g

theorem onRtp (g : State) (src : SocketAddr) : Tame g (g.onRtp cfg src) := by
  rcases g.onRtp_cases cfg src with heq | ⟨c, m, hc, -, heq⟩
  · rw [heq]
    exact refl g
  · rw [heq]
    have hmedia : Tame g { g with call := some { c with
        media := some (m.receive cfg.symmetric g.now src) } } :=
      congr (List.prefix_refl _) rfl (by simp [State.leg, hc, ActiveCall.leg]) rfl fun _ _ ↦ id
    exact hmedia.trans (of_steady (P := fun _ ↦ True) (.emit _ trivial))

end Tame

/-! ## The invariant -/

/-- An answered call has a confirmed dialog, and the responses on their way to a call arrived
from the network. -/
structure Honest (g : State) : Prop where
  answered : ∀ l, g.leg = some l → l.answered = true → l.Confirmed g.log
  waiting : ∀ l, g.leg = some l → ∀ txn ∈ l.waiting, txn.chan < g.nextChan ∧
    ∀ q, g.chans.get? txn.chan = some q → ∀ r ∈ q, Heard g.log r
  internal : ∀ id r, .sipAnswered id r ∈ g.internal → r.isSuccess = true ∧ Heard g.log r

theorem honest_init (now : Nat) : Honest (State.init now) where
  answered := by simp [State.leg, State.init]
  waiting := by simp [State.leg, State.init]
  internal := by simp [State.init]

/-- What is confirmed stays confirmed. -/
theorem Leg.Confirmed.mono {log log' : List (Nat × Entry)} {l l' : Leg} (h : l.Confirmed log)
    (hlog : log <+: log') (hn : l'.Narrows l) (htxn : l'.inviteTxn = l.inviteTxn) :
    l'.Confirmed log' := by
  unfold Leg.Confirmed at h ⊢
  rw [hn.role, hn.invite, hn.callId, hn.localCseq, htxn]
  cases hrole : l.role with
  | fromSip =>
      rw [hrole] at h
      obtain ⟨t, resp, dest, hmem, hcode⟩ := h
      exact ⟨t, resp, dest, hlog.subset hmem, hcode⟩
  | toSip =>
      rw [hrole] at h
      obtain ⟨⟨t, resp, hmem, hresp⟩, t', ack, dest, hmem', hack⟩ := h
      exact ⟨⟨t, resp, hlog.subset hmem, hresp⟩, t', ack, dest, hlog.subset hmem', hack⟩

theorem Heard.mono {log log' : List (Nat × Entry)} {r : Response} (h : Heard log r)
    (hlog : log <+: log') : Heard log' r := by
  obtain ⟨t, ht⟩ := h
  exact ⟨t, hlog.subset ht⟩

section Invariant

variable {g g' : State}

theorem Honest.of_tame (h : Honest g) (ht : Tame g g') : Honest g' where
  answered l' hl' hans := by
    obtain ⟨l, hl, hn, htxn, hans'⟩ := ht.leg l' hl'
    exact (h.answered l hl (hans' hans)).mono ht.log hn htxn
  waiting l' hl' txn htxn := by
    obtain ⟨l, hl, hn, -⟩ := ht.leg l' hl'
    obtain ⟨hlt, hheard⟩ := h.waiting l hl txn (hn.waiting htxn)
    refine ⟨hlt.trans_le ht.nextChan, fun q' hq' r hr ↦ ?_⟩
    obtain ⟨q, hq, hsub⟩ := ht.chans txn.chan hlt q' hq'
    exact (hheard q hq r (hsub hr)).mono ht.log
  internal id r hmem := by
    obtain ⟨hsuccess, hheard⟩ := h.internal id r (ht.internal id r hmem)
    exact ⟨hsuccess, hheard.mono ht.log⟩

theorem Honest.steady {P : Entry → Prop} (h : Honest g) (hs : Steady P g g') : Honest g' :=
  h.of_tame (.of_steady hs)

theorem Honest.turn (h : Honest g) (ht : Turn False g g') : Honest g' := h.of_tame (.of_turn ht)

/-- The call becomes answered once its dialog is confirmed. -/
theorem Honest.answer (h : Honest g) (hconf : ∀ l, g.leg = some l → l.Confirmed g.log) :
    Honest (g.updateCall fun c ↦ { c with answered := true }) := by
  have hleg (l' : Leg) (hl' : (g.updateCall fun c ↦ { c with answered := true }).leg = some l') :
      ∃ l, g.leg = some l ∧ l'.Narrows l ∧ l'.inviteTxn = l.inviteTxn := by
    simp only [State.leg, State.updateCall, Option.map_map, Option.map_eq_some_iff] at hl'
    obtain ⟨c, hc, rfl⟩ := hl'
    exact ⟨c.leg, State.leg_of_call hc, ⟨rfl, rfl, rfl, rfl, fun _ ↦ id⟩, rfl⟩
  refine ⟨fun l' hl' _ ↦ ?_, fun l' hl' txn htxn ↦ ?_, h.internal⟩
  · obtain ⟨l, hl, hn, heq⟩ := hleg l' hl'
    exact (hconf l hl).mono (List.prefix_refl _) hn heq
  · obtain ⟨l, hl, hn, -⟩ := hleg l' hl'
    exact h.waiting l hl txn (hn.waiting htxn)

/-- A call that is not answered may take the slot; the channel of an INVITE just sent is empty. -/
theorem Honest.place (h : Honest g) {req : Request} {dest : SocketAddr} {txn : ClientTxn}
    (hsent : (g.takeCseq.2.sendRequest env req dest).2 = some txn) {c : ActiveCall}
    (hans : c.answered = false)
    (hwait : ∀ t ∈ c.leg.waiting, t = txn ∨ ∃ l, g.leg = some l ∧ t ∈ l.waiting) :
    Honest { (g.takeCseq.2.sendRequest env req dest).1 with call := some c } := by
  obtain ⟨-, hchan, hg'⟩ := State.sendRequest_some env g.takeCseq.2 hsent
  have hlog : g.log <+: (g.takeCseq.2.sendRequest env req dest).1.log := by
    rw [hg']
    exact List.prefix_append _ _
  refine ⟨fun l hl hans' ↦ ?_, fun l hl t ht ↦ ?_, fun id r hmem ↦ ?_⟩
  · obtain rfl : c.leg = l := Option.some.inj hl
    exact absurd (hans.symm.trans hans') (by decide)
  · obtain rfl : c.leg = l := Option.some.inj hl
    change t.chan < (g.takeCseq.2.sendRequest env req dest).1.nextChan ∧
      ∀ q, (g.takeCseq.2.sendRequest env req dest).1.chans.get? t.chan = some q →
        ∀ r ∈ q, Heard (g.takeCseq.2.sendRequest env req dest).1.log r
    have hnext : (g.takeCseq.2.sendRequest env req dest).1.nextChan = g.nextChan + 1 := by
      rw [hg']
      rfl
    have hchans (k : Nat) : (g.takeCseq.2.sendRequest env req dest).1.chans.get? k =
        if k = g.nextChan then some [] else g.chans.get? k := by
      rw [hg']
      exact Map.get?_insert ..
    have htxn : txn.chan = g.nextChan := hchan
    rw [hnext]
    rcases hwait t ht with rfl | ⟨l, hl, hold⟩
    · refine ⟨htxn ▸ Nat.lt_succ_self _, fun q hq r hr ↦ ?_⟩
      rw [hchans, if_pos htxn] at hq
      obtain rfl := Option.some.inj hq
      simp at hr
    · obtain ⟨hlt, hheard⟩ := h.waiting l hl t hold
      refine ⟨Nat.lt_succ_of_lt hlt, fun q hq r hr ↦ ?_⟩
      rw [hchans, if_neg (Nat.ne_of_lt hlt)] at hq
      exact (hheard q hq r hr).mono hlog
  · have hmem' : .sipAnswered id r ∈ g.internal := by
      have heq : (g.takeCseq.2.sendRequest env req dest).1.internal = g.internal := by
        rw [hg']
        rfl
      exact heq ▸ hmem
    obtain ⟨hsuccess, hheard⟩ := h.internal id r hmem'
    exact ⟨hsuccess, hheard.mono hlog⟩

theorem Honest.onSipRequest (h : Honest g) (txn : Nat) (req : Request) (src : SocketAddr) :
    Honest (g.onSipRequest cfg env txn req src).1 := by
  by_cases hnew : req.method = .invite ∧ g.call = none ∧ g.admits req = true
  · obtain ⟨hm, hc, hadm⟩ := hnew
    obtain ⟨number, sdp, codec, recipient, sender, callId, heq⟩ :=
      g.onNewInvite_admitted cfg env txn req src hadm
    have htried := (g.reply_steady cfg env txn req src 100).quiet
    unfold State.onSipRequest State.onSipInvite
    rw [hm, hc]
    dsimp only
    rw [heq]
    split
    · obtain ⟨g', hs, heq | ⟨c, -, -, hans, htasks, heq⟩⟩ :=
        (g.reply cfg env txn req src 100).1.placeCall_cases (P := Entry.Quiet) cfg env txn req
          src number sdp codec recipient sender callId (fun _ _ ↦ trivial) trivial trivial
      · rw [heq]
        exact h.steady (htried.trans hs)
      · rw [heq]
        have h' := h.steady (htried.trans hs)
        refine ⟨fun l hl hans' ↦ ?_, fun l hl t ht ↦ ?_, h'.internal⟩
        · obtain rfl : c.leg = l := Option.some.inj hl
          exact absurd (hans.symm.trans hans') (by decide)
        · obtain rfl : c.leg = l := Option.some.inj hl
          simp [ActiveCall.leg, htasks] at ht
    · exact h.steady htried
  · exact h.turn (.onSipRequest cfg env g txn req src fun hm hc ↦ by simpa [hm, hc] using hnew)

theorem Honest.onMmCallAdded (h : Honest g) (path : Path) :
    Honest (g.onMmCallAdded cfg env path) := by
  have hemit (g' : State) (h' : Honest g') (e : Entry) : Honest (g'.emit e) :=
    h'.steady (P := fun _ ↦ True) (.emit g' trivial)
  unfold State.onMmCallAdded
  split
  · exact h
  · split
    · exact h
    · split
      · exact h
      · rename_i info _
        split
        · exact hemit g h _
        · split
          · exact hemit g h _
          · split
            · exact hemit g h _
            · rcases g.startSipCall_cases cfg env path info with heq | ⟨req, dest, hmethod, hsent⟩
              · simp only [heq]
                exact hemit g h _
              · have hs : Steady (Entry.Sends (· = .invite)) g
                    (g.takeCseq.2.sendRequest env req dest).1 :=
                  (Steady.takeCseq g).trans (State.sendRequest_steady _ _ _ _ hmethod)
                rcases hsent with heq | ⟨txn, c, deadline, hsome, -, -, -, hans, htasks, -, heq⟩
                · simp only [heq, Bool.false_eq_true, if_false]
                  exact hemit _ (h.steady hs) _
                · simp only [heq, if_true]
                  have hplace := h.place env hsome (c := c) hans fun t ht ↦ .inl <| by
                    simpa [ActiveCall.leg, htasks, Task.inviteTxn?] using ht
                  exact hemit _ hplace (.cdrStarted c.peerNumber)

/-- The network reports the call as connected: the caller is sent the 200. -/
theorem Honest.onModemAnswered (h : Honest g)
    (hrole : ∀ c, g.call = some c → c.answered = false → c.role = .fromSip)
    (hopen : ∀ c, g.call = some c → c.answered = false) :
    Honest (g.onModemAnswered cfg env) := by
  unfold State.onModemAnswered
  split
  · exact h
  · rename_i c hc
    obtain ⟨g', hs, hresp⟩ := g.respondWithMedia_cases cfg env 200
    have hfrom := hrole c hc (hopen c hc)
    simp only [hfrom]
    rcases hresp with heq | ⟨c', resp, hc', hcode, heq⟩
    · have hlost : (g.respondWithMedia cfg env 200).2 = false := by simp [heq, hc]
      simp only [hlost, Bool.not_false, if_true]
      rw [heq]
      exact (h.steady hs).turn (.teardownCall cfg env g' _ _)
    · obtain rfl := Option.some.inj (hc.symm.trans hc')
      have hsent : Steady (fun _ ↦ True) g
          (g'.respond env c.inviteTxn c.invite resp c.inviteDest).1 :=
        (hs.mono fun _ _ ↦ trivial).trans (.emit g' trivial)
      rw [heq]
      split
      · exact (h.steady hsent).turn (.teardownCall cfg env _ _ _)
      · have hconf (l : Leg)
            (hl : (g'.respond env c.inviteTxn c.invite resp c.inviteDest).1.leg = some l) :
            l.Confirmed (g'.respond env c.inviteTxn c.invite resp c.inviteDest).1.log := by
          rw [hsent.leg, State.leg_of_call hc] at hl
          obtain rfl := Option.some.inj hl
          unfold Leg.Confirmed
          rw [show c.leg.role = .fromSip from hfrom]
          exact ⟨g'.now, resp, c.inviteDest, List.mem_append_right _ (List.mem_singleton_self _),
            hcode⟩
        have hans := (h.steady hsent).answer hconf
        split
        · rename_i id _
          exact hans.steady (P := fun _ ↦ True) (.emit _ (e := .cdrAnswered id) trivial)
        · exact hans

theorem Honest.onMmCallState (h : Honest g) (path : Path) (new : Int) (reason : Nat)
    (hactive : new = stateActive → g.mmPath = some path →
      ∀ c, g.call = some c → c.answered = false → c.role = .fromSip) :
    Honest (g.onMmCallState cfg env path new reason) := by
  by_cases hnew : new = stateActive
  · unfold State.onMmCallState
    split
    · exact h
    · rename_i c hfilter
      obtain ⟨hc, hpath⟩ := Option.filter_eq_some_iff.mp hfilter
      have hpath : c.mmPath = some path := by simpa using hpath
      have hring : ¬ (new = stateRingingOut ∨ new = stateDialing) := by
        rw [hnew]
        decide
      rw [if_neg hring, if_pos hnew]
      split
      · exact h
      · rename_i hans
        refine h.onModemAnswered cfg env ?_ ?_
        · exact hactive hnew (by simpa [State.mmPath, hc] using hpath)
        · intro c' hc'
          obtain rfl := Option.some.inj (hc.symm.trans hc')
          simpa using hans
  · exact h.turn (.onMmCallState cfg env g path new reason hnew)

/-! ### Answers from the SIP side -/

/-- The ACK of a 2xx has the Call-ID of the call and the number of its INVITE. -/
theorem State.buildAck_get (g : State) (c : ActiveCall) :
    (g.buildAck cfg env c).method = .ack ∧
      (g.buildAck cfg env c).headers.get "call-id" = some c.callId ∧
      (g.buildAck cfg env c).headers.get "cseq" = some (dec c.localCseq ++ " ACK") := by
  refine ⟨rfl, ?_, Headers.get_set_self ..⟩
  refine ((Headers.get_set ..).trans (if_neg (by decide))).trans ?_
  exact (State.buildRequest_get ..).1

/-- The 2xx that a call of ours waits for confirms it. -/
theorem acked_confirmed {c : ActiveCall} (hc : g.call = some c) (hrole : c.role = .toSip)
    {resp : Response} (hsuccess : resp.isSuccess = true) (hheard : Heard g.log resp)
    (hfinal : finalTo c.invite resp = true) (l : Leg)
    (hl : (g.acked cfg env c resp).leg = some l) :
    l.Confirmed (g.acked cfg env c resp).log := by
  have hs := g.acked_steady cfg env hc resp
  rw [hs.leg, State.leg_of_call hc] at hl
  obtain rfl := Option.some.inj hl
  have hleg := State.learnPeer_leg env c resp
  obtain ⟨hmethod, hid, hseq⟩ := State.buildAck_get cfg env
    { g with call := some (State.learnPeer env c resp) } (State.learnPeer env c resp)
  rw [show (State.learnPeer env c resp).callId = c.callId from congrArg Leg.callId hleg] at hid
  rw [show (State.learnPeer env c resp).localCseq = c.localCseq from
    congrArg Leg.localCseq hleg] at hseq
  obtain ⟨t, ht⟩ := hheard
  unfold Leg.Confirmed
  rw [show c.leg.role = .toSip from hrole]
  refine ⟨⟨t, resp, List.mem_append_left _ ht, hsuccess, hfinal⟩, g.now, _, _,
    List.mem_append_right _ (List.mem_singleton_self _), hmethod, hid, hseq⟩

theorem Honest.onSipAnswered (h : Honest g) {c : ActiveCall} (hc : g.call = some c)
    {resp : Response} (hsuccess : resp.isSuccess = true) (hheard : Heard g.log resp)
    (horder : c.answered = true ∨ env.sendOk g.log.length = false ∨
      c.role = .toSip ∧ finalTo c.invite resp = true) :
    Honest (g.onSipAnswered cfg env resp) := by
  have hs := g.acked_steady cfg env hc resp
  have hack : Honest (g.acked cfg env c resp) := h.steady hs
  by_cases hlost : env.sendOk g.log.length = false
  · rw [g.onSipAnswered_of_not_ok cfg env hc resp hlost]
    exact hack
  · have hconf (l : Leg) (hl : (g.acked cfg env c resp).leg = some l) :
        l.Confirmed (g.acked cfg env c resp).log := by
      rcases horder with hans | hlost' | ⟨hrole, hfinal⟩
      · refine hack.answered l hl ?_
        rw [hs.leg, State.leg_of_call hc] at hl
        obtain rfl := Option.some.inj hl
        exact hans
      · exact absurd hlost' hlost
      · exact acked_confirmed cfg env hc hrole hsuccess hheard hfinal l hl
    rcases g.onSipAnswered_cases cfg env hc resp with heq | ⟨g', hs', heq⟩
    · rw [heq]
      exact hack
    · have hans := (hack.answer hconf).steady hs'
      rcases heq with heq | ⟨reason, code, heq⟩ <;> rw [heq]
      · exact hans
      · exact hans.turn (.teardownCall cfg env g' reason code)

theorem Honest.onSipFailed (h : Honest g) (resp : Response) :
    Honest (g.onSipFailed md5Hex cfg env resp) := by
  have hack := h.steady (g.ackFailure_steady env resp)
  unfold State.onSipFailed
  revert hack
  generalize g.ackFailure env resp = g₁
  intro hack
  dsimp only
  split
  · rcases g₁.retryInviteWithAuth_cases md5Hex cfg env resp with
      ⟨g', hs, heq⟩ | ⟨c, req, txn, deadline, hc, -, hans, -, -, -, hsent, heq⟩
    · rw [heq]
      exact hack.turn (.finish_of_rest hs _)
    · rw [heq]
      obtain ⟨-, -, hg'⟩ := State.sendRequest_some env g₁.takeCseq.2 hsent
      have hcall : (g₁.takeCseq.2.sendRequest env req c.remoteAddr).1.call = some c := by
        rw [hg']
        exact hc
      simp only [if_true, State.updateCall, hcall, Option.map_some]
      refine hack.place env hsent hans fun t ht ↦ ?_
      rcases (by simpa [ActiveCall.leg, Task.inviteTxn?] using ht :
        (∃ task ∈ c.tasks, task.inviteTxn? = some t) ∨ t = txn) with ⟨task, hmem, htask⟩ | rfl
      · exact .inr ⟨c.leg, State.leg_of_call hc, List.mem_filterMap.mpr ⟨task, hmem, htask⟩⟩
      · exact .inl rfl
  · exact hack.turn (.finish g₁ _)

/-! ### The channels -/

/-- A response joins the queue of its transaction. -/
theorem Honest.onResponse (h : Honest g) (resp : Response) : Honest (g.onResponse resp) := by
  have hheard : Heard (g.log ++ [(g.now, .heard resp)]) resp := ⟨g.now, by simp⟩
  have hemit : Honest (g.emit (.heard resp)) := h.steady (P := fun _ ↦ True) (.emit g trivial)
  unfold State.onResponse
  dsimp only
  split
  · split
    · rename_i entry _
      split
      · exact hemit
      · refine ⟨hemit.answered, fun l hl txn htxn ↦ ?_, hemit.internal⟩
        obtain ⟨hlt, hold⟩ := hemit.waiting l hl txn htxn
        refine ⟨hlt, fun q hq r hr ↦ ?_⟩
        dsimp only at hq
        split at hq
        · rename_i queue hqueue
          rw [Map.get?_insert] at hq
          split at hq
          · rename_i heq
            obtain rfl := Option.some.inj hq
            rcases List.mem_append.mp hr with hmem | hmem
            · exact hold queue (heq ▸ hqueue) r hmem
            · obtain rfl := List.mem_singleton.mp hmem
              exact hheard
          · exact hold q hq r hr
        · exact hold q hq r hr
    · exact hemit
  · exact hemit

/-- A task of the call reads its channel, and reports what it read. -/
theorem Honest.inviteTask (h : Honest g) (i : Nat) : Honest (g.inviteTask i) := by
  unfold State.inviteTask
  split
  · rename_i c txn deadline hc htask
    have htxn : txn ∈ c.leg.waiting := by
      obtain ⟨c', hc', htask'⟩ := Option.bind_eq_some_iff.mp htask
      obtain rfl := Option.some.inj (hc.symm.trans hc')
      exact List.mem_filterMap.mpr ⟨_, List.mem_of_getElem? htask', rfl⟩
    obtain ⟨-, hqueue⟩ := h.waiting c.leg (State.leg_of_call hc) txn htxn
    split
    · exact h
    · split
      · rename_i resp rest hq
        have hread : Tame g { g with chans := g.chans.insert txn.chan rest } := by
          refine ⟨List.prefix_refl _, le_rfl, fun l hl ↦ ⟨l, hl, .refl l, rfl, id⟩, ?_, fun _ _ ↦ id⟩
          intro k _ q' hq'
          rw [Map.get?_insert] at hq'
          split at hq'
          · rename_i heq
            obtain rfl := Option.some.inj hq'
            exact ⟨resp :: rest, heq ▸ hq, List.subset_cons_self _ _⟩
          · exact ⟨q', hq', fun _ ↦ id⟩
        dsimp only
        split
        · split
          · exact h.of_tame (hread.trans (.enqueue _ (by rintro id r ⟨⟩)))
          · exact h.of_tame hread
        · have hend := h.of_tame (hread.trans (.endTask _ i))
          split
          · rename_i hsuccess
            refine ⟨hend.answered, hend.waiting, fun id r hmem ↦ ?_⟩
            rcases List.mem_append.mp hmem with hold | hnew
            · exact hend.internal id r hold
            · obtain ⟨rfl, rfl⟩ := Internal.sipAnswered.inj (List.mem_singleton.mp hnew)
              refine ⟨hsuccess, (hqueue _ hq _ List.mem_cons_self).mono ?_⟩
              exact (hread.trans (.endTask _ i)).log
          · exact hend.of_tame (.enqueue _ (by rintro id r ⟨⟩))
      · split
        · exact h
        · exact h.of_tame ((Tame.endTask g i).trans (.enqueue _ (by rintro id r ⟨⟩)))
  · exact h

end Invariant

/-! ## Runs -/

theorem Honest.onInternal {g : State} (h : Honest g) {ev : Internal} {rest : List Internal}
    (hq : g.internal = ev :: rest)
    (horder : ∀ callId resp, ev = .sipAnswered callId resp → ∀ c, g.call = some c →
      c.callId = callId → c.answered = true ∨ env.sendOk g.log.length = false ∨
        c.role = .toSip ∧ finalTo c.invite resp = true) :
    Honest (({ g with internal := rest } : State).onInternal md5Hex cfg env ev) := by
  have hpop : Honest { g with internal := rest } :=
    h.of_tame (.congr (List.prefix_refl _) rfl rfl rfl fun _ _ hmem ↦ hq ▸ List.mem_cons_of_mem _ hmem)
  cases ev with
  | sipAnswered callId resp =>
      dsimp only [State.onInternal]
      split
      · rename_i hmatch
        obtain ⟨c, hc, hid⟩ := (Option.any_eq_true ..).mp hmatch
        obtain ⟨hsuccess, hheard⟩ := h.internal callId resp (hq ▸ List.mem_cons_self)
        exact hpop.onSipAnswered cfg env hc hsuccess hheard
          (horder callId resp rfl c hc (by simpa using hid))
      · exact hpop
  | sipFailed callId resp =>
      dsimp only [State.onInternal]
      split
      · exact hpop.onSipFailed md5Hex cfg env resp
      · exact hpop
  | _ => exact hpop.turn (.onInternal md5Hex cfg env _ _ nofun nofun)

/-- What the event loop does in one event keeps the invariant. -/
theorem Honest.step {g : State} (h : Honest g) (e : Event × Env)
    (horder : g.answersInOrder e = true) : Honest (g.step md5Hex cfg e) := by
  obtain ⟨e, env⟩ := e
  unfold State.step
  dsimp only
  split
  · exact h
  · rename_i hrun
    cases e with
    | request req src =>
        have hbump : Honest { g with nextTxn := g.nextTxn + 1 } :=
          h.of_tame (.congr (List.prefix_refl _) rfl rfl rfl fun _ _ ↦ id)
        exact hbump.onSipRequest cfg env _ req src
    | modemUp modem => exact h.of_tame (.congr (List.prefix_refl _) rfl rfl rfl fun _ _ ↦ id)
    | modemDown =>
        have hdown : Tame g { g with modem := none } :=
          .congr (List.prefix_refl _) rfl rfl rfl fun _ _ ↦ id
        exact (h.of_tame hdown).turn (.teardownCall cfg env _ _ _)
    | callAdded path => exact h.onMmCallAdded cfg env path
    | callDeleted path =>
        dsimp only
        split
        · exact h.turn (.teardownCall cfg env g _ _)
        · exact h
    | callState path new reason =>
        refine h.onMmCallState cfg env path new reason fun hnew hpath c hc hans ↦ ?_
        have hrole : c.role ≠ .toSip := by
          simpa [State.answersInOrder, hrun, hnew, hpath, hc, hans] using horder
        cases hr : c.role with
        | fromSip => rfl
        | toSip => exact absurd hr hrole
    | modemDtmf path digit =>
        dsimp only
        split
        · exact h.steady (g.sendDtmfInfo_steady cfg env digit)
        · exact h
    | smsAdded path received => exact h.steady (P := fun _ ↦ True) (.emit g trivial)
    | internal =>
        dsimp only
        split
        · exact h
        · rename_i ev rest hq
          refine h.onInternal md5Hex cfg env hq fun callId resp hev c hc hid ↦ ?_
          have hall : ((c.callId ≠ callId ∨ c.answered = true) ∨ env.sendOk g.log.length = false) ∨
              c.role = .toSip ∧ finalTo c.invite resp = true := by
            simpa [State.answersInOrder, hrun, hq, hev, hc] using horder
          rcases hall with ((hne | hans) | hlost) | hfinal
          · exact absurd hid hne
          · exact .inl hans
          · exact .inr (.inl hlost)
          · exact .inr (.inr hfinal)
    | tick => exact h.turn (.checkMedia cfg env g)
    | shutdown =>
        have hstop (g' : State) : Tame g' { g' with stopped := true } :=
          .congr (List.prefix_refl _) rfl rfl rfl fun _ _ ↦ id
        exact (h.turn (.teardownCall cfg env g _ _)).of_tame (hstop _)
    | response resp => exact h.onResponse resp
    | rtp src => exact h.of_tame (.onRtp cfg g src)
    | inviteTask i => exact h.inviteTask i
    | inviteTimeout i => exact h.of_tame (.inviteTimeout g i)
    | audioHeard level => exact h.of_tame (.audioHeard g level)
    | rtpDigit digit => exact h.of_tame (.relayDigit g _ (by rintro callId id r ⟨⟩))
    | inbandDigit digit => exact h.of_tame (.relayDigit g _ (by rintro callId id r ⟨⟩))
    | transact req dest =>
        dsimp only
        split
        · exact h
        · exact h.steady (g.sendInBackground_steady (P := fun _ ↦ True) env req dest trivial)
    | backgroundDone i =>
        dsimp only
        split
        · exact h
        · rename_i txn _
          refine h.of_tame ⟨List.prefix_refl _, le_rfl, fun l hl ↦ ⟨l, hl, .refl l, rfl, id⟩, ?_,
            fun _ _ ↦ id⟩
          intro k _ q' hq'
          rw [State.dropTxn, Map.get?_erase] at hq'
          split at hq'
          · cases hq'
          · exact ⟨q', hq', fun _ ↦ id⟩
    | advance ms => exact h.of_tame (.congr (List.prefix_refl _) rfl rfl rfl fun _ _ ↦ id)

/-! ## What follows for the end of a call -/

section GivingUp

variable {g : State} {c : ActiveCall}

/-- Giving up a call of ours that is not answered sends the CANCEL of its INVITE. -/
theorem cancel_mem_newEntries (hc : g.call = some c) (hrole : c.role = .toSip)
    (hans : c.answered = false) (disposition : Str) :
    .send (State.inviteAs c .cancel) c.remoteAddr ∈
      newEntries g ((g.cancelOutgoingInvite env).hangupMobile.finishCall disposition) := by
  have hcancel : (g.cancelOutgoingInvite env).log =
      g.log ++ [(g.now, .send (State.inviteAs c .cancel) c.remoteAddr)] := by
    simp [State.cancelOutgoingInvite, hc, hrole, hans, State.sendRaw]
  have hend := Tame.of_turn (.finish (g.cancelOutgoingInvite env) disposition)
  obtain ⟨new, hnew⟩ := hend.log
  rw [hcancel, List.append_assoc] at hnew
  rw [newEntries_eq hnew.symm]
  simp

theorem teardownCall_cancels (hc : g.call = some c) (hrole : c.role = .toSip)
    (hans : c.answered = false) (reason : Str) (code : Nat) :
    .send (State.inviteAs c .cancel) c.remoteAddr ∈
      newEntries g (g.teardownCall cfg env reason code) := by
  have heq : g.teardownCall cfg env reason code =
      (g.cancelOutgoingInvite env).hangupMobile.finishCall reason := by
    simp [State.teardownCall, hc, hrole, hans]
  rw [heq]
  exact cancel_mem_newEntries env hc hrole hans reason

/-- Whatever gives the call up cancels it. -/
theorem abandons_cancels (hc : g.call = some c) (hrole : c.role = .toSip)
    (hans : c.answered = false) (e : Event) (h : g.abandons e = true) :
    .send (State.inviteAs c .cancel) c.remoteAddr ∈ newEntries g (g.step md5Hex cfg (e, env)) := by
  obtain ⟨hrun, habandons⟩ := (Bool.and_eq_true ..).mp h
  have hrun : g.stopped = false := by simpa using hrun
  cases e with
  | modemDown =>
      have hstep : g.step md5Hex cfg (.modemDown, env) =
          ({ g with modem := none }).teardownCall cfg env "modem disappeared" 503 := by
        simp only [State.step, hrun]
        rfl
      rw [hstep]
      exact teardownCall_cancels cfg env (g := { g with modem := none }) hc hrole hans _ _
  | shutdown =>
      have hstep : (g.step md5Hex cfg (.shutdown, env)).log =
          (g.teardownCall cfg env "modem2sip is shutting down" 200).log := by
        simp only [State.step, hrun]
        rfl
      have hcancel := teardownCall_cancels cfg env hc hrole hans "modem2sip is shutting down" 200
      rwa [newEntries, ← hstep] at hcancel
  | callDeleted path =>
      have hpath : g.mmPath = some path := by simpa using habandons
      have hstep : g.step md5Hex cfg (.callDeleted path, env) =
          g.teardownCall cfg env "modem call object deleted" 200 := by
        simp only [State.step, hrun, hpath]
        rfl
      rw [hstep]
      exact teardownCall_cancels cfg env hc hrole hans _ _
  | callState path new reason =>
      obtain ⟨hpath, hnew⟩ : g.mmPath = some path ∧ new = stateTerminated := by
        simpa using habandons
      have hpath : c.mmPath = some path := by simpa [State.mmPath, hc] using hpath
      have hfilter : (g.call.filter fun c ↦ c.mmPath == some path) = some c := by
        simp [hc, hpath]
      have hstep : g.step md5Hex cfg (.callState path new reason, env) =
          g.teardownCall cfg env "the mobile call ended"
            (State.terminatedCode reason c.answered) := by
        simp only [State.step, hrun, State.onMmCallState, hfilter, hnew]
        rfl
      rw [hstep]
      exact teardownCall_cancels cfg env hc hrole hans _ _
  | internal =>
      dsimp only at habandons
      split at habandons
      · rename_i callId rest hq
        have hmatch : ({ g with internal := rest } : State).callIdMatches callId = true := habandons
        have hstep : g.step md5Hex cfg (.internal, env) =
            (({ g with internal := rest } : State).cancelOutgoingInvite env).hangupMobile.finishCall
              "ring timeout" := by
          have hgo : ¬ g.stopped = true := by simp [hrun]
          simp only [State.step, hq, State.onInternal, if_neg hgo, if_pos hmatch]
        rw [hstep]
        exact cancel_mem_newEntries env (g := { g with internal := rest }) hc hrole hans _
      · exact absurd habandons Bool.false_ne_true
  | _ => exact absurd habandons Bool.false_ne_true

/-- A teardown sends a BYE only for an answered call. -/
theorem answered_of_bye {reason : Str} {code : Nat} {bye : Request} {dest : SocketAddr}
    (hbye : bye.method = .bye)
    (hmem : .send bye dest ∈ newEntries g (g.teardownCall cfg env reason code)) :
    ∃ c, g.call = some c ∧ c.answered = true := by
  cases hc : g.call with
  | none => simp [State.teardownCall, hc, newEntries] at hmem
  | some c =>
      refine ⟨c, rfl, Bool.not_eq_false _ ▸ fun hans ↦ ?_⟩
      -- What the slot is emptied with is no request.
      have hend {P : Entry → Prop} {g' : State} (hs : Steady P g g')
          (hP : ∀ bye dest, bye.method = .bye → ¬ P (.send bye dest))
          (hmem : .send bye dest ∈ newEntries g (g'.finishCall reason)) : False := by
        obtain ⟨c', hc', -⟩ := hs.call_some hc
        obtain ⟨new, hlog, hnew⟩ := hs.log
        have hlog' : (g'.finishCall reason).log =
            g.log ++ (new ++ [(g'.now, .finished c'.callId reason c'.cdrId)]) := by
          rw [g'.finishCall_log hc', hlog, List.append_assoc]
        rw [newEntries_eq hlog'] at hmem
        obtain ⟨⟨t, e⟩, he, heq⟩ := List.mem_map.mp hmem
        rcases List.mem_append.mp he with h | h
        · exact hP bye dest hbye (heq ▸ (hnew _ h).2)
        · rw [List.mem_singleton.mp h] at heq
          cases heq
      cases hrole : c.role with
      | fromSip =>
          obtain ⟨resp, -, heq⟩ := g.teardownCall_fromSip cfg env hc hans hrole reason code
          rw [heq] at hmem
          refine hend (P := Entry.Allowed (fun _ _ ↦ True) fun _ ↦ False) ?_ (fun _ _ _ h ↦ h) hmem
          exact (Steady.emit g trivial).trans (State.hangupMobile_steady _).allowed
      | toSip =>
          obtain ⟨g', hs, heq⟩ := g.teardownCall_toSip cfg env hc hans hrole reason code
          rw [heq] at hmem
          exact hend hs (fun bye dest hbye h ↦ by
            have : bye.method = .cancel := h
            simp [this] at hbye) hmem

end GivingUp

/-- `answered` means that the dialog is confirmed: so a teardown sends a BYE in a confirmed dialog
only, and whatever gives up a call of ours without one cancels its INVITE. -/
structure AnsweredIsConfirmed (g : State) : Prop where
  answered : ∀ c, g.call = some c → c.answered = true → c.leg.Confirmed g.log
  bye : ∀ env reason code bye dest,
    .send bye dest ∈ newEntries g (g.teardownCall cfg env reason code) → bye.method = .bye →
      ∃ c, g.call = some c ∧ c.leg.Confirmed g.log
  cancel : ∀ c e env, g.call = some c → c.role = .toSip → ¬ c.leg.Confirmed g.log →
    g.abandons e = true →
      .send (State.inviteAs c .cancel) c.remoteAddr ∈ newEntries g (g.step md5Hex cfg (e, env))

/-- In every run in which no call of ours is reported connected before its INVITE is answered, and
every 2xx that is taken up for a call is one to its INVITE, an answered call has a confirmed
dialog. -/
theorem answered_is_confirmed (now : Nat) (es : List (Event × Env))
    (horder : Run.Guarded (State.step md5Hex cfg) (fun g e ↦ g.answersInOrder e = true)
      (State.init now) es) :
    AnsweredIsConfirmed md5Hex cfg ((State.init now).run md5Hex cfg es) := by
  have h : Honest ((State.init now).run md5Hex cfg es) :=
    horder.invariant (fun g e h ho ↦ h.step md5Hex cfg e ho) (honest_init now)
  have hans (c : ActiveCall) (hc : ((State.init now).run md5Hex cfg es).call = some c)
      (hc' : c.answered = true) : c.leg.Confirmed ((State.init now).run md5Hex cfg es).log :=
    h.answered c.leg (State.leg_of_call hc) hc'
  refine ⟨hans, fun env reason code bye dest hmem hbye ↦ ?_, fun c e env hc hrole hno hgive ↦ ?_⟩
  · obtain ⟨c, hc, hc'⟩ := answered_of_bye cfg env hbye hmem
    exact ⟨c, hc, hans c hc hc'⟩
  · refine abandons_cancels md5Hex cfg env hc hrole ?_ e hgive
    exact Bool.eq_false_iff.mpr fun hc' ↦ hno (hans c hc hc')

/-- The modem reports a call of ours connected while its INVITE is still ringing. -/
theorem active_before_answer :
    ¬ AnsweredIsConfirmed (fun _ ↦ []) (Sample.config false)
      ((State.init 1700000000000).run (fun _ ↦ []) (Sample.config false)
        [ (.modemUp { ownNumber := none }, Sample.env),
          (.callAdded "/call/1", Sample.env),
          (.callState "/call/1" stateActive 0, Sample.env) ]) := by
  generalize hg : (State.init 1700000000000).run (fun _ ↦ []) (Sample.config false)
    [ (.modemUp { ownNumber := none }, Sample.env),
      (.callAdded "/call/1", Sample.env),
      (.callState "/call/1" stateActive 0, Sample.env) ] = g
  have hcall : g.call.any (fun c ↦ c.role == .toSip && c.answered) = true := by
    rw [← hg]
    decide +kernel
  have hsilent : (g.log.any fun e ↦ match e.2 with | .heard _ => true | _ => false) = false := by
    rw [← hg]
    decide +kernel
  rintro ⟨hanswered, -, -⟩
  obtain ⟨c, hc, hbool⟩ := (Option.any_eq_true ..).mp hcall
  obtain ⟨hrole, hans⟩ : c.role = .toSip ∧ c.answered = true := by simpa using hbool
  have hconf := hanswered c hc hans
  unfold Leg.Confirmed at hconf
  rw [show c.leg.role = .toSip from hrole] at hconf
  obtain ⟨⟨t, resp, hmem, -⟩, -⟩ := hconf
  exact absurd (List.any_eq_false.mp hsilent _ hmem) (by simp)

/-- A call from the mobile network that the SIP side answers. -/
def Sample.answer : List (Event × Env) :=
  let placed := Sample.idle.run (fun _ ↦ []) (Sample.config false) [(.callAdded "/call/1", Sample.env)]
  let invite := (placed.call.map ActiveCall.invite).getD (.new .invite (.new none [] none))
  [ (.modemUp { ownNumber := none }, Sample.env),
    (.callAdded "/call/1", Sample.env),
    (.response { invite.reply 200 "OK" with body := utf8 Sample.offer }, Sample.env),
    (.inviteTask 0, Sample.env),
    (.internal, Sample.env),
    (.callState "/call/1" stateActive 0, Sample.env) ]

theorem answered_is_confirmed_answer :
    let g := (State.init 1700000000000).run (fun _ ↦ []) (Sample.config false) Sample.answer
    g.call.any ActiveCall.answered = true ∧
      AnsweredIsConfirmed (fun _ ↦ []) (Sample.config false) g :=
  ⟨by decide +kernel, answered_is_confirmed _ _ _ _ (by decide +kernel)⟩

end Modem2Sip.Gateway
