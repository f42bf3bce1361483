import Modem2Sip.Gateway.Loop
import Modem2Sip.Gateway.NewCall

/-!
# Final responses are acknowledged

A final response to an INVITE is repeated for 32 seconds until its ACK arrives, so
each copy that arrives needs an ACK, and a 2xx to an INVITE that was given up needs
a BYE as well.  `Ledger` keeps the account of that from the log alone.  The code
acknowledges a final response when the event loop takes it from the task that
waits for it; `takesFinal` says when an event leaves that task and the call in
place for it, and `Acked` is the invariant of the runs of such events.  It says
where the final response is, and no event takes it back: the reads of the task
bring it nearer to the loop's queue, and the loop nearer to its front.
-/

namespace Modem2Sip.Gateway

open Text Net Sip

variable (md5Hex : List UInt8 → Str) (cfg : Config) (env : Env)

/-! ## What is owed -/

/-- A final response to this INVITE has its branch and its method. -/
def finalTo (invite : Request) (resp : Response) : Bool :=
  decide (200 ≤ resp.code) &&
    resp.headers.topVia.bind Via.branch == invite.headers.topVia.bind Via.branch &&
    resp.headers.cseq.any fun c ↦ c.2 == .invite

/-- The same call, and the sequence number of the INVITE. -/
def acknowledges (ack invite : Request) : Bool :=
  ack.headers.callId == invite.headers.callId &&
    State.cseqNumber ack.headers == State.cseqNumber invite.headers

/-- For how long a final response is repeated, in milliseconds. -/
def repeatMs : Nat := 32000

structure Ledger where
  /-- The INVITEs that were sent, the newest first. -/
  sent : List Request
  /-- The first final response to an INVITE, and when it arrived. -/
  first : List (Request × Nat × Response)
  /-- The INVITEs of calls that ended without an acknowledged 2xx. -/
  givenUp : List Request
  /-- The INVITE of each response that still needs an ACK. -/
  acks : List Request
  /-- The INVITE of each 2xx that still needs a BYE. -/
  byes : List Request
deriving Repr

namespace Ledger

def empty : Ledger where
  sent := []
  first := []
  givenUp := []
  acks := []
  byes := []

/-- The INVITEs that a response which arrives at `t` is a final response to, not too long after
the first one. -/
def due (L : Ledger) (t : Nat) (resp : Response) : List Request :=
  L.sent.filter fun i ↦ finalTo i resp && (L.first.lookup i).all fun f ↦ decide (t ≤ f.1 + repeatMs)

/-- A response arrives. -/
def hear (L : Ledger) (t : Nat) (resp : Response) : Ledger :=
  { L with
    first := L.first ++ (L.sent.filter fun i ↦ finalTo i resp && (L.first.lookup i).isNone).map
      fun i ↦ (i, t, resp)
    acks := L.acks ++ L.due t resp
    byes := L.byes ++ if resp.isSuccess then (L.due t resp).filter (L.givenUp.contains ·) else [] }

/-- A request is handed to the socket; an INVITE that is sent again starts afresh. -/
def send (L : Ledger) (req : Request) : Ledger :=
  match req.method with
  | .invite =>
    { L with
      sent := req :: L.sent.filter (· != req)
      first := L.first.filter (·.1 != req)
      givenUp := L.givenUp.filter (· != req) }
  | .ack => { L with acks := L.acks.eraseP (acknowledges req) }
  | .bye => { L with byes := L.byes.eraseP fun i ↦ req.headers.callId == i.headers.callId }
  | _ => L

/-- A call leaves its slot. -/
def finish (L : Ledger) (callId : Str) : Ledger :=
  { L with
    givenUp := L.givenUp ++ L.sent.filter fun i ↦ i.headers.callId == some callId &&
      (L.acks.contains i || !(L.first.lookup i).any fun f ↦ f.2.isSuccess) }

def add (L : Ledger) : Nat × Entry → Ledger
  | (t, .heard resp) => L.hear t resp
  | (_, .send req _) => L.send req
  | (_, .finished callId _ _) => L.finish callId
  | _ => L

/-- Nothing is owed in `L'` that was not owed in `L`. -/
structure Le (L' L : Ledger) : Prop where
  givenUp : L'.givenUp ⊆ L.givenUp
  acks : L'.acks.Sublist L.acks
  byes : L'.byes.Sublist L.byes

namespace Le

variable {L₁ L₂ L₃ : Ledger}

theorem refl (L : Ledger) : Le L L := ⟨fun _ ↦ id, .refl _, .refl _⟩

theorem trans (h₁ : Le L₂ L₁) (h₂ : Le L₃ L₂) : Le L₃ L₁ :=
  ⟨fun _ h ↦ h₁.givenUp (h₂.givenUp h), h₂.acks.trans h₁.acks, h₂.byes.trans h₁.byes⟩

end Le

theorem send_le (L : Ledger) (req : Request) : Le (L.send req) L := by
  unfold send
  split
  · exact ⟨fun _ h ↦ (List.mem_filter.mp h).1, .refl _, .refl _⟩
  · exact ⟨fun _ ↦ id, List.eraseP_sublist, .refl _⟩
  · exact ⟨fun _ ↦ id, .refl _, List.eraseP_sublist⟩
  · exact .refl L

/-- Only a response from the network puts something on the list of what is owed. -/
theorem add_le (L : Ledger) {e : Nat × Entry} (h : e.2.Quiet) : Le (L.add e) L := by
  obtain ⟨t, e⟩ := e
  cases e with
  | heard resp => exact h.elim
  | finished callId disposition cdrId => exact h.elim
  | send req dest => exact L.send_le req
  | _ => exact .refl L

theorem run_add_le (L : Ledger) {es : List (Nat × Entry)} (h : ∀ e ∈ es, e.2.Quiet) :
    Le (Run.run add L es) L := by
  induction es generalizing L with
  | nil => exact .refl L
  | cons e es ih =>
      exact (L.add_le (h e List.mem_cons_self)).trans
        (ih _ fun e he ↦ h e (List.mem_cons_of_mem _ he))

/-- No INVITE is in the account twice. -/
theorem nodup_sent_add (L : Ledger) (h : L.sent.Nodup) (e : Nat × Entry) :
    (L.add e).sent.Nodup := by
  obtain ⟨t, e⟩ := e
  cases e with
  | send req dest =>
      change (L.send req).sent.Nodup
      unfold send
      split
      · exact List.nodup_cons.mpr ⟨by simp, h.filter _⟩
      · exact h
      · exact h
      · exact h
  | _ => exact h

end Ledger

/-- The account of a state. -/
def ledger (g : State) : Ledger := Run.run Ledger.add .empty g.log

theorem nodup_sent (g : State) : (ledger g).sent.Nodup := by
  have hstep (L : Ledger) (e : Nat × Entry) (h : L.sent.Nodup) : (L.add e).sent.Nodup :=
    L.nodup_sent_add h e
  have hrun := Run.invariant hstep g.log (s := .empty) List.nodup_nil
  exact hrun

section Account

variable {g g' : State}

theorem ledger_of_log {new : List (Nat × Entry)} (h : g'.log = g.log ++ new) :
    ledger g' = Run.run Ledger.add (ledger g) new := by
  rw [ledger, h, Run.run_append, ledger]

theorem Steady.ledger_le {P : Entry → Prop} (h : Steady P g g') (hP : ∀ e, P e → e.Quiet) :
    Ledger.Le (ledger g') (ledger g) := by
  obtain ⟨new, hlog, hnew⟩ := h.log
  rw [ledger_of_log hlog]
  exact Ledger.run_add_le _ fun e he ↦ hP _ (hnew e he).2

end Account

/-! ## What waits for the event loop -/

/-- The report of a task whose INVITE has its final response. -/
def Internal.isOutcome (callId : Str) : Internal → Bool
  | .sipAnswered id _ | .sipFailed id _ => id == callId
  | _ => false

/-- A final response waits in the channel of a task, or its report waits for the event loop. -/
def Leg.finalWaiting (l : Leg) (chans : Map Nat (List Response)) (internal : List Internal) :
    Bool :=
  l.waiting.any (fun txn ↦ (chans.get? txn.chan).any fun q ↦ q.any fun r ↦ !r.isProvisional) ||
    internal.any (Internal.isOutcome l.callId)

/-- A final response to the INVITE of the call was heard and is not handled yet. -/
def State.finalWaiting (g : State) : Bool :=
  g.leg.any fun l ↦ l.role == .toSip && l.finalWaiting g.chans g.internal

theorem State.finalWaiting_iff {g : State} :
    g.finalWaiting = true ↔
      ∃ l, g.leg = some l ∧ l.role = .toSip ∧ l.finalWaiting g.chans g.internal = true := by
  simp [State.finalWaiting, Option.any_eq_true]

/-- The same INVITE, and no channel that was not waited for before. -/
structure Leg.Narrows (l' l : Leg) : Prop where
  role : l'.role = l.role
  callId : l'.callId = l.callId
  invite : l'.invite = l.invite
  localCseq : l'.localCseq = l.localCseq
  waiting : l'.waiting ⊆ l.waiting

theorem Leg.Narrows.refl (l : Leg) : l.Narrows l := ⟨rfl, rfl, rfl, rfl, fun _ ↦ id⟩

/-- Where a final response is: among the next so many responses in the channel of a task, or it is
reported by one of the next so many events in the queue of the loop. -/
inductive Place where
  | channel (txn : ClientTxn) (next : Nat)
  | queue (next : Nat)

/-- One place nearer to the event loop. -/
inductive Place.Nearer : Place → Place → Prop
  | read (txn : ClientTxn) (n : Nat) : Nearer (.channel txn n) (.channel txn (n + 1))
  | reported (txn : ClientTxn) (n m : Nat) : Nearer (.queue m) (.channel txn n)
  | popped (n : Nat) : Nearer (.queue n) (.queue (n + 1))

theorem Place.nearer_wf : WellFounded Place.Nearer := by
  have hqueue (n : Nat) : Acc Place.Nearer (.queue n) := by
    induction n with
    | zero => exact ⟨_, nofun⟩
    | succ n ih =>
        refine ⟨_, ?_⟩
        rintro _ ⟨⟩
        exact ih
  have hchannel (txn : ClientTxn) (n : Nat) : Acc Place.Nearer (.channel txn n) := by
    induction n with
    | zero =>
        refine ⟨_, ?_⟩
        rintro _ ⟨⟩
        exact hqueue _
    | succ n ih =>
        refine ⟨_, ?_⟩
        rintro _ (_ | _)
        · exact ih
        · exact hqueue _
  refine ⟨fun p ↦ ?_⟩
  cases p with
  | channel txn n => exact hchannel txn n
  | queue n => exact hqueue n

section Waiting

variable {l l' : Leg} {chans chans' : Map Nat (List Response)} {internal internal' : List Internal}
  {p : Place}

/-- A final response among the next so many of this channel. -/
def HoldsFinal (chans : Map Nat (List Response)) (txn : ClientTxn) (n : Nat) : Prop :=
  ∃ q, chans.get? txn.chan = some q ∧ ∃ r ∈ q.take n, r.isProvisional = false

/-- The final response is in this place. -/
def Leg.DueAt (l : Leg) (chans : Map Nat (List Response)) (internal : List Internal) :
    Place → Prop
  | .channel txn n => txn ∈ l.waiting ∧ HoldsFinal chans txn n
  | .queue n => ∃ ev ∈ internal.take n, ev.isOutcome l.callId = true

theorem Leg.DueAt.finalWaiting (h : l.DueAt chans internal p) : l.finalWaiting chans internal = true := by
  rw [Leg.finalWaiting, Bool.or_eq_true, List.any_eq_true, List.any_eq_true]
  cases p with
  | channel txn n =>
      obtain ⟨htxn, q, hq, r, hr, hfinal⟩ := h
      refine .inl ⟨txn, htxn, ?_⟩
      rw [hq, Option.any_some, List.any_eq_true]
      exact ⟨r, List.mem_of_mem_take hr, by rw [hfinal]; rfl⟩
  | queue n =>
      obtain ⟨ev, hev, hout⟩ := h
      exact .inr ⟨ev, List.mem_of_mem_take hev, hout⟩

theorem mem_take_of_prefix {α : Type} {xs ys : List α} (h : xs <+: ys) {x : α} {n : Nat}
    (hx : x ∈ xs.take n) : x ∈ ys.take n := (h.take n).subset hx

/-- What waits goes on waiting in its place while its channel stays and the queue only grows. -/
theorem Leg.DueAt.mono (h : l.DueAt chans internal p) (hid : l'.callId = l.callId)
    (hchan : ∀ txn n, txn ∈ l.waiting → HoldsFinal chans txn n →
      txn ∈ l'.waiting ∧ HoldsFinal chans' txn n)
    (hinternal : internal <+: internal') : l'.DueAt chans' internal' p := by
  cases p with
  | channel txn n =>
      obtain ⟨htxn, hfinal⟩ := h
      exact hchan txn n htxn hfinal
  | queue n =>
      obtain ⟨ev, hev, hout⟩ := h
      exact ⟨ev, mem_take_of_prefix hinternal hev, hid ▸ hout⟩

end Waiting

/-- The final response to the INVITE of the call is in this place. -/
def State.DueAt (g : State) (p : Place) : Prop :=
  ∃ l, g.leg = some l ∧ l.role = .toSip ∧ l.DueAt g.chans g.internal p

theorem State.DueAt.finalWaiting {g : State} {p : Place} (h : g.DueAt p) : g.finalWaiting = true := by
  obtain ⟨l, hl, hrole, hdue⟩ := h
  exact State.finalWaiting_iff.mpr ⟨l, hl, hrole, hdue.finalWaiting⟩

/-! ## The condition -/

namespace State

/-- The time of the task at this place is up, and its report finds room. -/
def timeoutDue (g : State) (i : Nat) : Bool :=
  (g.call.bind fun c ↦ c.tasks[i]?).any fun task ↦
    match task with
    | .inviteResponse _ deadline => !(g.internalFull || decide (g.now < deadline))
    | _ => false

/-- Does this event end the call, or the wait for a response to its INVITE, for another reason
than a final response? -/
def givesUp (g : State) (e : Event × Env) : Bool :=
  match e.1 with
  | .modemDown | .shutdown => true
  | .callDeleted path => g.mmPath == some path
  | .callState path new _ => g.mmPath == some path && new == stateTerminated
  | .tick => g.call.any fun c ↦ c.media.any fun m ↦ e.2.audioFailed || silentTooLong cfg g.now c m
  | .request req _ => req.method == .bye && g.inDialog req && e.2.sendOk g.log.length
  | .internal =>
    match g.internal with
    | .ringTimeout callId :: _ => g.callIdMatches callId
    | _ => false
  | .inviteTimeout i => g.timeoutDue i
  | _ => false

/-- Does a task of the call wait for the final response to this INVITE? -/
def awaits (g : State) (invite : Request) (resp : Response) : Bool :=
  g.leg.any fun l ↦ l.role == .toSip && l.invite == invite &&
    (resp.headers.topVia.bind Via.branch).any fun branch ↦
      (g.clientTxns.get? branch).any fun entry ↦
        entry.method == .invite && (g.chans.get? entry.chan).isSome &&
          l.waiting.any fun txn ↦ txn.chan == entry.chan

/-- What an event has to satisfy so that every final response is acknowledged: one that arrives
is the first to the INVITE of the call, whose task waits for it, and until the event loop has
handled it nothing ends the call. -/
def takesFinal (g : State) (e : Event × Env) : Bool :=
  g.stopped ||
    match e.1 with
    | .response resp =>
      ((ledger g).due g.now resp).all fun i ↦ g.awaits i resp && !g.finalWaiting
    | _ => !(g.finalWaiting && g.givesUp cfg e)

end State

/-! ## The invariant -/

/-- The INVITE of a call of ours says what the call does. -/
structure Leg.Ours (l : Leg) : Prop where
  method : l.invite.method = .invite
  callId : l.invite.headers.callId = some l.callId
  cseq : l.invite.headers.cseq = some (l.localCseq, .invite)
  lt : l.localCseq < 2 ^ 32

theorem Leg.Ours.of_narrows {l l' : Leg} (h : l.Ours) (hn : l'.Narrows l) : l'.Ours where
  method := hn.invite ▸ h.method
  callId := by rw [hn.invite, hn.callId, h.callId]
  cseq := by rw [hn.invite, hn.localCseq, h.cseq]
  lt := hn.localCseq ▸ h.lt

/-- At most the final response to the INVITE of the call is not acknowledged, and it waits for
the event loop in this place. -/
structure Acked (p : Place) (g : State) : Prop where
  byes : (ledger g).byes = []
  acks : (ledger g).acks = [] ∨
    g.DueAt p ∧ ∃ l, g.leg = some l ∧ (ledger g).acks = [l.invite]
  ours : ∀ l, g.leg = some l → l.role = .toSip → l.Ours ∧ l.invite ∉ (ledger g).givenUp
  waiting : ∀ l, g.leg = some l → ∀ txn ∈ l.waiting,
    txn.chan < g.nextChan ∧ ∀ b ∈ g.background, b.chan ≠ txn.chan
  background : ∀ b ∈ g.background, b.chan < g.nextChan
  cseq : g.cseq < 2 ^ 32

theorem acked_init (p : Place) (now : Nat) : Acked p (State.init now) where
  byes := rfl
  acks := .inl rfl
  ours := by simp [State.leg, State.init]
  waiting := by simp [State.leg, State.init]
  background := by simp [State.init]
  cseq := by simp [State.init]

section Frame

variable {g g' : State} {p p' : Place}

/-- Nothing waits, so nothing is owed. -/
theorem Acked.nothingOwed (ha : Acked p g) (h : g.finalWaiting = false) : (ledger g).acks = [] := by
  rcases ha.acks with hnil | ⟨hdue, -⟩
  · exact hnil
  · exact absurd (hdue.finalWaiting.symm.trans h) (by decide)

/-- The invariant is kept by what owes nothing new and keeps what waits. -/
theorem Acked.frame (ha : Acked p g) (hledger : Ledger.Le (ledger g') (ledger g))
    (hleg : ∀ l', g'.leg = some l' →
      (∃ l, g.leg = some l ∧ l'.Narrows l) ∨ l'.role = .fromSip ∧ l'.waiting = [])
    (hacks : (ledger g').acks = [] ∨ (g.DueAt p → g'.DueAt p'))
    (hback : ∀ b ∈ g'.background,
      b ∈ g.background ∨ g.nextChan ≤ b.chan ∧ b.chan < g'.nextChan)
    (hnext : g.nextChan ≤ g'.nextChan) (hcseq : g.cseq < 2 ^ 32 → g'.cseq < 2 ^ 32) :
    Acked p' g' := by
  refine ⟨?_, ?_, ?_, ?_, ?_, hcseq ha.cseq⟩
  · exact List.sublist_nil.mp (ha.byes ▸ hledger.byes)
  · rcases ha.acks with h | ⟨hwait, l, hl, hl'⟩
    · exact .inl (List.sublist_nil.mp (h ▸ hledger.acks))
    · rcases hacks with h | hkeep
      · exact .inl h
      · -- The leg is still there, because something waits for it.
        have hwait' := hkeep hwait
        obtain ⟨l', hleg', hrole', -⟩ := id hwait'
        rcases hleg l' hleg' with ⟨l₀, hl₀, hn⟩ | ⟨hrole, -⟩
        · obtain rfl := Option.some.inj (hl₀.symm.trans hl)
          rcases (List.sublist_singleton.mp (hl' ▸ hledger.acks)) with h | h
          · exact .inl h
          · exact .inr ⟨hwait', l', hleg', by rw [h, hn.invite]⟩
        · exact absurd (hrole.symm.trans hrole') (by decide)
  · intro l' hl' hrole'
    rcases hleg l' hl' with ⟨l, hl, hn⟩ | ⟨hrole, -⟩
    · obtain ⟨hours, hgiven⟩ := ha.ours l hl (hn.role ▸ hrole')
      exact ⟨hours.of_narrows hn, fun h ↦ hgiven (hn.invite ▸ hledger.givenUp h)⟩
    · exact absurd (hrole.symm.trans hrole') (by decide)
  · intro l' hl' txn htxn
    rcases hleg l' hl' with ⟨l, hl, hn⟩ | ⟨-, hnone⟩
    · obtain ⟨hlt, hne⟩ := ha.waiting l hl txn (hn.waiting htxn)
      refine ⟨hlt.trans_le hnext, fun b hb ↦ ?_⟩
      rcases hback b hb with hold | hnew
      · exact hne b hold
      · omega
    · simp [hnone] at htxn
  · intro b hb
    rcases hback b hb with hold | hnew
    · exact (ha.background b hold).trans_le hnext
    · exact hnew.2

/-- A change that the invariant does not look at. -/
theorem Acked.congr (ha : Acked p g) (hlog : g'.log = g.log) (hleg : g'.leg = g.leg)
    (hchans : g'.chans = g.chans) (hinternal : g.internal <+: g'.internal)
    (hback : g'.background = g.background) (hnext : g'.nextChan = g.nextChan)
    (hcseq : g'.cseq = g.cseq) : Acked p g' := by
  refine ha.frame ?_ ?_ (.inr fun h ↦ ?_) ?_ hnext.ge (hcseq ▸ id)
  · rw [show ledger g' = ledger g by rw [ledger, hlog, ledger]]
    exact .refl _
  · exact fun l' hl' ↦ .inl ⟨l', hleg ▸ hl', .refl l'⟩
  · obtain ⟨l, hl, hrole, hdue⟩ := h
    refine ⟨l, hleg.trans hl, hrole, ?_⟩
    exact hdue.mono rfl (fun _ _ ht hf ↦ ⟨ht, hchans ▸ hf⟩) hinternal
  · exact fun b hb ↦ .inl (hback ▸ hb)

theorem Acked.steady {P : Entry → Prop} (ha : Acked p g) (hs : Steady P g g')
    (hP : ∀ e, P e → e.Quiet) : Acked p g' := by
  obtain ⟨new, hback, -, hnew⟩ := hs.background
  refine ha.frame (hs.ledger_le hP) (fun l' hl' ↦ .inl ⟨l', hs.leg ▸ hl', .refl l'⟩)
    (.inr fun h ↦ ?_) (fun b hb ↦ ?_) hs.nextChan hs.cseq
  · obtain ⟨l, hl, hrole, hdue⟩ := h
    refine ⟨l, hs.leg.trans hl, hrole, ?_⟩
    refine hdue.mono rfl (fun txn n htxn hfinal ↦ ⟨htxn, ?_⟩) (hs.internal ▸ List.prefix_rfl)
    obtain ⟨q, hq, hr⟩ := hfinal
    exact ⟨q, (hs.chans _ (ha.waiting l hl txn htxn).1).trans hq, hr⟩
  · rw [hback] at hb
    rcases List.mem_append.mp hb with hold | hadded
    · exact .inl hold
    · exact .inr (hnew b hadded)

/-- A handler that sends and answers at most. -/
theorem Acked.allowed {resp : Option Nat → Nat → Prop} {meth : Method → Prop} (ha : Acked p g)
    (hs : Steady (Entry.Allowed resp meth) g g') : Acked p g' :=
  ha.steady hs fun _ ↦ Entry.Allowed.quiet

theorem Acked.emit (ha : Acked p g) {e : Entry} (he : e.Quiet) : Acked p (g.emit e) :=
  ha.steady (.emit g he) fun _ ↦ id

/-- The account after a handler that owed nothing. -/
theorem Steady.nothingOwed {P : Entry → Prop} (hs : Steady P g g') (hP : ∀ e, P e → e.Quiet)
    (h : (ledger g).acks = []) : (ledger g').acks = [] :=
  List.sublist_nil.mp (h ▸ (hs.ledger_le hP).acks)

/-- A call may leave its slot once nothing is owed. -/
theorem Acked.finishCall (ha : Acked p g) (h : (ledger g).acks = []) (disposition : Str) :
    Acked p (g.finishCall disposition) := by
  cases hc : g.call with
  | none => simpa [State.finishCall, hc] using ha
  | some c =>
      have hledger : ledger (g.finishCall disposition) = (ledger g).finish c.callId :=
        ledger_of_log (g.finishCall_log hc disposition)
      have hleg : (g.finishCall disposition).leg = none := by simp [State.leg]
      have hrest : (g.finishCall disposition).background = g.background ∧
          (g.finishCall disposition).nextChan = g.nextChan ∧
          (g.finishCall disposition).cseq = g.cseq := by
        unfold State.finishCall
        rw [hc]
        dsimp only [State.emit]
        rw [State.dropTasks_eq]
        exact ⟨rfl, rfl, rfl⟩
      refine ⟨?_, .inl ?_, ?_, ?_, ?_, ?_⟩
      · rw [hledger]
        exact ha.byes
      · rw [hledger]
        exact h
      · simp [hleg]
      · simp [hleg]
      · rw [hrest.1, hrest.2.1]
        exact ha.background
      · rw [hrest.2.2]
        exact ha.cseq

/-- A handler that says goodbye before the call leaves its slot. -/
theorem Acked.finishCall_of_steady {resp : Option Nat → Nat → Prop} {meth : Method → Prop}
    (ha : Acked p g) (hs : Steady (Entry.Allowed resp meth) g g') (h : (ledger g).acks = [])
    (disposition : Str) : Acked p (g'.finishCall disposition) :=
  (ha.allowed hs).finishCall (hs.nothingOwed (fun _ ↦ Entry.Allowed.quiet) h) disposition

theorem Acked.teardownCall (ha : Acked p g) (h : (ledger g).acks = []) (reason : Str) (code : Nat) :
    Acked p (g.teardownCall cfg env reason code) := by
  obtain ⟨g', hs, heq⟩ := g.teardownCall_eq cfg env reason code
  rw [heq]
  exact ha.finishCall_of_steady hs h reason

end Frame

/-! ## The ACK -/

/-- A copy of the INVITE under another method keeps the Call-ID, and says its own sequence
number. -/
theorem State.inviteAs_get (c : ActiveCall) (method : Method) :
    (inviteAs c method).headers.get "call-id" = c.invite.headers.get "call-id" ∧
      (inviteAs c method).headers.get "cseq" =
        some (dec c.localCseq ++ ' ' :: method.asStr) := by
  constructor
  · refine ((Headers.get_set ..).trans (if_neg (by decide))).trans ?_
    exact (Headers.get_remove ..).trans (if_neg (by decide))
  · exact Headers.get_set_self ..

section Ack

variable {g g' : State} {c : ActiveCall} {p p' : Place}

/-- An ACK with the Call-ID and the sequence number of the call settles what is owed. -/
theorem Acked.ack (ha : Acked p g) (hc : g.call = some c) (hrole : c.role = .toSip) {req : Request}
    {dest : SocketAddr} (hmethod : req.method = .ack)
    (hid : req.headers.get "call-id" = some c.callId)
    (hseq : req.headers.get "cseq" = some (dec c.localCseq ++ ' ' :: Method.ack.asStr))
    (hlog : g'.log = g.log ++ [(g.now, .send req dest)]) : (ledger g').acks = [] := by
  have hl := State.leg_of_call hc
  obtain ⟨hours, -⟩ := ha.ours c.leg hl hrole
  have hmatch : acknowledges req c.invite = true := by
    have hcseq : req.headers.cseq = some (c.localCseq, .ack) := Headers.cseq_of_get hseq hours.lt
    have hcseq' : c.invite.headers.cseq = some (c.localCseq, .invite) := hours.cseq
    have hid' : c.invite.headers.callId = some c.callId := hours.callId
    rw [acknowledges, hid', Headers.callId, hid, State.cseqNumber, hcseq, State.cseqNumber, hcseq']
    simp
  have hledger : (ledger g').acks = (ledger g).acks.eraseP (acknowledges req) := by
    rw [ledger_of_log hlog, Run.run_cons, Run.run_nil, Ledger.add, Ledger.send, hmethod]
  rw [hledger]
  rcases ha.acks with h | ⟨-, l, hl', h⟩
  · rw [h, List.eraseP_nil]
  · obtain rfl := Option.some.inj (hl.symm.trans hl')
    rw [h]
    exact List.eraseP_cons_of_pos hmatch

/-- In a call that is not ours nothing is owed. -/
theorem Acked.nothingOwed_of_role (ha : Acked p g) (hc : g.call = some c) (hrole : c.role ≠ .toSip) :
    (ledger g).acks = [] := by
  refine ha.nothingOwed (Bool.eq_false_iff.mpr fun hwait ↦ ?_)
  obtain ⟨l, hl, hrole', -⟩ := State.finalWaiting_iff.mp hwait
  obtain rfl := Option.some.inj ((State.leg_of_call hc).symm.trans hl)
  exact hrole hrole'

/-- The ACK of a failure settles the account, from any queue of internal events. -/
theorem Acked.ackFailure (ha : Acked p g) (hc : g.call = some c) (rest : List Internal)
    (resp : Response) :
    (ledger (({ g with internal := rest } : State).ackFailure env resp)).acks = [] := by
  unfold State.ackFailure
  rw [hc]
  dsimp only
  split
  · rename_i hrole
    exact ha.nothingOwed_of_role hc hrole
  · rename_i hrole
    replace hrole : c.role = .toSip := not_not.mp hrole
    obtain ⟨hours, -⟩ := ha.ours c.leg (State.leg_of_call hc) hrole
    obtain ⟨hid, hseq⟩ := State.inviteAs_get c .ack
    replace hid := hid.trans hours.callId
    refine ha.ack hc hrole (by rfl) ?_ ?_ (State.emit_log ..)
    · split
      · exact ((Headers.get_set ..).trans (if_neg (by decide))).trans hid
      · exact hid
    · split
      · exact ((Headers.get_set ..).trans (if_neg (by decide))).trans hseq
      · exact hseq

/-- The ACK of a 2xx settles it as well. -/
theorem Acked.acked (ha : Acked p g) (hc : g.call = some c) (rest : List Internal)
    (resp : Response) :
    (ledger (({ g with internal := rest } : State).acked cfg env c resp)).acks = [] := by
  by_cases hrole : c.role = .toSip
  · have hleg := State.learnPeer_leg env c resp
    have ha' : Acked p { g with call := some (State.learnPeer env c resp) } :=
      ha.allowed (Steady.setCall hc hleg
        (fun _ hm ↦ .inl (State.learnPeer_media env c resp ▸ hm))
        (State.learnPeer_mmPath env c resp) : Steady Entry.Silent g _)
    refine ha'.ack rfl ((congrArg Leg.role hleg).trans hrole) (by rfl) ?_ ?_ (State.emit_log ..)
    · refine ((Headers.get_set ..).trans (if_neg (by decide))).trans ?_
      exact (State.buildRequest_get ..).1
    · exact Headers.get_set_self ..
  · refine (State.acked_steady cfg env _ hc resp).nothingOwed (fun _ ↦ Entry.Allowed.quiet) ?_
    exact ha.nothingOwed_of_role hc hrole

/-- Once nothing is owed it does not matter what waited before. -/
theorem Acked.settled {P : Entry → Prop} (ha : Acked p g) {rest : List Internal}
    (hs : Steady P { g with internal := rest } g') (hP : ∀ e, P e → e.Quiet)
    (h : (ledger g').acks = []) : Acked p' g' := by
  obtain ⟨new, hback, -, hnew⟩ := hs.background
  have hledger : Ledger.Le (ledger g') (ledger g) := hs.ledger_le hP
  refine ha.frame hledger (fun l' hl' ↦ .inl ⟨l', (hs.leg ▸ hl' : g.leg = some l'), .refl l'⟩)
    (.inl h) (fun b hb ↦ ?_) hs.nextChan hs.cseq
  rw [hback] at hb
  rcases List.mem_append.mp hb with hold | hadded
  · exact .inl hold
  · exact .inr (hnew b hadded)

end Ack

/-! ## The handlers -/

section Handlers

variable {g : State} {p p' : Place}

/-- A change of the call that keeps what its INVITE is about. -/
theorem Acked.updateCall (ha : Acked p g) {f : ActiveCall → ActiveCall}
    (hf : ∀ c, (f c).leg.Narrows c.leg) (hw : ∀ c, (f c).leg.waiting = c.leg.waiting) :
    Acked p (g.updateCall f) := by
  have hleg : (g.updateCall f).leg = g.call.map fun c ↦ (f c).leg := by
    simp only [State.leg, State.updateCall, Option.map_map]
    rfl
  refine ha.frame (.refl _) (fun l' hl' ↦ .inl ?_) (.inr fun h ↦ ?_) (fun _ ↦ .inl) le_rfl id
  · obtain ⟨c, hc, rfl⟩ := Option.map_eq_some_iff.mp (hleg ▸ hl')
    exact ⟨c.leg, State.leg_of_call hc, hf c⟩
  · obtain ⟨l, hl, hrole, hdue⟩ := h
    obtain ⟨c, hc, rfl⟩ := Option.map_eq_some_iff.mp hl
    refine ⟨(f c).leg, by rw [hleg, hc]; rfl, (hf c).role.trans hrole, ?_⟩
    exact hdue.mono (hf c).callId (fun _ _ ht hfinal ↦ ⟨hw c ▸ ht, hfinal⟩) List.prefix_rfl

/-- The INVITE that the call is about from now on was just sent. -/
theorem Acked.place (ha : Acked p g) (hnone : (ledger g).acks = []) {req : Request}
    {dest : SocketAddr} {txn : ClientTxn} (hmethod : req.method = .invite)
    (hsent : (g.takeCseq.2.sendRequest env req dest).2 = some txn) {c : ActiveCall}
    (hinvite : c.invite = req) (hid : req.headers.get "call-id" = some c.callId)
    (hcseq : c.localCseq = g.cseq)
    (hseq : req.headers.get "cseq" = some (dec g.cseq ++ ' ' :: Method.invite.asStr))
    (hwait : ∀ t ∈ c.leg.waiting, t = txn ∨ ∃ l, g.leg = some l ∧ t ∈ l.waiting) :
    Acked p { (g.takeCseq.2.sendRequest env req dest).1 with call := some c } := by
  obtain ⟨-, hchan, hg'⟩ := State.sendRequest_some env g.takeCseq.2 hsent
  have hlog : (g.takeCseq.2.sendRequest env req dest).1.log =
      g.log ++ [(g.now, .send req dest)] := by
    rw [hg']
    rfl
  have hledger : ledger (g.takeCseq.2.sendRequest env req dest).1 = (ledger g).send req :=
    ledger_of_log hlog
  have hled : Ledger.Le ((ledger g).send req) (ledger g) := Ledger.send_le ..
  have hlt := ha.cseq
  refine ⟨?_, .inl ?_, ?_, ?_, ?_, ?_⟩
  · change (ledger (g.takeCseq.2.sendRequest env req dest).1).byes = []
    rw [hledger]
    exact List.sublist_nil.mp (ha.byes ▸ hled.byes)
  · change (ledger (g.takeCseq.2.sendRequest env req dest).1).acks = []
    rw [hledger]
    exact List.sublist_nil.mp (hnone ▸ hled.acks)
  · rintro l hl -
    obtain rfl : c.leg = l := Option.some.inj hl
    refine ⟨⟨?_, ?_, ?_, ?_⟩, ?_⟩
    · exact (congrArg Request.method hinvite).trans hmethod
    · exact (congrArg (fun r : Request ↦ r.headers.callId) hinvite).trans hid
    · change c.invite.headers.cseq = some (c.localCseq, .invite)
      rw [hinvite, hcseq]
      exact Headers.cseq_of_get hseq hlt
    · exact hcseq.trans_lt hlt
    · change c.invite ∉ (ledger (g.takeCseq.2.sendRequest env req dest).1).givenUp
      rw [hledger, hinvite, Ledger.send, hmethod]
      simp
  · intro l hl t ht
    obtain rfl : c.leg = l := Option.some.inj hl
    change t.chan < (g.takeCseq.2.sendRequest env req dest).1.nextChan ∧
      ∀ b ∈ (g.takeCseq.2.sendRequest env req dest).1.background, b.chan ≠ t.chan
    rw [hg']
    rcases hwait t ht with rfl | ⟨l, hl, hold⟩
    · exact ⟨hchan ▸ Nat.lt_succ_self _, fun b hb ↦ hchan ▸ Nat.ne_of_lt (ha.background b hb)⟩
    · obtain ⟨hlt, hne⟩ := ha.waiting l hl t hold
      exact ⟨Nat.lt_succ_of_lt hlt, hne⟩
  · intro b hb
    change b.chan < (g.takeCseq.2.sendRequest env req dest).1.nextChan
    change b ∈ (g.takeCseq.2.sendRequest env req dest).1.background at hb
    rw [hg'] at hb ⊢
    exact Nat.lt_succ_of_lt (ha.background b hb)
  · change (g.takeCseq.2.sendRequest env req dest).1.cseq < 2 ^ 32
    rw [hg']
    exact Nat.mod_lt _ (by decide)

/-! ### SIP requests -/

theorem Acked.onSipInvite (ha : Acked p g) (txn : Nat) (req : Request) (src : SocketAddr) :
    Acked p (g.onSipInvite cfg env txn req src).1 := by
  unfold State.onSipInvite
  cases hc : g.call with
  | none =>
      dsimp only
      cases hadm : g.admits req with
      | false =>
          obtain ⟨code, -, heq⟩ := g.onNewInvite_refused cfg env txn req src hadm
          rw [heq]
          exact ha.allowed (g.reply_steady cfg env txn req src code)
      | true =>
          obtain ⟨number, sdp, codec, recipient, sender, callId, heq⟩ :=
            g.onNewInvite_admitted cfg env txn req src hadm
          have htried := g.reply_steady cfg env txn req src 100
          rw [heq]
          split
          · obtain ⟨g', hs, heq | ⟨c, hrole, -, -, htasks, heq⟩⟩ :=
              (g.reply cfg env txn req src 100).1.placeCall_cases (P := Entry.Quiet) cfg env txn req
                src number sdp codec recipient sender callId (fun _ _ ↦ trivial) trivial trivial
            · rw [heq]
              exact ha.steady (htried.quiet.trans hs) fun _ ↦ id
            · rw [heq]
              have ha' := ha.steady (htried.quiet.trans hs) fun _ ↦ id
              have hnone : g'.leg = none := by
                rw [hs.leg, htried.leg]
                simp [State.leg, hc]
              refine ha'.frame (.refl _) (fun l' hl' ↦ .inr ?_) (.inl (ha'.nothingOwed ?_))
                (fun _ ↦ .inl) le_rfl id
              · obtain rfl : c.leg = l' := Option.some.inj hl'
                exact ⟨hrole, by simp [ActiveCall.leg, htasks]⟩
              · simp [State.finalWaiting, hnone]
          · exact ha.allowed htried
  | some c =>
      dsimp only
      split
      · split
        · split
          · exact ha.allowed (g.respondWithMedia_steady cfg env 183)
          · exact ha.allowed (g.sendProvisional_steady cfg env 180)
        · exact ha.allowed (g.onSipReinvite_steady cfg env txn req src)
      · exact ha.allowed (g.reply_steady cfg env txn req src 486)

/-- A BYE ends the call in whose dialog it is. -/
theorem Acked.onSipBye (ha : Acked p g) (txn : Nat) (req : Request) (src : SocketAddr)
    (h : g.inDialog req = true → env.sendOk g.log.length = true → (ledger g).acks = []) :
    Acked p (g.onSipBye cfg env txn req src).1 := by
  unfold State.onSipBye
  dsimp only
  generalize g.response cfg env req (if g.inDialog req then 200 else 481) = resp
  have hresp : Steady (Entry.Answers (some txn) fun _ ↦ True) g
      (g.respond env (some txn) req resp src).1 := .emit g ⟨rfl, trivial⟩
  split
  · exact ha.allowed hresp
  · rename_i hok
    split
    · rename_i hin
      refine ha.finishCall_of_steady (hresp.trans (State.hangupMobile_steady _).allowed) ?_ _
      exact h hin (by simpa [State.respond] using hok)
    · exact ha.allowed hresp

/-- A CANCEL ends a call that is not ours. -/
theorem Acked.onSipCancel (ha : Acked p g) (txn : Nat) (req : Request) (src : SocketAddr) :
    Acked p (g.onSipCancel cfg env txn req src).1 := by
  have hresp : Steady (Entry.Allowed (fun _ _ ↦ True) fun _ ↦ False) g
      (g.respond env (some txn) req (g.response cfg env req 200) src).1 := .emit g trivial
  unfold State.onSipCancel
  dsimp only
  split
  · exact ha.allowed hresp
  · split
    · exact ha.allowed hresp
    · rename_i c hc
      split
      · rename_i hcancels
        have hrole : c.role = .fromSip := by
          obtain ⟨⟨⟨hrole, -⟩, -⟩, -⟩ :
              ((c.role = .fromSip ∧ c.answered = false) ∧ some c.callId = req.headers.callId) ∧
                State.cseqNumber req.headers = State.cseqNumber c.invite.headers := by
            simpa [State.cancels] using hcancels
          exact hrole
        have hnone := ha.nothingOwed_of_role hc (by simp [hrole])
        have hend (g' : State) (hs : Steady (Entry.Allowed (fun _ _ ↦ True) fun _ ↦ False) g g') :
            Acked p (g'.hangupMobile.finishCall "sip cancel") :=
          ha.finishCall_of_steady (hs.trans (State.hangupMobile_steady _).allowed) hnone _
        exact hend _ (hresp.trans (.emit _ trivial))
      · exact ha.allowed hresp

theorem Acked.onSipRequest (ha : Acked p g) (txn : Nat) (req : Request) (src : SocketAddr)
    (h : req.method = .bye → g.inDialog req = true → env.sendOk g.log.length = true →
      (ledger g).acks = []) : Acked p (g.onSipRequest cfg env txn req src).1 := by
  unfold State.onSipRequest
  cases hm : req.method with
  | invite => exact ha.onSipInvite cfg env txn req src
  | ack => exact ha
  | bye => exact ha.onSipBye cfg env txn req src (h hm)
  | cancel => exact ha.onSipCancel cfg env txn req src
  | info => exact ha.allowed (g.onSipInfo_steady cfg env txn req src)
  | message => exact ha.allowed (g.onSipMessage_steady cfg env txn req src)
  | _ =>
      have hs : Steady (Entry.Answers (some txn) fun _ ↦ True) g
          (g.respond env (some txn) req (g.response cfg env req 405) src).1 :=
        .emit g ⟨rfl, trivial⟩
      exact ha.allowed hs

/-! ### Events of the modem -/

theorem Acked.onMmCallAdded (ha : Acked p g) (path : Path) : Acked p (g.onMmCallAdded cfg env path) := by
  have hemit (g' : State) (h : Acked p g') : Acked p (g'.emit (.hangup path)) := h.emit trivial
  unfold State.onMmCallAdded
  split
  · exact ha
  · split
    · exact ha
    · split
      · exact ha
      · rename_i info _
        split
        · exact ha.emit trivial
        · split
          · exact hemit g ha
          · split
            · exact hemit g ha
            · rename_i hidle
              have hleg : g.leg = none := by simpa [State.leg] using hidle
              rcases g.startSipCall_cases cfg env path info with
                heq | ⟨req, dest, hmethod, hsent⟩
              · simp only [heq]
                exact hemit g ha
              · rcases hsent with heq | ⟨txn, c, deadline, hsent, hp, hreq, hcseq, -, htasks, -, heq⟩
                · simp only [heq]
                  exact hemit _ <| ha.allowed <| (Steady.takeCseq g).trans <|
                    State.sendRequest_steady (P := Entry.Sends (· = .invite)) _ _ _ _ hmethod
                · simp only [heq]
                  have ha' := ha.place env (ha.nothingOwed (by simp [State.finalWaiting, hleg]))
                    hmethod hsent hreq (hreq ▸ hp.callId) hcseq (hcseq ▸ hreq ▸ hp.cseq)
                    (by simp [ActiveCall.leg, htasks, Task.inviteTxn?])
                  exact ha'.emit (e := .cdrStarted c.peerNumber) trivial

/-- The call of either side is answered on the mobile side. -/
theorem Acked.onModemAnswered (ha : Acked p g) : Acked p (g.onModemAnswered cfg env) := by
  have hans {g' : State} (ha' : Acked p g') :
      Acked p (g'.updateCall fun c ↦ { c with answered := true }) :=
    ha'.updateCall (fun c ↦ ⟨rfl, rfl, rfl, rfl, fun _ ↦ id⟩) fun _ ↦ rfl
  have hconfirm {g' : State} (ha' : Acked p g') (c : ActiveCall) :=
    State.cdrAnswered_of (P := Acked p) (hans ha') (fun _ ↦ (hans ha').emit trivial) c.cdrId
  unfold State.onModemAnswered
  split
  · exact ha
  · rename_i c hc
    dsimp only
    split
    · rename_i hrole
      have hs := g.respondWithMedia_steady cfg env 200
      split
      · refine (ha.allowed hs).teardownCall cfg env ?_ _ _
        refine hs.nothingOwed (fun _ ↦ Entry.Allowed.quiet) (ha.nothingOwed_of_role hc ?_)
        simp [hrole]
      · exact hconfirm (ha.allowed hs) c
    · exact hconfirm ha c

theorem Acked.onMmCallState (ha : Acked p g) (path : Path) (new : Int) (reason : Nat)
    (h : g.mmPath = some path → new = stateTerminated → (ledger g).acks = []) :
    Acked p (g.onMmCallState cfg env path new reason) := by
  unfold State.onMmCallState
  split
  · exact ha
  · rename_i c hfilter
    obtain ⟨hc, hpath⟩ : g.call = some c ∧ c.mmPath = some path := by
      simpa using Option.filter_eq_some_iff.mp hfilter
    split
    · split
      · split
        · have hearly := ha.allowed (g.startEarlyMedia_steady cfg env)
          dsimp only
          split
          · exact hearly
          · exact hearly.allowed (State.sendProvisional_steady cfg env _ 180)
        · exact ha.allowed (g.sendProvisional_steady cfg env 180)
      · exact ha
    · split
      · split
        · exact ha
        · exact ha.onModemAnswered cfg env
      · split
        · rename_i hnew
          exact ha.teardownCall cfg env (h (by simp [State.mmPath, hc, hpath]) hnew) _ _
        · exact ha

/-! ### Internal events -/

/-- The queue has lost its first event. -/
def Place.pop : Place → Place
  | .channel txn n => .channel txn n
  | .queue n => .queue (n - 1)

/-- An internal event that reports no final response to the call is taken off the queue. -/
theorem Acked.pop (ha : Acked p g) {ev : Internal} {rest : List Internal}
    (hq : g.internal = ev :: rest)
    (h : (ledger g).acks = [] ∨ ∀ l, g.leg = some l → ev.isOutcome l.callId = false) :
    Acked p.pop { g with internal := rest } := by
  refine ha.frame (.refl _) (fun l' hl' ↦ .inl ⟨l', hl', .refl l'⟩) ?_ (fun _ ↦ .inl) le_rfl id
  rcases h with h | h
  · exact .inl h
  · refine .inr fun hwait ↦ ?_
    obtain ⟨l, hl, hrole, hdue⟩ := hwait
    refine ⟨l, hl, hrole, ?_⟩
    cases p with
    | channel txn n => exact hdue
    | queue n =>
        obtain ⟨ev', hev, hout⟩ := hdue
        rw [hq] at hev
        cases n with
        | zero => cases hev
        | succ n =>
            rw [List.take_succ_cons] at hev
            rcases List.mem_cons.mp hev with rfl | hmem
            · exact absurd ((h l hl).symm.trans hout) (by decide)
            · exact ⟨ev', hmem, hout⟩

/-- A 2xx is acknowledged before anything else happens to the call. -/
theorem Acked.onSipAnswered (ha : Acked p g) {c : ActiveCall} (hc : g.call = some c)
    (rest : List Internal) (resp : Response) :
    Acked p' (({ g with internal := rest } : State).onSipAnswered cfg env resp) := by
  have hs := State.acked_steady cfg env { g with internal := rest } hc resp
  have hnone := ha.acked cfg env hc rest resp
  have ha' : Acked p' _ := ha.settled hs (fun _ ↦ Entry.Allowed.quiet) hnone
  have hans := ha'.updateCall (f := fun c ↦ { c with answered := true })
    (fun c ↦ ⟨rfl, rfl, rfl, rfl, fun _ ↦ id⟩) fun _ ↦ rfl
  rcases State.onSipAnswered_cases cfg env { g with internal := rest } hc resp with
    heq | ⟨g', hs', heq⟩
  · rw [heq]
    exact ha'
  · rcases heq with heq | ⟨reason, code, heq⟩ <;> rw [heq]
    · exact hans.allowed hs'
    · exact (hans.allowed hs').teardownCall cfg env
        (hs'.nothingOwed (fun _ ↦ Entry.Allowed.quiet) hnone) reason code

/-- A failure is acknowledged, and then the INVITE is sent again or the call is over. -/
theorem Acked.onSipFailed (ha : Acked p g) {c : ActiveCall} (hc : g.call = some c)
    (rest : List Internal) (resp : Response) :
    Acked p' (({ g with internal := rest } : State).onSipFailed md5Hex cfg env resp) := by
  have hs := State.ackFailure_steady env { g with internal := rest } resp
  have hnone := ha.ackFailure env hc rest resp
  have ha' : Acked p' _ := ha.settled hs (fun _ ↦ Entry.Allowed.quiet) hnone
  unfold State.onSipFailed
  revert hnone ha'
  generalize ({ g with internal := rest } : State).ackFailure env resp = g₁
  intro hnone ha'
  have hend {M : Method → Prop} (g' : State) (hs : Steady (Entry.Sends M) g₁ g') :
      Acked p' (g'.hangupMobile.finishCall "sip rejected") :=
    ha'.finishCall_of_steady (hs.trans (State.hangupMobile_steady _).allowed) hnone _
  dsimp only
  split
  · rcases g₁.retryInviteWithAuth_cases md5Hex cfg env resp with
      ⟨g', hs, heq⟩ | ⟨c, req, txn, deadline, hc', hrole, -, hmethod, hid, hseq, hsent, heq⟩
    · rw [heq]
      exact hend g' hs
    · rw [heq]
      obtain ⟨hours, -⟩ := ha'.ours c.leg (State.leg_of_call hc') hrole
      obtain ⟨-, -, hg'⟩ := State.sendRequest_some env g₁.takeCseq.2 hsent
      have hcall : (g₁.takeCseq.2.sendRequest env req c.remoteAddr).1.call = some c := by
        rw [hg']
        exact hc'
      simp only [if_true, State.updateCall, hcall, Option.map_some]
      refine ha'.place env hnone (hmethod.trans hours.method) hsent rfl (hid.trans hours.callId) rfl
        hseq fun t ht ↦ ?_
      rcases (by simpa [ActiveCall.leg, Task.inviteTxn?] using ht :
        (∃ task ∈ c.tasks, task.inviteTxn? = some t) ∨ t = txn) with ⟨task, hmem, htask⟩ | rfl
      · exact .inr ⟨c.leg, State.leg_of_call hc', List.mem_filterMap.mpr ⟨task, hmem, htask⟩⟩
      · exact .inl rfl
  · exact hend (M := fun _ ↦ False) g₁ (.refl _ g₁)

theorem Acked.onInternal (ha : Acked p g) {ev : Internal} {rest : List Internal}
    (hq : g.internal = ev :: rest)
    (h : ∀ callId, ev = .ringTimeout callId → g.callIdMatches callId = true →
      (ledger g).acks = []) :
    Acked p.pop (({ g with internal := rest } : State).onInternal md5Hex cfg env ev) := by
  have hother {callId : Str} (hno : ¬ ({ g with internal := rest } : State).callIdMatches callId)
      (hev : ∀ id, ev.isOutcome id = true → id = callId) : Acked p.pop { g with internal := rest } := by
    refine ha.pop hq (.inr fun l hl ↦ Bool.eq_false_iff.mpr fun hout ↦ hno ?_)
    obtain ⟨c, hc, rfl⟩ := Option.map_eq_some_iff.mp hl
    have hid : c.callId = callId := hev _ hout
    simp [State.callIdMatches, hc, hid]
  cases ev with
  | sipProgress callId code => exact ha.pop hq (.inr fun _ _ ↦ rfl)
  | sipAnswered callId resp =>
      dsimp only [State.onInternal]
      split
      · rename_i hmatch
        obtain ⟨c, hc, -⟩ := (Option.any_eq_true ..).mp hmatch
        exact ha.onSipAnswered cfg env hc rest resp
      · rename_i hno
        exact hother hno fun id hout ↦ (by simpa [Internal.isOutcome] using hout : callId = id).symm
  | sipFailed callId resp =>
      dsimp only [State.onInternal]
      split
      · rename_i hmatch
        obtain ⟨c, hc, -⟩ := (Option.any_eq_true ..).mp hmatch
        exact ha.onSipFailed md5Hex cfg env hc rest resp
      · rename_i hno
        exact hother hno fun id hout ↦ (by simpa [Internal.isOutcome] using hout : callId = id).symm
  | ringTimeout callId =>
      have ha' : Acked p.pop { g with internal := rest } := ha.pop hq (.inr fun _ _ ↦ rfl)
      dsimp only [State.onInternal]
      split
      · rename_i hmatch
        have hs := (State.cancelOutgoingInvite_steady env { g with internal := rest }).trans
          (State.hangupMobile_steady _).allowed
        exact ha'.finishCall_of_steady hs (h callId rfl hmatch) _
      · exact ha'
  | earlyMediaAudio callId level =>
      have ha' : Acked p.pop { g with internal := rest } := ha.pop hq (.inr fun _ _ ↦ rfl)
      dsimp only [State.onInternal]
      split
      · exact ha'.allowed (State.upgradeToEarlyMedia_steady cfg env _)
      · exact ha'
  | dtmf callId digit =>
      have ha' : Acked p.pop { g with internal := rest } := ha.pop hq (.inr fun _ _ ↦ rfl)
      dsimp only [State.onInternal]
      split
      · exact ha'.allowed (State.deliverDtmf_steady cfg env _ _)
      · exact ha'
  | dtmfFromModem callId digit =>
      have ha' : Acked p.pop { g with internal := rest } := ha.pop hq (.inr fun _ _ ↦ rfl)
      dsimp only [State.onInternal]
      split
      · exact ha'.allowed (State.sendDtmfInfo_steady cfg env _ _)
      · exact ha'
  | smsRetry path attempt =>
      have ha' : Acked p.pop { g with internal := rest } := ha.pop hq (.inr fun _ _ ↦ rfl)
      exact ha'.emit trivial

/-! ### The tasks beside the loop -/

/-- What the end of a task leaves as it is. -/
theorem State.endTask_spec (g : State) (i : Nat) :
    (g.endTask i).log = g.log ∧ (g.endTask i).internal = g.internal ∧
      (g.endTask i).background = g.background ∧ (g.endTask i).nextChan = g.nextChan ∧
      (g.endTask i).cseq = g.cseq ∧
      ∀ l', (g.endTask i).leg = some l' → ∃ l, g.leg = some l ∧ l'.Narrows l := by
  have hleg (l' : Leg) (hl' : (g.call.map fun c ↦ { c with tasks := c.tasks.eraseIdx i }).map
      ActiveCall.leg = some l') : ∃ l, g.leg = some l ∧ l'.Narrows l := by
    simp only [Option.map_map, Option.map_eq_some_iff] at hl'
    obtain ⟨c, hc, rfl⟩ := hl'
    refine ⟨c.leg, State.leg_of_call hc, rfl, rfl, rfl, rfl, fun txn htxn ↦ ?_⟩
    obtain ⟨task, htask, heq⟩ := List.mem_filterMap.mp htxn
    exact List.mem_filterMap.mpr ⟨task, List.mem_of_mem_eraseIdx htask, heq⟩
  unfold State.endTask
  split
  · exact ⟨rfl, rfl, rfl, rfl, rfl, fun l hl ↦ ⟨l, hl, .refl l⟩⟩
  · dsimp only
    split <;> exact ⟨rfl, rfl, rfl, rfl, rfl, hleg⟩

theorem State.endTask_call {i : Nat} {task : Task} {c : ActiveCall} (hc : g.call = some c)
    (htask : (g.call.bind fun c ↦ c.tasks[i]?) = some task) :
    (g.endTask i).call = some { c with tasks := c.tasks.eraseIdx i } := by
  unfold State.endTask
  rw [htask]
  dsimp only
  split <;> simp [State.dropTxn, State.updateCall, hc]

/-- The end of a task with nothing in its channel keeps what waits. -/
theorem State.endTask_dueAt {i : Nat} {task : Task}
    (htask : (g.call.bind fun c ↦ c.tasks[i]?) = some task)
    (hempty : ∀ txn n, task.inviteTxn? = some txn → ¬ HoldsFinal g.chans txn n)
    (h : g.DueAt p) : (g.endTask i).DueAt p := by
  obtain ⟨l, hl, hrole, hdue⟩ := h
  obtain ⟨c, hc, rfl⟩ := Option.map_eq_some_iff.mp hl
  have hi : c.tasks[i]? = some task := by simpa [hc] using htask
  have hchan (txn : ClientTxn) (n : Nat) (hfinal : HoldsFinal g.chans txn n) :
      HoldsFinal (g.endTask i).chans txn n := by
    unfold State.endTask
    rw [htask]
    dsimp only
    split
    · rename_i txn' deadline
      obtain ⟨q, hq, hr⟩ := hfinal
      have hne : txn.chan ≠ txn'.chan := fun heq ↦ hempty txn' n rfl ⟨q, heq ▸ hq, hr⟩
      exact ⟨q, (Map.get?_erase ..).trans ((if_neg hne).trans hq), hr⟩
    · exact hfinal
  refine ⟨_, State.leg_of_call (State.endTask_call hc htask), hrole, ?_⟩
  refine hdue.mono rfl (fun txn n htxn hfinal ↦ ⟨?_, hchan txn n hfinal⟩)
    ((g.endTask_spec i).2.1 ▸ List.prefix_rfl)
  obtain ⟨task', hmem, heq⟩ := List.mem_filterMap.mp htxn
  refine List.mem_filterMap.mpr ⟨task', ?_, heq⟩
  obtain ⟨j, hj⟩ := List.mem_iff_getElem?.mp hmem
  refine List.mem_eraseIdx_iff_getElem?.mpr ⟨j, fun hji ↦ ?_, hj⟩
  obtain rfl : task' = task := Option.some.inj (hj.symm.trans (hji ▸ hi))
  exact hempty txn n heq hfinal

theorem Acked.enqueue (ha : Acked p g) (ev : Internal) : Acked p (g.enqueue ev) :=
  ha.congr rfl rfl rfl (List.prefix_append _ _) rfl rfl rfl

theorem Acked.endTask (ha : Acked p g) (i : Nat)
    (h : (ledger g).acks = [] ∨ (g.DueAt p → (g.endTask i).DueAt p)) :
    Acked p (g.endTask i) := by
  obtain ⟨hlog, -, hback, hnext, hcseq, hleg⟩ := g.endTask_spec i
  have hledger : ledger (g.endTask i) = ledger g := by rw [ledger, hlog, ledger]
  refine ha.frame (hledger ▸ .refl _) (fun l' hl' ↦ .inl (hleg l' hl')) (hledger ▸ h)
    (fun b hb ↦ .inl (hback ▸ hb)) hnext.ge (hcseq ▸ id)

theorem Acked.audioHeard (ha : Acked p g) (level : Nat) : Acked p (g.audioHeard level) := by
  unfold State.audioHeard
  split
  · exact ha
  · rename_i c hc
    split
    · rename_i i hi
      split
      · exact ha
      · have htask : (g.call.bind fun c ↦ c.tasks[i]?) = some .watchEarlyMedia := by
          obtain ⟨hlt, heq, -⟩ := List.idxOf?_eq_some_iff.mp hi
          simpa [hc, List.getElem?_eq_some_iff] using ⟨hlt, heq⟩
        refine (ha.endTask i (.inr ?_)).enqueue _
        exact State.endTask_dueAt htask (fun txn _ h ↦ by simp [Task.inviteTxn?] at h)
    · exact ha

theorem Acked.relayDigit (ha : Acked p g) (task : Task) (ev : Str → Internal) :
    Acked p (g.relayDigit task ev) := by
  unfold State.relayDigit
  split
  · exact ha
  · split
    · exact ha.enqueue _
    · exact ha

theorem Acked.onRtp (ha : Acked p g) (src : SocketAddr) : Acked p (g.onRtp cfg src) := by
  unfold State.onRtp
  split
  · exact ha
  · rename_i c hc
    split
    · exact ha
    · rename_i m _
      split
      · have ha' : Acked p { g with call := some { c with
            media := some (m.receive cfg.symmetric g.now src) } } := by
          refine ha.congr rfl ?_ rfl List.prefix_rfl rfl rfl rfl
          simp [State.leg, hc, ActiveCall.leg]
        exact ha'.emit trivial
      · exact ha

/-- This event is the one of the task that waits for this transaction, and its report finds room. -/
def State.Reads (g : State) (txn : ClientTxn) (e : Event) : Prop :=
  ∃ i deadline, e = .inviteTask i ∧ g.internalFull = false ∧
    (g.call.bind fun c ↦ c.tasks[i]?) = some (.inviteResponse txn deadline)

/-- This event brings what is in this place nearer to the event loop. -/
def State.HandsOn (g : State) (e : Event) : Place → Prop
  | .channel txn _ => g.Reads txn e
  | .queue _ => e = .internal

/-- From one place to the next: never back, and nearer with an event that hands it on. -/
structure Handed (g : State) (e : Event) (p p' : Place) : Prop where
  keeps : p' = p ∨ p'.Nearer p
  hands : g.HandsOn e p → p'.Nearer p

theorem Handed.refl {e : Event} (h : ¬ g.HandsOn e p) : Handed g e p p :=
  ⟨.inl rfl, fun hhands ↦ absurd hhands h⟩

theorem Handed.nearer {e : Event} (h : p'.Nearer p) : Handed g e p p' := ⟨.inr h, fun _ ↦ h⟩

/-- A task that reads nothing at this place hands nothing on. -/
theorem Handed.stays {i : Nat} (h : ∀ txn n, p = .channel txn n → ¬ g.Reads txn (.inviteTask i)) :
    Handed g (.inviteTask i) p p := by
  refine .refl fun hhands ↦ ?_
  cases p with
  | queue n => cases hhands
  | channel txn n => exact h txn n rfl hhands

section Read

variable {i : Nat} {txn : ClientTxn} {deadline : Nat}
  (htask : (g.call.bind fun c ↦ c.tasks[i]?) = some (.inviteResponse txn deadline))
include htask

/-- A task reads for its own transaction, and with room for its report. -/
theorem State.Reads.of_task {txn' : ClientTxn} (h : g.Reads txn' (.inviteTask i)) :
    g.internalFull = false ∧ txn' = txn := by
  obtain ⟨j, deadline', he, hroom, htask'⟩ := h
  obtain rfl := Event.inviteTask.inj he
  obtain ⟨rfl, -⟩ := Task.inviteResponse.inj (Option.some.inj (htask'.symm.trans htask))
  exact ⟨hroom, rfl⟩

/-- A task takes a provisional response out of its channel: a final one behind it moves up. -/
theorem Acked.readProvisional (ha : Acked p g) {resp : Response} {rest : List Response}
    (hq : g.chans.get? txn.chan = some (resp :: rest)) (hprov : resp.isProvisional = true) :
    ∃ p', Acked p' { g with chans := g.chans.insert txn.chan rest } ∧
      ((ledger g).acks = [] ∨ Handed g (.inviteTask i) p p') := by
  have hframe {p' : Place} (h : (ledger g).acks = [] ∨ (g.DueAt p →
      ({ g with chans := g.chans.insert txn.chan rest } : State).DueAt p')) :
      Acked p' { g with chans := g.chans.insert txn.chan rest } :=
    ha.frame (.refl _) (fun l hl ↦ .inl ⟨l, hl, .refl l⟩) h (fun _ ↦ .inl) le_rfl id
  cases p with
  | queue n => exact ⟨.queue n, hframe (.inr id), .inr (.stays fun txn' n' h ↦ by cases h)⟩
  | channel txn' n =>
      by_cases hch : txn'.chan = txn.chan
      · rcases ha.acks with hnil | ⟨⟨-, -, -, -, q, hq', r, hr, hfin⟩, -⟩
        · exact ⟨.queue 0, hframe (.inl hnil), .inl hnil⟩
        obtain rfl : resp :: rest = q := Option.some.inj (hq.symm.trans (hch ▸ hq'))
        cases n with
        | zero => cases hr
        | succ n =>
            rw [List.take_succ_cons] at hr
            rcases List.mem_cons.mp hr with rfl | hmem
            · exact absurd (hprov.symm.trans hfin) (by decide)
            refine ⟨.channel txn' n, hframe (.inr ?_), .inr (.nearer (.read txn' n))⟩
            rintro ⟨l, hl, hrole, htxn', -⟩
            exact ⟨l, hl, hrole, htxn', rest, (Map.get?_insert ..).trans (if_pos hch), r, hmem, hfin⟩
      · refine ⟨.channel txn' n, hframe (.inr ?_), .inr (.stays fun txn'' n' h hreads ↦ ?_)⟩
        · rintro ⟨l, hl, hrole, htxn', q, hq', hfin⟩
          exact ⟨l, hl, hrole, htxn', q, (Map.get?_insert ..).trans ((if_neg hch).trans hq'), hfin⟩
        · obtain ⟨rfl, -⟩ := Place.channel.inj h
          exact hch (congrArg ClientTxn.chan (hreads.of_task htask).2)

/-- A task ends with the report of a final response, which waits in the place of the response. -/
theorem Acked.reportFinal (ha : Acked p g) {c : ActiveCall} (hc : g.call = some c)
    (rest : List Response) {ev : Internal} (hev : ev.isOutcome c.callId = true) :
    ∃ p', Acked p' ((({ g with chans := g.chans.insert txn.chan rest } : State).endTask i).enqueue ev) ∧
      ((ledger g).acks = [] ∨ Handed g (.inviteTask i) p p') := by
  obtain ⟨hlog, hinternal, hback, hnext, hcseq, hleg⟩ :=
    State.endTask_spec { g with chans := g.chans.insert txn.chan rest } i
  have hledger : ledger ((({ g with chans := g.chans.insert txn.chan rest } :
      State).endTask i).enqueue ev) = ledger g := congrArg (Run.run Ledger.add .empty) hlog
  have hqueued : ((({ g with chans := g.chans.insert txn.chan rest } : State).endTask i).enqueue
      ev).internal = g.internal ++ [ev] := congrArg (· ++ [ev]) hinternal
  have hcall := State.endTask_call (g := { g with chans := g.chans.insert txn.chan rest }) hc htask
  have hframe {n : Nat} (h : g.DueAt p →
      ∃ ev' ∈ (g.internal ++ [ev]).take n, ev'.isOutcome c.callId = true) : Acked (.queue n)
      ((({ g with chans := g.chans.insert txn.chan rest } : State).endTask i).enqueue ev) := by
    refine ha.frame (hledger ▸ .refl _) (fun l' hl' ↦ .inl (hleg l' hl')) (.inr fun hdue ↦ ?_)
      (fun b hb ↦ .inl (hback ▸ hb)) hnext.ge fun hlt ↦ hcseq.trans_lt hlt
    obtain ⟨l, hl, hrole, -⟩ := id hdue
    obtain rfl := Option.some.inj ((State.leg_of_call hc).symm.trans hl)
    obtain ⟨ev', hmem, hout⟩ := h hdue
    exact ⟨_, State.leg_of_call hcall, hrole, ev', hqueued ▸ hmem, hout⟩
  cases p with
  | queue n =>
      refine ⟨.queue n, hframe ?_, .inr (.stays fun txn' n' h ↦ by cases h)⟩
      rintro ⟨l, hl, -, ev', hmem, hout⟩
      obtain rfl := Option.some.inj ((State.leg_of_call hc).symm.trans hl)
      exact ⟨ev', mem_take_of_prefix (List.prefix_append _ _) hmem, hout⟩
  | channel txn' n =>
      refine ⟨.queue (g.internal ++ [ev]).length, hframe fun _ ↦ ⟨ev, ?_, hev⟩,
        .inr (.nearer (.reported txn' n _))⟩
      rw [List.take_length]
      exact List.mem_append_right _ List.mem_cons_self

/-- Out of an empty channel nothing is handed on. -/
theorem Acked.handed_of_empty (ha : Acked p g) (hempty : ∀ n, ¬ HoldsFinal g.chans txn n) :
    (ledger g).acks = [] ∨ Handed g (.inviteTask i) p p := by
  rcases ha.acks with hnil | ⟨⟨_, _, _, hdue⟩, -⟩
  · exact .inl hnil
  refine .inr (.stays fun txn' n hp hreads ↦ ?_)
  subst hp
  obtain rfl := (hreads.of_task htask).2
  exact hempty n hdue.2

end Read

/-- A task of the call reads its channel: a final response is passed on with its task's report. -/
theorem Acked.inviteTask (ha : Acked p g) (i : Nat) : ∃ p', Acked p' (g.inviteTask i) ∧
    ((ledger g).acks = [] ∨ Handed g (.inviteTask i) p p') := by
  unfold State.inviteTask
  split
  · rename_i c txn deadline hc htask
    split
    · rename_i hfull
      refine ⟨p, ha, .inr (.stays fun txn' n hp hreads ↦ ?_)⟩
      exact absurd (hfull.symm.trans (hreads.of_task htask).1) (by decide)
    · split
      · rename_i resp rest hq
        dsimp only
        split
        · rename_i hprov
          obtain ⟨p', ha', hhanded⟩ := ha.readProvisional htask hq hprov
          split
          · exact ⟨p', ha'.enqueue _, hhanded⟩
          · exact ⟨p', ha', hhanded⟩
        · split
          · exact ha.reportFinal htask hc rest (by simp [Internal.isOutcome])
          · exact ha.reportFinal htask hc rest (by simp [Internal.isOutcome])
      · rename_i hq
        have hempty (n : Nat) : ¬ HoldsFinal g.chans txn n := by
          rintro ⟨q, hq', r, hr, -⟩
          cases q with
          | nil => simp at hr
          | cons r' rest => exact hq r' rest hq'
        have hhanded := ha.handed_of_empty htask hempty
        split
        · exact ⟨p, ha, hhanded⟩
        · refine ⟨p, (ha.endTask i (.inr (State.endTask_dueAt htask ?_))).enqueue _, hhanded⟩
          rintro txn' n htxn'
          obtain rfl : txn = txn' := Option.some.inj htxn'
          exact hempty n
  · rename_i hno
    refine ⟨p, ha, .inr (.stays fun txn n hp hreads ↦ ?_)⟩
    obtain ⟨j, deadline, he, -, htask⟩ := hreads
    obtain rfl := Event.inviteTask.inj he
    obtain ⟨c, hc, -⟩ := Option.bind_eq_some_iff.mp htask
    exact hno c txn deadline hc htask

theorem State.awaits_iff {invite : Request} {resp : Response} :
    g.awaits invite resp = true ↔ ∃ l, g.leg = some l ∧ l.role = .toSip ∧ l.invite = invite ∧
      ∃ branch, resp.headers.topVia.bind Via.branch = some branch ∧
        ∃ entry, g.clientTxns.get? branch = some entry ∧ entry.method = .invite ∧
          (g.chans.get? entry.chan).isSome ∧ ∃ txn ∈ l.waiting, txn.chan = entry.chan := by
  simp only [State.awaits, Option.any_eq_true, Bool.and_eq_true, beq_iff_eq, List.any_eq_true,
    and_assoc]

/-- No response is taken out of a channel. -/
theorem State.onResponse_holdsFinal (resp : Response) {txn : ClientTxn} {n : Nat}
    (h : HoldsFinal g.chans txn n) : HoldsFinal (g.onResponse resp).chans txn n := by
  obtain ⟨q, hq, r, hr, hfinal⟩ := h
  unfold State.onResponse
  dsimp only
  split
  · split
    · rename_i entry _
      split
      · exact ⟨q, hq, r, hr, hfinal⟩
      · dsimp only [State.emit]
        split
        · rename_i queue hqueue
          by_cases hch : txn.chan = entry.chan
          · obtain rfl : queue = q := Option.some.inj (hqueue.symm.trans (hch ▸ hq))
            exact ⟨_, (Map.get?_insert ..).trans (if_pos hch), r,
              mem_take_of_prefix (List.prefix_append _ _) hr, hfinal⟩
          · exact ⟨q, (Map.get?_insert ..).trans ((if_neg hch).trans hq), r, hr, hfinal⟩
        · exact ⟨q, hq, r, hr, hfinal⟩
    · exact ⟨q, hq, r, hr, hfinal⟩
  · exact ⟨q, hq, r, hr, hfinal⟩

/-- A final response to a transaction that is waited for gets into its channel. -/
theorem State.onResponse_delivers {invite : Request} {resp : Response} {branch : Str}
    {entry : ClientTxnEntry} {txn : ClientTxn} (hfinal : finalTo invite resp = true)
    (hbranch : resp.headers.topVia.bind Via.branch = some branch)
    (hentry : g.clientTxns.get? branch = some entry) (hmethod : entry.method = .invite)
    (hchan : (g.chans.get? entry.chan).isSome) (heq : txn.chan = entry.chan) :
    ∃ n, HoldsFinal (g.onResponse resp).chans txn n := by
  obtain ⟨⟨hcode, -⟩, hcseq⟩ : (200 ≤ resp.code ∧ _) ∧ _ := by
    simpa only [finalTo, Bool.and_eq_true, decide_eq_true_eq] using hfinal
  obtain ⟨⟨n, method⟩, hcseq, hm⟩ := (Option.any_eq_true ..).mp hcseq
  obtain rfl : method = .invite := by simpa using hm
  obtain ⟨queue, hqueue⟩ := Option.isSome_iff_exists.mp hchan
  refine ⟨(queue ++ [resp]).length, queue ++ [resp], ?_, resp, by rw [List.take_length]; simp, ?_⟩
  · have hentry' : (g.emit (.heard resp)).clientTxns.get? branch = some entry := hentry
    have hqueue' : (g.emit (.heard resp)).chans.get? entry.chan = some queue := hqueue
    simp only [State.onResponse, hbranch, hcseq, hentry', hmethod, hqueue', heq, ne_eq,
      not_true_eq_false, if_false, Map.get?_insert_self]
  · simp [Response.isProvisional]
    omega

/-- A response from the network joins the queue of its transaction; a final response does so in
the channel that a task of the call reads. -/
theorem Acked.onResponse (ha : Acked p g) (resp : Response)
    (h : ∀ i ∈ (ledger g).due g.now resp, g.awaits i resp = true ∧ g.finalWaiting = false) :
    ∃ p', Acked p' (g.onResponse resp) ∧ ((ledger g).acks = [] ∨ p' = p) := by
  have hspec : (g.onResponse resp).log = g.log ++ [(g.now, .heard resp)] ∧
      (g.onResponse resp).leg = g.leg ∧ (g.onResponse resp).internal = g.internal ∧
      (g.onResponse resp).background = g.background ∧
      (g.onResponse resp).nextChan = g.nextChan ∧ (g.onResponse resp).cseq = g.cseq := by
    unfold State.onResponse
    dsimp only
    split
    · split
      · split <;> exact ⟨rfl, rfl, rfl, rfl, rfl, rfl⟩
      · exact ⟨rfl, rfl, rfl, rfl, rfl, rfl⟩
    · exact ⟨rfl, rfl, rfl, rfl, rfl, rfl⟩
  obtain ⟨hlog, hleg, hinternal, hback, hnext, hcseq⟩ := hspec
  have hledger : ledger (g.onResponse resp) = (ledger g).hear g.now resp := ledger_of_log hlog
  have hours (l : Leg) (hl : (g.onResponse resp).leg = some l) (hrole : l.role = .toSip) :
      l.Ours ∧ l.invite ∉ (ledger (g.onResponse resp)).givenUp := by
    rw [hledger]
    exact ha.ours l (hleg ▸ hl) hrole
  have hwaiting (l : Leg) (hl : (g.onResponse resp).leg = some l) (txn : ClientTxn)
      (htxn : txn ∈ l.waiting) : txn.chan < (g.onResponse resp).nextChan ∧
        ∀ b ∈ (g.onResponse resp).background, b.chan ≠ txn.chan := by
    rw [hnext, hback]
    exact ha.waiting l (hleg ▸ hl) txn htxn
  have hbackground (b : ClientTxn) (hb : b ∈ (g.onResponse resp).background) :
      b.chan < (g.onResponse resp).nextChan := by
    rw [hnext]
    exact ha.background b (hback ▸ hb)
  cases hdue : (ledger g).due g.now resp with
  | nil =>
      refine ⟨p, ha.frame ?_ (fun l hl ↦ .inl ⟨l, hleg ▸ hl, .refl l⟩) (.inr fun hwait ↦ ?_)
        (fun b hb ↦ .inl (hback ▸ hb)) hnext.ge (hcseq ▸ id), .inr rfl⟩
      · rw [hledger, Ledger.hear, hdue]
        exact ⟨fun _ ↦ id, by simp, by simp⟩
      · obtain ⟨l, hl, hrole, hwait⟩ := hwait
        refine ⟨l, hleg.trans hl, hrole, ?_⟩
        exact hwait.mono rfl (fun txn n htxn hfinal ↦ ⟨htxn, State.onResponse_holdsFinal resp hfinal⟩)
          (hinternal ▸ List.prefix_rfl)
  | cons i is =>
      have hmem : i ∈ (ledger g).due g.now resp := hdue ▸ List.mem_cons_self
      obtain ⟨hawaits, hquiet⟩ := h i hmem
      obtain ⟨l, hl, hrole, rfl, branch, hbranch, entry, hentry, hmethod, hchan, txn, htxn, heq⟩ :=
        State.awaits_iff.mp hawaits
      -- Nothing else is due, since every INVITE is in the account once.
      have his : is = [] := by
        refine List.eq_nil_iff_forall_not_mem.mpr fun j hj ↦ ?_
        obtain ⟨hj', -⟩ := h j (hdue ▸ List.mem_cons_of_mem _ hj)
        obtain ⟨l', hl', -, hinv, -⟩ := State.awaits_iff.mp hj'
        obtain rfl := Option.some.inj (hl.symm.trans hl')
        have hnodup : (l.invite :: is).Nodup := hdue ▸ (nodup_sent g).filter _
        exact (List.nodup_cons.mp hnodup).1 (hinv ▸ hj)
      subst his
      obtain ⟨hfinal, -⟩ : finalTo l.invite resp = true ∧ _ :=
        (Bool.and_eq_true ..).mp (List.mem_filter.mp hmem).2
      obtain ⟨n, hholds⟩ := State.onResponse_delivers hfinal hbranch hentry hmethod hchan heq
      refine ⟨.channel txn n, ⟨?_, .inr ⟨?_, l, hleg.trans hl, ?_⟩, hours, hwaiting, hbackground,
        hcseq ▸ ha.cseq⟩, .inl (ha.nothingOwed hquiet)⟩
      · have hgiven : l.invite ∉ (ledger g).givenUp := (ha.ours l hl hrole).2
        rw [hledger, Ledger.hear, hdue, ha.byes]
        simp [hgiven]
      · exact ⟨l, hleg.trans hl, hrole, htxn, hholds⟩
      · rw [hledger, Ledger.hear, hdue, ha.nothingOwed hquiet]
        rfl

/-- A ring timeout is reported while nothing waits. -/
theorem Acked.inviteTimeout (ha : Acked p g) (i : Nat)
    (h : g.timeoutDue i = true → (ledger g).acks = []) : Acked p (g.inviteTimeout i) := by
  unfold State.inviteTimeout
  split
  · rename_i c txn deadline hc htask
    split
    · exact ha
    · rename_i hdue
      refine (ha.endTask i (.inl (h ?_))).enqueue _
      simpa [State.timeoutDue, htask] using hdue
  · exact ha

end Handlers

/-! ## Runs -/

section Step

variable {g : State} {p : Place} {e : Event} {env : Env}

/-- Whatever gives the call up finds nothing owed. -/
theorem Acked.nothingOwed_of_givesUp (ha : Acked p g) (hrun : g.stopped = false)
    (htakes : g.takesFinal cfg (e, env) = true) (hresp : ∀ r, e ≠ .response r)
    (hgives : g.givesUp cfg (e, env) = true) : (ledger g).acks = [] := by
  refine ha.nothingOwed ?_
  unfold State.takesFinal at htakes
  rw [hrun, Bool.false_or] at htakes
  split at htakes
  · rename_i r heq
    exact absurd heq (hresp r)
  · simpa [hgives] using htakes

/-- The loop takes an event from its queue. -/
theorem Acked.step_internal (ha : Acked p g) (hrun : g.stopped = false)
    (htakes : g.takesFinal cfg (.internal, env) = true) :
    ∃ p', Acked p' (g.step md5Hex cfg (.internal, env)) ∧
      ((ledger g).acks = [] ∨ Handed g .internal p p') := by
  have hgo : ¬ g.stopped = true := by simp [hrun]
  unfold State.step
  dsimp only
  rw [if_neg hgo]
  have hchannel (txn : ClientTxn) (n : Nat) : ¬ g.HandsOn .internal (.channel txn n) := by
    rintro ⟨_, _, ⟨⟩, -⟩
  split
  · rename_i hq
    refine ⟨p, ha, ?_⟩
    rcases ha.acks with hnil | ⟨⟨_, _, _, hdue⟩, -⟩
    · exact .inl hnil
    cases p with
    | channel txn n => exact .inr (.refl (hchannel txn n))
    | queue n =>
        obtain ⟨ev, hev, -⟩ := hdue
        rw [hq] at hev
        exact absurd (List.mem_of_mem_take hev) List.not_mem_nil
  · rename_i ev rest hq
    refine ⟨p.pop, ha.onInternal md5Hex cfg env hq fun callId hev hmatch ↦
      ha.nothingOwed_of_givesUp cfg hrun htakes (by simp) (by simp [State.givesUp, hq, hev, hmatch]), ?_⟩
    rcases ha.acks with hnil | ⟨⟨_, _, _, hdue⟩, -⟩
    · exact .inl hnil
    cases p with
    | channel txn n => exact .inr (.refl (hchannel txn n))
    | queue n =>
        cases n with
        | zero =>
            obtain ⟨_, hev, -⟩ := hdue
            cases hev
        | succ n => exact .inr (.nearer (.popped n))

/-- Every other event but a response leaves everything in its place. -/
theorem Acked.step_elsewhere (ha : Acked p g) (hrun : g.stopped = false)
    (htakes : g.takesFinal cfg (e, env) = true) (hinternal : e ≠ .internal)
    (htask : ∀ i, e ≠ .inviteTask i) (hresp : ∀ r, e ≠ .response r) :
    Acked p (g.step md5Hex cfg (e, env)) := by
  have hgo : ¬ g.stopped = true := by simp [hrun]
  have hnone (hgives : g.givesUp cfg (e, env) = true) : (ledger g).acks = [] :=
    ha.nothingOwed_of_givesUp cfg hrun htakes hresp hgives
  unfold State.step
  dsimp only
  rw [if_neg hgo]
  cases e with
  | request req src =>
      have ha' : Acked p { g with nextTxn := g.nextTxn + 1 } :=
        ha.congr rfl rfl rfl List.prefix_rfl rfl rfl rfl
      refine ha'.onSipRequest cfg env _ req src fun hm hin hok ↦ hnone ?_
      have hin' : g.inDialog req = true := hin
      have hok' : env.sendOk g.log.length = true := hok
      simp [State.givesUp, hm, hin', hok']
  | modemUp modem => exact ha.congr rfl rfl rfl List.prefix_rfl rfl rfl rfl
  | modemDown =>
      have ha' : Acked p { g with modem := none } := ha.congr rfl rfl rfl List.prefix_rfl rfl rfl rfl
      exact ha'.teardownCall cfg env (hnone rfl) _ _
  | callAdded path => exact ha.onMmCallAdded cfg env path
  | callDeleted path =>
      dsimp only
      split
      · rename_i hpath
        exact ha.teardownCall cfg env (hnone (by simp [State.givesUp, hpath])) _ _
      · exact ha
  | callState path new reason =>
      refine ha.onMmCallState cfg env path new reason fun hpath hnew ↦ hnone ?_
      simp [State.givesUp, hpath, hnew]
  | modemDtmf path digit =>
      dsimp only
      split
      · exact ha.allowed (g.sendDtmfInfo_steady cfg env digit)
      · exact ha
  | smsAdded path received => exact ha.emit trivial
  | internal => exact absurd rfl hinternal
  | tick =>
      dsimp only
      unfold State.checkMedia
      split
      · exact ha
      · rename_i c hc
        split
        · exact ha
        · rename_i m hm
          split
          · rename_i haudio
            exact ha.teardownCall cfg env (hnone (by simp [State.givesUp, hc, hm, haudio])) _ _
          · split
            · rename_i hsilent
              exact ha.teardownCall cfg env (hnone (by simp [State.givesUp, hc, hm, hsilent])) _ _
            · exact ha
  | shutdown =>
      exact (ha.teardownCall cfg env (hnone rfl) _ _).congr rfl rfl rfl List.prefix_rfl rfl rfl rfl
  | response resp => exact absurd rfl (hresp resp)
  | rtp src => exact ha.onRtp cfg src
  | inviteTask i => exact absurd rfl (htask i)
  | inviteTimeout i => exact ha.inviteTimeout i hnone
  | audioHeard level => exact ha.audioHeard level
  | rtpDigit digit => exact ha.relayDigit _ _
  | inbandDigit digit => exact ha.relayDigit _ _
  | transact req dest =>
      dsimp only
      split
      · exact ha
      · exact ha.allowed
          (g.sendInBackground_steady (P := Entry.Sends fun _ ↦ True) env req dest trivial)
  | backgroundDone i =>
      dsimp only
      split
      · exact ha
      · rename_i txn hi
        have hne (l : Leg) (hl : g.leg = some l) (txn' : ClientTxn) (htxn' : txn' ∈ l.waiting) :
            txn'.chan ≠ txn.chan :=
          ((ha.waiting l hl txn' htxn').2 txn (List.mem_of_getElem? hi)).symm
        refine ha.frame (.refl _) (fun l hl ↦ .inl ⟨l, hl, .refl l⟩) (.inr fun h ↦ ?_)
          (fun b hb ↦ .inl (List.mem_of_mem_eraseIdx hb)) le_rfl id
        obtain ⟨l, hl, hrole, hdue⟩ := h
        refine ⟨l, hl, hrole, hdue.mono rfl (fun txn' n htxn' hfinal ↦ ⟨htxn', ?_⟩) List.prefix_rfl⟩
        obtain ⟨q, hq, hr⟩ := hfinal
        exact ⟨q, (Map.get?_erase ..).trans ((if_neg (hne l hl txn' htxn')).trans hq), hr⟩
  | advance ms => exact ha.congr rfl rfl rfl List.prefix_rfl rfl rfl rfl

/-- What happens in one event keeps the invariant, and takes no final response back. -/
theorem Acked.step (ha : Acked p g) (hrun : g.stopped = false) (e : Event × Env)
    (htakes : g.takesFinal cfg e = true) : ∃ p', Acked p' (g.step md5Hex cfg e) ∧
      ((ledger g).acks = [] ∨ Handed g e.1 p p') := by
  obtain ⟨e, env⟩ := e
  by_cases hinternal : e = .internal
  · subst hinternal
    exact ha.step_internal md5Hex cfg hrun htakes
  by_cases htask : ∃ i, e = .inviteTask i
  · obtain ⟨i, rfl⟩ := htask
    obtain ⟨p', ha', hhanded⟩ := ha.inviteTask i
    refine ⟨p', ?_, hhanded⟩
    have hgo : ¬ g.stopped = true := by simp [hrun]
    unfold State.step
    dsimp only
    rw [if_neg hgo]
    exact ha'
  have hsame : ¬ g.HandsOn e p := by
    intro hhands
    cases p with
    | queue n => exact hinternal hhands
    | channel txn n =>
        obtain ⟨i, -, he, -⟩ := hhands
        exact htask ⟨i, he⟩
  by_cases hresp : ∃ r, e = .response r
  · obtain ⟨resp, rfl⟩ := hresp
    have hall : ∀ i ∈ (ledger g).due g.now resp,
        g.awaits i resp = true ∧ g.finalWaiting = false := by
      simpa [State.takesFinal, hrun] using htakes
    obtain ⟨p', ha', hplace⟩ := ha.onResponse resp hall
    refine ⟨p', ?_, hplace.imp_right ?_⟩
    · have hgo : ¬ g.stopped = true := by simp [hrun]
      unfold State.step
      dsimp only
      rw [if_neg hgo]
      exact ha'
    · rintro rfl
      exact .refl hsame
  · exact ⟨p, ha.step_elsewhere md5Hex cfg hrun htakes hinternal (fun i he ↦ htask ⟨i, he⟩)
      fun r he ↦ hresp ⟨r, he⟩, .inr (.refl hsame)⟩

end Step

/-- Somewhere it is in every state that a run reaches. -/
theorem acked_run (now : Nat) (es : List (Event × Env))
    (htakes : Run.Guarded (State.step md5Hex cfg) (fun g e ↦ g.takesFinal cfg e = true)
      (State.init now) es) : ∃ p, Acked p ((State.init now).run md5Hex cfg es) := by
  have hstep (g : State) (e : Event × Env) (h : ∃ p, Acked p g) (htakes : g.takesFinal cfg e = true) :
      ∃ p, Acked p (g.step md5Hex cfg e) := by
    obtain ⟨p, ha⟩ := h
    cases hrun : g.stopped with
    | true =>
        unfold State.step
        rw [if_pos hrun]
        exact ⟨p, ha⟩
    | false =>
        obtain ⟨p', ha', -⟩ := ha.step md5Hex cfg hrun e htakes
        exact ⟨p', ha'⟩
  exact htakes.invariant hstep ⟨.queue 0, acked_init _ now⟩

/-! ## What the tasks have to do -/

/-- The state after so many events of a run without end. -/
def State.after (g : State) (es : Nat → Event × Env) (n : Nat) : State :=
  Run.after (State.step md5Hex cfg) g es n

/-- There is something to read for the task that waits for this transaction. -/
def State.Readable (g : State) (txn : ClientTxn) : Prop :=
  ∃ l, g.leg = some l ∧ txn ∈ l.waiting ∧ ∃ q, g.chans.get? txn.chan = some q ∧ q ≠ []

/-- The program runs on, its loop takes an event from its queue again and again, and a task that can
read comes to do so. -/
structure Fair (g : State) (es : Nat → Event × Env) : Prop where
  running : ∀ n, (g.after md5Hex cfg es n).stopped = false
  loop : ∀ n, (g.after md5Hex cfg es n).internal ≠ [] → ∃ m, n ≤ m ∧ (es m).1 = .internal
  task : ∀ n txn, (g.after md5Hex cfg es n).Readable txn → ∃ m, n ≤ m ∧
    (¬ (g.after md5Hex cfg es m).Readable txn ∨ (g.after md5Hex cfg es m).Reads txn (es m).1)

/-- Then what is owed is given. -/
theorem Acked.eventually {g : State} {p : Place} (ha : Acked p g) {es : Nat → Event × Env}
    (htakes : ∀ n, (g.after md5Hex cfg es n).takesFinal cfg (es n) = true)
    (hfair : Fair md5Hex cfg g es) : ∃ n, (ledger (g.after md5Hex cfg es n)).acks = [] := by
  have hnext (n : Nat) (p : Place) (h : Acked p (g.after md5Hex cfg es n)) :
      ∃ p', Acked p' (g.after md5Hex cfg es (n + 1)) ∧
        ((ledger (g.after md5Hex cfg es n)).acks = [] ∨
          Handed (g.after md5Hex cfg es n) (es n).1 p p') :=
    h.step md5Hex cfg (hfair.running n) (es n) (htakes n)
  -- Where it is in its place, an event comes that hands it on.
  have hhelp (n : Nat) (p : Place) (h : Acked p (g.after md5Hex cfg es n)) : ∃ m, n ≤ m ∧
      (Acked p (g.after md5Hex cfg es m) → (ledger (g.after md5Hex cfg es m)).acks = [] ∨
        (g.after md5Hex cfg es m).HandsOn (es m).1 p) := by
    rcases h.acks with hnil | ⟨⟨l, hl, -, hdue⟩, -⟩
    · exact ⟨n, le_rfl, fun _ ↦ .inl hnil⟩
    cases p with
    | queue k =>
        obtain ⟨ev, hev, -⟩ := hdue
        obtain ⟨m, hle, hm⟩ := hfair.loop n (List.ne_nil_of_mem (List.mem_of_mem_take hev))
        exact ⟨m, hle, fun _ ↦ .inr hm⟩
    | channel txn k =>
        have hreadable (g' : State) (l : Leg) (hl : g'.leg = some l)
            (hdue : l.DueAt g'.chans g'.internal (.channel txn k)) : g'.Readable txn := by
          obtain ⟨htxn, q, hq, r, hr, -⟩ := hdue
          exact ⟨l, hl, htxn, q, hq, List.ne_nil_of_mem (List.mem_of_mem_take hr)⟩
        obtain ⟨m, hle, hm⟩ := hfair.task n txn (hreadable _ l hl hdue)
        refine ⟨m, hle, fun h' ↦ ?_⟩
        rcases h'.acks with hnil | ⟨⟨l', hl', -, hdue'⟩, -⟩
        · exact .inl hnil
        · exact .inr (hm.resolve_left (not_not.mpr (hreadable _ l' hl' hdue')))
  refine Run.eventually_of_rank Place.nearer_wf (s := g.after md5Hex cfg es) (P := Acked)
    (Q := fun g ↦ (ledger g).acks = []) (n := 0) (i := p) ?_ ?_ ha
  · intro n p h
    obtain ⟨p', h', hnil | hhanded⟩ := hnext n p h
    · exact .inl hnil
    · exact .inr ⟨p', h', hhanded.keeps⟩
  · intro n p h
    obtain ⟨m, hle, hm⟩ := hhelp n p h
    refine ⟨m, hle, fun h' ↦ ?_⟩
    rcases hm h' with hnil | hhands
    · exact .inl hnil
    · obtain ⟨p', h'', hnil | hhanded⟩ := hnext m p h'
      · exact .inl hnil
      · exact .inr ⟨p', h'', hhanded.hands hhands⟩

/-- Every final response is acknowledged: no BYE is owed, and an ACK only for the final response to
the INVITE of the call while it waits for the event loop. -/
def AllAcknowledged (g : State) : Prop :=
  (ledger g).byes = [] ∧ ((ledger g).acks = [] ∨
    g.finalWaiting = true ∧ ∃ l, g.leg = some l ∧ (ledger g).acks = [l.invite])

/-- In every run whose events leave the final responses to the task that waits for them, every one
is acknowledged; and if it goes on like that, the ACK that is owed is sent. -/
theorem all_acknowledged (now : Nat) (es : List (Event × Env))
    (htakes : Run.Guarded (State.step md5Hex cfg) (fun g e ↦ g.takesFinal cfg e = true)
      (State.init now) es) :
    let g := (State.init now).run md5Hex cfg es
    AllAcknowledged g ∧ ∀ rest : Nat → Event × Env,
      (∀ n, (g.after md5Hex cfg rest n).takesFinal cfg (rest n) = true) → Fair md5Hex cfg g rest →
        ∃ n, (ledger (g.after md5Hex cfg rest n)).acks = [] := by
  intro g
  obtain ⟨p, ha⟩ := acked_run md5Hex cfg now es htakes
  refine ⟨⟨ha.byes, ha.acks.imp_right fun ⟨hdue, hl⟩ ↦ ⟨hdue.finalWaiting, hl⟩⟩, ?_⟩
  exact fun rest hrest hfair ↦ ha.eventually md5Hex cfg hrest hfair

/-- A call from the mobile network is rejected by the SIP side. -/
def Sample.rejection : List (Event × Env) :=
  let placed := Sample.idle.run (fun _ ↦ []) (Sample.config false) [(.callAdded "/call/1", Sample.env)]
  let invite := (placed.call.map ActiveCall.invite).getD (.new .invite (.new none [] none))
  [ (.modemUp { ownNumber := none }, Sample.env),
    (.callAdded "/call/1", Sample.env),
    (.response (invite.reply 486 "Busy Here"), Sample.env),
    (.inviteTask 0, Sample.env),
    (.internal, Sample.env) ]

/-- The ACK of the rejection is lost, and the rejection is repeated: the call is gone, and nobody
acknowledges the copy. -/
theorem repeated_rejection_not_acknowledged :
    let copy := (Sample.rejection.drop 2).take 1
    ¬ AllAcknowledged ((State.init 1700000000000).run (fun _ ↦ []) (Sample.config false)
      (Sample.rejection ++ copy)) := by
  rintro copy ⟨-, hacks | ⟨hwait, -⟩⟩
  · have howed : (ledger ((State.init 1700000000000).run (fun _ ↦ []) (Sample.config false)
        (Sample.rejection ++ copy))).acks ≠ [] := by
      decide +kernel
    exact howed hacks
  · have hidle : ((State.init 1700000000000).run (fun _ ↦ []) (Sample.config false)
        (Sample.rejection ++ copy)).finalWaiting = false := by
      decide +kernel
    exact absurd (hwait.symm.trans hidle) (by decide)

/-- The rejection has arrived, and waits for its task. -/
def Sample.rejected : State :=
  (State.init 1700000000000).run (fun _ ↦ []) (Sample.config false) (Sample.rejection.take 3)

/-- The task reads what has come, and then the loop has its turn. -/
def Sample.turns : Nat → Event × Env
  | 0 => (.inviteTask 0, Sample.env)
  | _ + 1 => (.internal, Sample.env)

def Sample.afterTurns (n : Nat) : State :=
  Sample.rejected.after (fun _ ↦ []) (Sample.config false) Sample.turns n

/-- After two turns nothing is left to do. -/
theorem Sample.afterTurns_eq (n : Nat) : Sample.afterTurns (n + 2) = Sample.afterTurns 2 := by
  induction n with
  | zero => rfl
  | succ n ih =>
      have hidle : (Sample.afterTurns 2).internal = [] := by decide +kernel
      have hgo : ¬ (Sample.afterTurns 2).stopped = true := by decide +kernel
      have hstep : Sample.afterTurns (n + 1 + 2) =
          (Sample.afterTurns (n + 2)).step (fun _ ↦ []) (Sample.config false) (.internal, Sample.env) :=
        rfl
      rw [hstep, ih]
      unfold State.step
      dsimp only
      rw [if_neg hgo, hidle]

theorem Sample.forall_afterTurns {P : State → Prop} (h : P (Sample.afterTurns 1))
    (h' : P (Sample.afterTurns 2)) (n : Nat) : P (Sample.afterTurns (n + 1)) := by
  cases n with
  | zero => exact h
  | succ n =>
      rw [Sample.afterTurns_eq n]
      exact h'

theorem Sample.fair_turns : Fair (fun _ ↦ []) (Sample.config false) Sample.rejected Sample.turns where
  running n := by
    cases n with
    | zero => decide +kernel
    | succ n =>
        exact Sample.forall_afterTurns (P := fun g ↦ g.stopped = false) (by decide +kernel)
          (by decide +kernel) n
  loop n _ := ⟨n + 1, Nat.le_succ n, rfl⟩
  task n txn h := by
    obtain ⟨l, hl, htxn, -⟩ := h
    cases n with
    | zero =>
        refine ⟨0, le_rfl, .inr ?_⟩
        have hall : Sample.rejected.leg.all (fun l ↦ l.waiting.all fun txn ↦
            (Sample.rejected.call.bind fun c ↦ c.tasks[0]?).any fun task ↦
              decide (task.inviteTxn? = some txn)) = true := by
          decide +kernel
        replace hl : Sample.rejected.leg = some l := hl
        rw [hl, Option.all_some, List.all_eq_true] at hall
        obtain ⟨task, htask, heq⟩ := (Option.any_eq_true ..).mp (hall txn htxn)
        have heq := of_decide_eq_true heq
        cases task with
        | inviteResponse txn' deadline =>
            obtain rfl := Option.some.inj heq
            exact ⟨0, deadline, rfl, by decide +kernel, htask⟩
        | _ => cases heq
    | succ n =>
        -- The task has ended.
        have hnone := Sample.forall_afterTurns (P := fun g ↦ (g.leg.all fun l ↦ l.waiting.isEmpty) = true)
          (by decide +kernel) (by decide +kernel) n
        replace hl : (Sample.afterTurns (n + 1)).leg = some l := hl
        rw [hl, Option.all_some, List.isEmpty_iff] at hnone
        rw [hnone] at htxn
        exact absurd htxn List.not_mem_nil

/-- The ACK of the rejection is sent. -/
theorem all_acknowledged_rejected :
    (ledger Sample.rejected).acks ≠ [] ∧ AllAcknowledged Sample.rejected ∧
      ∃ n, (ledger (Sample.afterTurns n)).acks = [] := by
  obtain ⟨hall, heventually⟩ := all_acknowledged (fun _ ↦ []) (Sample.config false) 1700000000000
    (Sample.rejection.take 3) (by decide +kernel)
  refine ⟨by decide +kernel, hall, heventually Sample.turns ?_ Sample.fair_turns⟩
  intro n
  cases n with
  | zero => decide +kernel
  | succ n =>
      exact Sample.forall_afterTurns
        (P := fun g ↦ g.takesFinal (Sample.config false) (.internal, Sample.env) = true)
        (by decide +kernel) (by decide +kernel) n

end Modem2Sip.Gateway
