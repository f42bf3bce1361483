import Modem2Sip.Gateway.Hold

/-!
# Re-INVITEs out of order

The requests of a dialog are numbered, and UDP may deliver them in any order, so a
re-INVITE that is older than one already accepted must not have its way.  The code
compares the number of a re-INVITE with that of the first INVITE, and only in calls
it answered, and then takes the last offer to arrive.  Meanwhile RTP comes in, and
the first packet may say where the peer really is.  `ArriveInOrder` is what has to
hold of the arrivals for the newest re-INVITE to have its way.
-/

namespace Modem2Sip.Gateway

open Text Net Sip

variable (md5Hex : List UInt8 → Str) (cfg : Config)

/-! ## Accepted re-INVITEs -/

/-- Is this re-INVITE answered 200?  It is in the dialog of an answered call, numbered above the
caller's INVITE, and an offer it brings has the codec in use. -/
def takesReinvite (c : ActiveCall) (req : Request) : Bool :=
  !(!c.answered || (c.role == .fromSip &&
      State.optionLe (State.cseqNumber req.headers) (State.cseqNumber c.invite.headers))) &&
    inDialogOf c req &&
    !(State.usableOffer req).any fun o ↦ !o.payloadTypes.contains c.codec.payloadType

/-- The call after a re-INVITE. -/
def negotiate (now : Nat) (c : ActiveCall) (req : Request) : ActiveCall :=
  if takesReinvite c req then State.renegotiate now c (State.usableOffer req) else c

/-- The offer of the last re-INVITE that was accepted with one. -/
def lastOffer (c : ActiveCall) (reqs : List Request) : Option Sdp :=
  ((reqs.filter (takesReinvite c)).filterMap State.usableOffer).getLast?

theorem lastOffer_concat (c : ActiveCall) (reqs : List Request) (req : Request) :
    lastOffer c (reqs ++ [req]) =
      if takesReinvite c req then (State.usableOffer req).or (lastOffer c reqs)
      else lastOffer c reqs := by
  unfold lastOffer
  rw [List.filter_append, List.filterMap_append]
  cases htakes : takesReinvite c req with
  | false => simp [htakes]
  | true =>
      cases hoffer : State.usableOffer req with
      | none => simp [htakes, hoffer]
      | some offer => simp [htakes, hoffer]

section Call

variable (now : Nat) (c : ActiveCall) (req : Request)

/-- Where RTP goes. -/
def ActiveCall.destination (c : ActiveCall) : Option SocketAddr := c.media.map MediaSession.remote

/-- What a re-INVITE changes has no part in whether the next one is accepted. -/
theorem takesReinvite_renegotiate (offer : Option Sdp) (req' : Request) :
    takesReinvite (State.renegotiate now c offer) req' = takesReinvite c req' := by
  cases offer <;> rfl

theorem takesReinvite_negotiate (req' : Request) :
    takesReinvite (negotiate now c req) req' = takesReinvite c req' := by
  unfold negotiate
  split
  · exact takesReinvite_renegotiate now c _ req'
  · rfl

theorem inDialogOf_negotiate (req' : Request) :
    inDialogOf (negotiate now c req) req' = inDialogOf c req' ∧
      (negotiate now c req).answered = c.answered := by
  unfold negotiate
  split
  · cases State.usableOffer req <;> exact ⟨rfl, rfl⟩
  · exact ⟨rfl, rfl⟩

theorem media_negotiate : (negotiate now c req).media.isSome = c.media.isSome := by
  unfold negotiate
  split
  · cases State.usableOffer req with
    | none => rfl
    | some offer => exact Option.isSome_map
  · rfl

end Call

/-! ## Arrivals -/

/-- The re-INVITE that arrives, if one does. -/
def Event.reinvite : Event → Option Request
  | .request req _ => if req.method = .invite then some req else none
  | _ => none

def reinvites (es : List (Event × Env)) : List Request := es.filterMap fun e ↦ e.1.reinvite

theorem reinvites_append_cons (pre post : List (Event × Env)) {e : Event × Env} {req : Request}
    (hreq : e.1.reinvite = some req) :
    reinvites (pre ++ e :: post) = reinvites pre ++ req :: reinvites post := by
  simp [reinvites, hreq]

/-- What arrives while the call goes on: re-INVITEs in its dialog, the ACKs to their answers, and RTP
from anywhere; and time passes. -/
def arrives (c : ActiveCall) : Event → Bool
  | .request req _ => req.method == .ack || (req.method == .invite && inDialogOf c req)
  | .rtp _ => true
  | .advance _ => true
  | _ => false

/-- The call after one of these. -/
def ActiveCall.arrive (symmetric : Bool) (now : Nat) (c : ActiveCall) : Event → ActiveCall
  | .request req _ => if req.method = .invite then negotiate now c req else c
  | .rtp src =>
    { c with media := c.media.map fun m ↦ if m.accepts src then m.receive symmetric now src else m }
  | _ => c

/-- The same call, as far as the next re-INVITE is concerned. -/
structure SameDialog (c c' : ActiveCall) : Prop where
  takes : ∀ req, takesReinvite c' req = takesReinvite c req
  inDialog : ∀ req, inDialogOf c' req = inDialogOf c req
  answered : c'.answered = c.answered
  media : c'.media.isSome = c.media.isSome

theorem SameDialog.refl (c : ActiveCall) : SameDialog c c := ⟨fun _ ↦ rfl, fun _ ↦ rfl, rfl, rfl⟩

theorem SameDialog.trans {c₁ c₂ c₃ : ActiveCall} (h : SameDialog c₁ c₂) (h' : SameDialog c₂ c₃) :
    SameDialog c₁ c₃ where
  takes req := (h'.takes req).trans (h.takes req)
  inDialog req := (h'.inDialog req).trans (h.inDialog req)
  answered := h'.answered.trans h.answered
  media := h'.media.trans h.media

theorem SameDialog.arrive (symmetric : Bool) (now : Nat) (c : ActiveCall) (e : Event) :
    SameDialog c (c.arrive symmetric now e) := by
  cases e with
  | request req src =>
      change SameDialog c (if req.method = .invite then negotiate now c req else c)
      split
      · exact ⟨takesReinvite_negotiate now c req, fun req' ↦ (inDialogOf_negotiate now c req req').1,
          (inDialogOf_negotiate now c req req).2, media_negotiate now c req⟩
      · exact .refl c
  | rtp src => exact ⟨fun _ ↦ rfl, fun _ ↦ rfl, rfl, Option.isSome_map⟩
  | _ => exact .refl c

theorem SameDialog.arrives_eq {c c' : ActiveCall} (h : SameDialog c c') (e : Event) :
    arrives c' e = arrives c e := by
  cases e with
  | request req src => simp only [arrives, h.inDialog]
  | _ => rfl

namespace State

/-- The description of the peer's media on record. -/
def remoteSdp (g : State) : Option Sdp := g.call.bind ActiveCall.remoteSdp

/-- Where the RTP of the call goes. -/
def destination (g : State) : Option SocketAddr := g.call.bind ActiveCall.destination

/-- The 200 goes to the re-INVITEs that `takesReinvite` says, and the others change nothing. -/
theorem onSipReinvite_eq (g : State) (env : Env) {c : ActiveCall} (hc : g.call = some c) (txn : Nat)
    (req : Request) (src : SocketAddr) :
    if takesReinvite c req then
      (g.onSipReinvite cfg env txn req src).1 =
        (({ g with call := some (renegotiate g.now c (usableOffer req)) }).respond env (some txn) req
          (g.reinviteResponse cfg env c req src (usableOffer req)) src).1
    else ∃ code, 400 ≤ code ∧
      g.onSipReinvite cfg env txn req src = g.reply cfg env txn req src code := by
  have hin : g.inDialog req = inDialogOf c req := by simp [State.inDialog, hc]
  unfold onSipReinvite takesReinvite
  rw [hc]
  dsimp only
  rw [hin]
  cases hpending : (!c.answered || (c.role == .fromSip &&
      optionLe (cseqNumber req.headers) (cseqNumber c.invite.headers))) with
  | true => exact ⟨491, by decide, rfl⟩
  | false =>
      cases hdialog : inDialogOf c req with
      | false => exact ⟨481, by decide, rfl⟩
      | true =>
          cases hcodec : (usableOffer req).any fun o ↦
              !o.payloadTypes.contains c.codec.payloadType with
          | true => exact ⟨488, by decide, rfl⟩
          | false => rfl

/-- An answered call goes on as `arrive` says. -/
theorem step_arrives {g : State} {c : ActiveCall} (hc : g.call = some c) (hans : c.answered = true)
    (hrun : g.stopped = false) (e : Event × Env) (he : arrives c e.1 = true) :
    (g.step md5Hex cfg e).call = some (c.arrive cfg.symmetric g.now e.1) ∧
      (g.step md5Hex cfg e).stopped = false := by
  obtain ⟨e, env⟩ := e
  have hgo : ¬ g.stopped = true := by simp [hrun]
  cases e with
  | request req src =>
      simp only [arrives, Bool.or_eq_true, Bool.and_eq_true, beq_iff_eq] at he
      rcases he with hm | ⟨hm, hin⟩
      · simp only [step, if_neg hgo, onSipRequest, ActiveCall.arrive, hm, reduceCtorEq, if_false]
        exact ⟨hc, hrun⟩
      have hid : req.headers.callId = some c.callId := by
        simp only [inDialogOf, Bool.and_eq_true, beq_iff_eq] at hin
        exact hin.1.1
      have hstep : g.step md5Hex cfg (.request req src, env) =
          ({ g with nextTxn := g.nextTxn + 1 }.onSipReinvite cfg env g.nextTxn req src).1 := by
        simp only [step, if_neg hgo, onSipRequest, hm, onSipInvite, hc, hid, hans, if_true,
          Bool.not_true, Bool.false_eq_true, if_false]
      have heq := onSipReinvite_eq cfg { g with nextTxn := g.nextTxn + 1 } env hc g.nextTxn req src
      rw [hstep, ActiveCall.arrive, if_pos hm, negotiate]
      split at heq
      · rename_i htakes
        rw [heq, if_pos htakes]
        exact ⟨rfl, hrun⟩
      · rename_i htakes
        obtain ⟨code, -, heq⟩ := heq
        rw [heq, if_neg htakes]
        exact ⟨hc, hrun⟩
  | rtp src =>
      simp only [step, if_neg hgo, onRtp, hc, ActiveCall.arrive]
      cases hm : c.media with
      | none => exact ⟨hc.trans (congrArg some (by rw [Option.map_none, ← hm])), hrun⟩
      | some m =>
          dsimp only [Option.map_some]
          split
          · exact ⟨rfl, hrun⟩
          · exact ⟨hc.trans (congrArg some (by rw [← hm])), hrun⟩
  | advance ms =>
      simp only [step, if_neg hgo]
      exact ⟨hc, hrun⟩
  | _ => exact absurd he (by simp [arrives])

/-- The call is still the same one, and the description on record is that of the last accepted re-INVITE
that brought one. -/
theorem run_arrives {g : State} {c : ActiveCall} (hc : g.call = some c) (hans : c.answered = true)
    (hrun : g.stopped = false) (es : List (Event × Env)) (hes : ∀ e ∈ es, arrives c e.1 = true) :
    ∃ c', (g.run md5Hex cfg es).call = some c' ∧ (g.run md5Hex cfg es).stopped = false ∧
      SameDialog c c' ∧ c'.remoteSdp = (lastOffer c (reinvites es)).or c.remoteSdp := by
  induction es using List.reverseRecOn with
  | nil => exact ⟨c, hc, hrun, .refl c, rfl⟩
  | append_singleton es e ih =>
      obtain ⟨c', hc', hrun', hsame, hsdp⟩ := ih fun e' he' ↦ hes e' (List.mem_append_left _ he')
      have he : arrives c' e.1 = true := (hsame.arrives_eq e.1).trans (hes e (by simp))
      obtain ⟨hcall, hrunning⟩ :=
        step_arrives md5Hex cfg hc' (hsame.answered.trans hans) hrun' e he
      rw [State.run, Run.run_append, Run.run_cons, Run.run_nil]
      refine ⟨_, hcall, hrunning, hsame.trans (.arrive ..), ?_⟩
      obtain ⟨e, env⟩ := e
      have hnone (hno : e.reinvite = none) : reinvites (es ++ [(e, env)]) = reinvites es := by
        simp [reinvites, hno]
      cases e with
      | request req src =>
          unfold ActiveCall.arrive
          dsimp only
          split
          · rename_i hm
            have hreq : (Event.request req src).reinvite = some req := if_pos hm
            rw [reinvites_append_cons es [] hreq, show reinvites [] = [] from rfl, lastOffer_concat, negotiate, hsame.takes]
            split
            · cases State.usableOffer req with
              | none => exact hsdp
              | some offer => rfl
            · exact hsdp
          · rename_i hm
            rw [hnone (if_neg hm)]
            exact hsdp
      | _ =>
          rw [hnone rfl]
          exact hsdp

end State

/-! ## The newest re-INVITE -/

/-- A lower CSeq number. -/
def Older (req req' : Request) : Prop :=
  ∃ n n', State.cseqNumber req.headers = some n ∧ State.cseqNumber req'.headers = some n' ∧ n < n'

instance (req req' : Request) : Decidable (Older req req') :=
  decidable_of_iff
    ((State.cseqNumber req.headers).any fun n ↦
      (State.cseqNumber req'.headers).any fun n' ↦ decide (n < n')) (by
        simp only [Older, Option.any_eq_true, decide_eq_true_eq]
        constructor
        · rintro ⟨n, hn, n', hn', hlt⟩
          exact ⟨n, n', hn, hn', hlt⟩
        · rintro ⟨n, n', hn, hn', hlt⟩
          exact ⟨n, hn, n', hn', hlt⟩)

/-- Neither RTP nor the description of the peer's media is moved. -/
structure Unmoved (g g' : State) : Prop where
  destination : g'.destination = g.destination
  remoteSdp : g'.remoteSdp = g.remoteSdp

/-- The media is where an offer says, or where one of these packets has shown that the peer is. -/
structure PointsAt (addr : SocketAddr) (es : List (Event × Env)) (m : MediaSession) : Prop where
  signalled : m.signalled = addr
  remote : m.remote = addr ∨
    cfg.symmetric = true ∧ m.accepts m.remote = true ∧ ∃ e ∈ es, e.1 = .rtp m.remote

/-- A re-INVITE that is older than one accepted before moves nothing, and in the end the newest
one that was accepted has its way. -/
structure NewestInForce (g : State) (c : ActiveCall) (es : List (Event × Env)) : Prop where
  older : ∀ pre e post req, es = pre ++ e :: post → e.1.reinvite = some req →
    (∃ req' ∈ reinvites pre, takesReinvite c req' = true ∧ Older req req') →
      Unmoved (g.run md5Hex cfg pre) (g.run md5Hex cfg (pre ++ [e]))
  newest : ∀ pre e post req, es = pre ++ e :: post → e.1.reinvite = some req →
    takesReinvite c req = true →
      (∀ req' ∈ reinvites es, takesReinvite c req' = true → req' = req ∨ Older req' req) →
        ∀ offer, State.usableOffer req = some offer →
          (g.run md5Hex cfg es).remoteSdp = some offer ∧
            ((g.run md5Hex cfg es).media.isSome = c.media.isSome ∧
              ∀ m ∈ (g.run md5Hex cfg es).media, PointsAt cfg (State.mediaAddr offer) post m)

/-- An accepted re-INVITE that arrives after a newer accepted one brings no offer, or the offer
that is in force then, and RTP goes where it says. -/
def ArriveInOrder (g : State) (c : ActiveCall) (es : List (Event × Env)) : Prop :=
  ∀ pre e post req, es = pre ++ e :: post → e.1.reinvite = some req → takesReinvite c req = true →
    (∃ req' ∈ reinvites pre, takesReinvite c req' = true ∧ Older req req') →
      ∀ offer, State.usableOffer req = some offer →
        (lastOffer c (reinvites pre)).or c.remoteSdp = some offer ∧
          ∀ addr ∈ (g.run md5Hex cfg pre).destination, addr = State.mediaAddr offer

/-- Re-INVITEs whose numbers never go down arrive in order. -/
theorem ArriveInOrder.of_pairwise (g : State) (c : ActiveCall) {es : List (Event × Env)}
    (h : (reinvites es).Pairwise fun req req' ↦ ¬ Older req' req) : ArriveInOrder md5Hex cfg g c es := by
  rintro pre e post req rfl hreq - ⟨req', hmem, -, hold⟩
  rw [reinvites_append_cons pre post hreq] at h
  exact absurd hold ((List.pairwise_append.mp h).2.2 req' hmem req List.mem_cons_self)

/-! ## What a single arrival moves -/

section Arrival

variable {g : State} {c : ActiveCall} (hc : g.call = some c) (hans : c.answered = true)
  (hrun : g.stopped = false)
include hc hans hrun

/-- The re-INVITE of an arrival is negotiated. -/
theorem step_reinvite {e : Event × Env} (he : arrives c e.1 = true) {req : Request}
    (hreq : e.1.reinvite = some req) : (g.step md5Hex cfg e).call = some (negotiate g.now c req) := by
  obtain ⟨hcall, -⟩ := State.step_arrives md5Hex cfg hc hans hrun e he
  obtain ⟨e, env⟩ := e
  cases e with
  | request req' src =>
      simp only [Event.reinvite] at hreq
      split at hreq
      · rename_i hm
        obtain rfl := Option.some.inj hreq
        rw [hcall, ActiveCall.arrive, if_pos hm]
      · cases hreq
  | _ => cases hreq

/-- An arrival without a re-INVITE leaves the offer on record as it is. -/
theorem remoteSdp_step {e : Event × Env} (he : arrives c e.1 = true) (hreq : e.1.reinvite = none) :
    (g.step md5Hex cfg e).remoteSdp = c.remoteSdp := by
  obtain ⟨hcall, -⟩ := State.step_arrives md5Hex cfg hc hans hrun e he
  rw [State.remoteSdp, hcall]
  obtain ⟨e, env⟩ := e
  cases e with
  | request req src =>
      simp only [Event.reinvite] at hreq
      split at hreq
      · cases hreq
      · rename_i hm
        rw [ActiveCall.arrive, if_neg hm]
        rfl
  | _ => rfl

/-- A re-INVITE that is taken puts its offer on record, and the media goes where that says. -/
theorem takes_step {e : Event × Env} (he : arrives c e.1 = true) {req : Request}
    (hreq : e.1.reinvite = some req) (htakes : takesReinvite c req = true) {offer : Sdp}
    (hoffer : State.usableOffer req = some offer) :
    (g.step md5Hex cfg e).remoteSdp = some offer ∧
      ∀ m ∈ (g.step md5Hex cfg e).media, PointsAt cfg (State.mediaAddr offer) [] m := by
  rw [State.remoteSdp, State.media, step_reinvite md5Hex cfg hc hans hrun he hreq]
  simp only [negotiate, htakes, hoffer, if_true]
  refine ⟨rfl, fun m hm ↦ ?_⟩
  obtain ⟨m₀, -, rfl⟩ := Option.map_eq_some_iff.mp hm
  exact ⟨rfl, .inl rfl⟩

/-- A re-INVITE moves nothing exactly if it is refused or brings nothing new. -/
theorem unmoved_iff {e : Event × Env} (he : arrives c e.1 = true) {req : Request}
    (hreq : e.1.reinvite = some req) :
    Unmoved g (g.step md5Hex cfg e) ↔
      (takesReinvite c req = true → ∀ offer, State.usableOffer req = some offer →
        g.remoteSdp = some offer ∧ ∀ addr ∈ g.destination, addr = State.mediaAddr offer) := by
  have hsame (c' : ActiveCall) (hc' : (g.step md5Hex cfg e).call = some c') :
      Unmoved g (g.step md5Hex cfg e) ↔ c'.destination = c.destination ∧ c'.remoteSdp = c.remoteSdp := by
    constructor
    · rintro ⟨hdest, hsdp⟩
      rw [State.destination, State.destination, hc', hc] at hdest
      rw [State.remoteSdp, State.remoteSdp, hc', hc] at hsdp
      exact ⟨hdest, hsdp⟩
    · rintro ⟨hdest, hsdp⟩
      constructor
      · rw [State.destination, State.destination, hc', hc]
        exact hdest
      · rw [State.remoteSdp, State.remoteSdp, hc', hc]
        exact hsdp
  rw [hsame _ (step_reinvite md5Hex cfg hc hans hrun he hreq), State.remoteSdp, State.destination, hc,
    negotiate]
  split
  · rename_i htakes
    cases State.usableOffer req with
    | none => simp [State.renegotiate, htakes]
    | some offer =>
        cases hm : c.media with
        | none => simp [State.renegotiate, ActiveCall.destination, hm, htakes, eq_comm]
        | some m =>
            simp [State.renegotiate, ActiveCall.destination, hm, htakes, MediaSession.setRemote,
              MediaSession.stamp, eq_comm, and_comm]
  · rename_i htakes
    simp [htakes]

/-- Media that an offer has moved stays there, while nothing that arrives brings another offer. -/
theorem pointsAt_step {e : Event × Env} (he : arrives c e.1 = true) (offer : Sdp)
    (hoffer : ∀ req, e.1.reinvite = some req → takesReinvite c req = true →
      ∀ offer', State.usableOffer req = some offer' → offer' = offer)
    {es : List (Event × Env)} (h : ∀ m ∈ g.media, PointsAt cfg (State.mediaAddr offer) es m) :
    ∀ m ∈ (g.step md5Hex cfg e).media, PointsAt cfg (State.mediaAddr offer) (es ++ [e]) m := by
  obtain ⟨hcall, -⟩ := State.step_arrives md5Hex cfg hc hans hrun e he
  have hold (m : MediaSession) (hm : c.media = some m) : PointsAt cfg (State.mediaAddr offer) (es ++ [e]) m := by
    obtain ⟨hsignalled, hremote⟩ := h m (by rw [State.media, hc]; exact hm)
    refine ⟨hsignalled, hremote.imp_right ?_⟩
    rintro ⟨hsym, haccepts, e', he', hrtp⟩
    exact ⟨hsym, haccepts, e', List.mem_append_left _ he', hrtp⟩
  intro m' hm'
  rw [State.media, hcall] at hm'
  replace hm' : (c.arrive cfg.symmetric g.now e.1).media = some m' := hm'
  obtain ⟨e, env⟩ := e
  cases e with
  | request req src =>
      simp only [ActiveCall.arrive, negotiate] at hm'
      split at hm'
      · rename_i hm
        split at hm'
        · rename_i htakes
          cases hnew : State.usableOffer req with
          | none =>
              rw [hnew] at hm'
              exact hold m' hm'
          | some offer' =>
              obtain rfl := hoffer req (if_pos hm) htakes offer' hnew
              rw [hnew] at hm'
              obtain ⟨m, -, rfl⟩ := Option.map_eq_some_iff.mp hm'
              exact ⟨rfl, .inl rfl⟩
        · exact hold m' hm'
      · exact hold m' hm'
  | rtp src =>
      obtain ⟨m, hm, rfl⟩ := Option.map_eq_some_iff.mp hm'
      have hpoints := hold m hm
      split
      · rename_i haccepts
        -- The packet may be the one that says where the peer is.
        unfold MediaSession.receive
        dsimp only
        split
        · rename_i hlatch
          obtain ⟨hsym, -⟩ : cfg.symmetric = true ∧ _ := (Bool.and_eq_true ..).mp hlatch
          split
          · exact ⟨hpoints.signalled, .inr ⟨hsym, haccepts, _, List.mem_append_right _ List.mem_cons_self, rfl⟩⟩
          · exact ⟨hpoints.signalled, hpoints.remote⟩
        · exact ⟨hpoints.signalled, hpoints.remote⟩
      · exact hpoints
  | _ => exact hold m' hm'

end Arrival

section Newest

variable {g : State} {c : ActiveCall} (hc : g.call = some c) (hans : c.answered = true)
  (hrun : g.stopped = false) {es : List (Event × Env)} (hes : ∀ e ∈ es, arrives c e.1 = true)
include hc hans hrun hes

/-- An arrival in the run moves nothing exactly if it is refused or brings nothing new. -/
theorem unmoved_iff_in_run {pre post : List (Event × Env)} {e : Event × Env} {req : Request}
    (hsplit : es = pre ++ e :: post) (hreq : e.1.reinvite = some req) :
    Unmoved (g.run md5Hex cfg pre) (g.run md5Hex cfg (pre ++ [e])) ↔
      (takesReinvite c req = true → ∀ offer, State.usableOffer req = some offer →
        (lastOffer c (reinvites pre)).or c.remoteSdp = some offer ∧
          ∀ addr ∈ (g.run md5Hex cfg pre).destination, addr = State.mediaAddr offer) := by
  subst hsplit
  obtain ⟨c', hc', hrun', hsame, hsdp⟩ := State.run_arrives md5Hex cfg hc hans hrun pre
    fun e' he' ↦ hes e' (List.mem_append_left _ he')
  have he : arrives c' e.1 = true := (hsame.arrives_eq e.1).trans (hes e (by simp))
  have hiff := unmoved_iff md5Hex cfg hc' (hsame.answered.trans hans) hrun' he hreq
  have hrecorded : (g.run md5Hex cfg pre).remoteSdp = (lastOffer c (reinvites pre)).or c.remoteSdp := by
    rw [State.remoteSdp, hc']
    exact hsdp
  rw [hsame.takes, hrecorded] at hiff
  rw [State.run, State.run, Run.run_append, Run.run_cons, Run.run_nil]
  exact hiff

variable {pre post : List (Event × Env)} {e : Event × Env} {req : Request}
  (hdist : ((reinvites es).map fun req ↦ State.cseqNumber req.headers).Nodup)
  (holder : ∀ pre e post req, es = pre ++ e :: post → e.1.reinvite = some req →
    (∃ req' ∈ reinvites pre, takesReinvite c req' = true ∧ Older req req') →
      Unmoved (g.run md5Hex cfg pre) (g.run md5Hex cfg (pre ++ [e])))
  (hsplit : es = pre ++ e :: post) (hreq : e.1.reinvite = some req) (htakes : takesReinvite c req = true)
  (hnewest : ∀ req' ∈ reinvites es, takesReinvite c req' = true → req' = req ∨ Older req' req)
include hdist holder hsplit hreq htakes hnewest

/-- If no older re-INVITE moves anything, none that arrives after the newest one does. -/
theorem unmoved_of_newest {mid post' : List (Event × Env)} {f : Event × Env} {req' : Request}
    (hpost : post = mid ++ f :: post') (hreq' : f.1.reinvite = some req') :
    Unmoved (g.run md5Hex cfg (pre ++ e :: mid)) (g.run md5Hex cfg (pre ++ e :: mid ++ [f])) := by
  have hsplit' : es = (pre ++ e :: mid) ++ f :: post' := by
    rw [hsplit, hpost]
    simp
  cases htakes' : takesReinvite c req' with
  | false =>
      refine (unmoved_iff_in_run md5Hex cfg hc hans hrun hes hsplit' hreq').mpr fun h ↦ ?_
      exact absurd (htakes'.symm.trans h) (by decide)
  | true =>
      have hmem : req ∈ reinvites (pre ++ e :: mid) := by simp [reinvites_append_cons pre mid hreq]
      have hall : reinvites es = reinvites (pre ++ e :: mid) ++ req' :: reinvites post' :=
        hsplit' ▸ reinvites_append_cons _ post' hreq'
      refine holder _ f post' req' hsplit' hreq' ⟨req, hmem, htakes, ?_⟩
      rcases hnewest req' (by simp [hall]) htakes' with rfl | hold
      · -- Two requests would have the one CSeq number.
        rw [hall, List.map_append, List.map_cons] at hdist
        have happart := (List.nodup_append.mp hdist).2.2
        exact absurd rfl (happart _ (List.mem_map_of_mem hmem) _ List.mem_cons_self)
      · exact hold

/-- If no older re-INVITE moves anything, the newest one has its way. -/
theorem newest_of_older {offer : Sdp} (hoffer : State.usableOffer req = some offer) :
    (g.run md5Hex cfg es).remoteSdp = some offer ∧
      ((g.run md5Hex cfg es).media.isSome = c.media.isSome ∧
        ∀ m ∈ (g.run md5Hex cfg es).media, PointsAt cfg (State.mediaAddr offer) post m) := by
  -- From its arrival on, whatever brings an offer is refused or older.
  have hmid (mid post' : List (Event × Env)) (hpost : post = mid ++ post') :
      (g.run md5Hex cfg (pre ++ e :: mid)).remoteSdp = some offer ∧
        ∀ m ∈ (g.run md5Hex cfg (pre ++ e :: mid)).media, PointsAt cfg (State.mediaAddr offer) mid m := by
    induction mid using List.reverseRecOn generalizing post' with
    | nil =>
        obtain ⟨c', hc', hrun', hsame, -⟩ := State.run_arrives md5Hex cfg hc hans hrun pre
          fun e' he' ↦ hes e' (by rw [hsplit]; exact List.mem_append_left _ he')
        have he : arrives c' e.1 = true := (hsame.arrives_eq e.1).trans (hes e (by simp [hsplit]))
        rw [State.run, Run.run_append, Run.run_cons, Run.run_nil]
        exact takes_step md5Hex cfg hc' (hsame.answered.trans hans) hrun' he hreq
          ((hsame.takes req).trans htakes) hoffer
    | append_singleton mid f ih =>
        obtain ⟨hsdp, hmedia⟩ := ih (f :: post') (by rw [hpost, List.append_assoc]; rfl)
        have hpost' : post = mid ++ f :: post' := by simp [hpost]
        have hsplit' : es = (pre ++ e :: mid) ++ f :: post' := by simp [hsplit, hpost']
        obtain ⟨c', hc', hrun', hsame, hlast⟩ := State.run_arrives md5Hex cfg hc hans hrun (pre ++ e :: mid)
          fun e' he' ↦ hes e' (by rw [hsplit']; exact List.mem_append_left _ he')
        have hf : arrives c' f.1 = true := (hsame.arrives_eq f.1).trans (hes f (by simp [hsplit']))
        have hunmoved (req' : Request) (hreq' : f.1.reinvite = some req') :
            Unmoved (g.run md5Hex cfg (pre ++ e :: mid)) (g.run md5Hex cfg (pre ++ e :: mid ++ [f])) :=
          unmoved_of_newest md5Hex cfg hc hans hrun hes hdist holder hsplit hreq htakes hnewest hpost' hreq'
        have hrec : (g.run md5Hex cfg (pre ++ e :: mid ++ [f])).remoteSdp = some offer := by
          cases hf' : f.1.reinvite with
          | some req' => exact (hunmoved req' hf').remoteSdp.trans hsdp
          | none =>
              rw [State.remoteSdp, hc'] at hsdp
              rw [State.run, Run.run_append, Run.run_cons, Run.run_nil]
              exact (remoteSdp_step md5Hex cfg hc' (hsame.answered.trans hans) hrun' hf hf').trans hsdp
        rw [show pre ++ e :: (mid ++ [f]) = pre ++ e :: mid ++ [f] by simp]
        refine ⟨hrec, ?_⟩
        have hstep := pointsAt_step md5Hex cfg hc' (hsame.answered.trans hans) hrun' hf offer
          (fun req' hreq' htakes' offer' hoffer' ↦ ?_) hmedia
        · rw [State.run, Run.run_append, Run.run_cons, Run.run_nil]
          exact hstep
        · -- What it brings was not new, and is what is on record.
          rw [hsame.takes] at htakes'
          obtain ⟨hsdp', -⟩ := (unmoved_iff_in_run md5Hex cfg hc hans hrun hes hsplit' hreq').mp
            (hunmoved req' hreq') htakes' offer' hoffer'
          rw [State.remoteSdp, hc'] at hsdp
          exact Option.some.inj (hsdp'.symm.trans (hlast.symm.trans hsdp))
  obtain ⟨c', hc', -, hsame, -⟩ := State.run_arrives md5Hex cfg hc hans hrun es hes
  obtain ⟨hsdp, hmedia⟩ := hmid post [] (List.append_nil post).symm
  rw [← hsplit] at hsdp hmedia
  refine ⟨hsdp, ?_, hmedia⟩
  rw [State.media, hc']
  exact hsame.media

end Newest

/-- A re-INVITE of the caller that moves its media. -/
def Sample.move (cseq : Nat) (address : String) : Event × Env :=
  (.request (Sample.request .invite cseq ";tag=r0"
    ("v=0\r\nc=IN IP4 " ++ address ++ "\r\nm=audio 30000 RTP/AVP 0\r\n")) Sample.peer, Sample.env)

end Modem2Sip.Gateway
