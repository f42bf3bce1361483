import Modem2Sip.Gateway.NewCall

/-!
# Hold

A re-INVITE inside the dialog moves the media or puts it on hold.  The answer has to
take the opposite direction, and the watchdog has to know from then on whether the
peer sends anything.  `on_sip_reinvite` reads an offer only if it names a place for
its media, and goes by the description before otherwise.
-/

namespace Modem2Sip.Gateway

open Text Net Sip

variable (cfg : Config) (env : Env)

/-- A 200 to the request that was delivered as `txn`. -/
def Entry.accepts (txn : Nat) (req : Request) : Entry → Bool
  | .respond t r resp _ => t == some txn && r == req && resp.code == 200
  | _ => false

/-- The re-INVITE that was delivered as `txn` got a 200. -/
def Accepted (txn : Nat) (req : Request) (g g' : State) : Prop :=
  ∃ e ∈ newEntries g g', e.accepts txn req = true

instance (txn : Nat) (req : Request) (g g' : State) : Decidable (Accepted txn req g g') :=
  inferInstanceAs (Decidable (∃ e ∈ newEntries g g', _))

/-- The direction of the offer was honoured: the 200 answers with the opposite one, the recorded
description says whether the peer sends, and the watchdog does not wait for a peer that does not. -/
structure HoldHonoured (offer : Sdp) (txn : Nat) (req : Request) (g g' : State) : Prop where
  answer : ∃ resp dest, Entry.respond (some txn) req resp dest ∈ newEntries g g' ∧
    resp.code = 200 ∧ (Sdp.parse resp.bodyStr).map Sdp.sendrecv = some offer.sendrecv.reversed
  recorded : (g'.call.bind ActiveCall.remoteSdp).map (fun sdp ↦ sdp.sendrecv.peerSends) =
    some offer.sendrecv.peerSends
  watchdog : offer.sendrecv.peerSends = false → ∀ c ∈ g'.call, ∀ now m,
    State.silentTooLong cfg now c m = false

namespace State

variable (g : State) {c : ActiveCall} (txn : Nat) (req : Request) (src : SocketAddr)

/-- The watchdog does not wait for a peer that is recorded as sending nothing. -/
theorem silentTooLong_of_hold {sdp : Sdp} (hsdp : c.remoteSdp = some sdp)
    (hhold : sdp.sendrecv.peerSends = false) (now : Nat) (m : MediaSession) :
    silentTooLong cfg now c m = false := by
  simp [silentTooLong, hsdp, hhold]

/-- The 200 of a re-INVITE answers the offer, or the description before it. -/
theorem reinviteResponse_direction (offer : Option Sdp) :
    (Sdp.parse (g.reinviteResponse cfg env c req src offer).bodyStr).map Sdp.sendrecv =
      (offer.or c.remoteSdp).map fun sdp ↦ sdp.sendrecv.reversed := by
  unfold reinviteResponse
  dsimp only
  split
  · rename_i hnone
    rw [hnone]
    rfl
  · rename_i sdp hsome
    rw [hsome]
    exact sdp.parse_render_answer ..

/-- What a re-INVITE that gets a 200 does: the response answers the offer, if it is usable, and the
call goes by it from then on. -/
theorem onSipReinvite_accepted (hc : g.call = some c)
    (h200 : Accepted txn req g (g.onSipReinvite cfg env txn req src).1) :
    (g.onSipReinvite cfg env txn req src).1 =
      (({ g with call := some (renegotiate g.now c (usableOffer req)) }).respond env (some txn) req
        (g.reinviteResponse cfg env c req src (usableOffer req)) src).1 := by
  have hrefused {code : Nat} (hcode : code ≠ 200) :
      ¬ Accepted txn req g (g.reply cfg env txn req src code).1 := by
    rintro ⟨e, hmem, haccepts⟩
    have hallowed := (g.reply_steady cfg env txn req src code).mem_newEntries hmem
    cases e with
    | respond t r resp dest =>
        simp only [Entry.accepts, Bool.and_eq_true, beq_iff_eq] at haccepts
        exact hcode (hallowed.2.symm.trans haccepts.2)
    | _ => simp [Entry.accepts] at haccepts
  revert h200
  unfold onSipReinvite
  rw [hc]
  dsimp only
  split
  · intro h
    exact absurd h (hrefused (by decide))
  · split
    · intro h
      exact absurd h (hrefused (by decide))
    · split
      · intro h
        exact absurd h (hrefused (by decide))
      · intro _
        rfl

end State

theorem renegotiate_remoteSdp (now : Nat) (c : ActiveCall) (offer : Option Sdp) :
    (State.renegotiate now c offer).remoteSdp = offer.or c.remoteSdp := by
  cases offer <;> rfl

/-- A hold is honoured exactly if the description that the gateway goes by has its direction. -/
theorem holdHonoured_respond_iff (g : State) (txn : Nat) (req : Request) (src : SocketAddr)
    (c : ActiveCall) (offer : Sdp) (used : Option Sdp) :
    HoldHonoured cfg offer txn req g
        (({ g with call := some (State.renegotiate g.now c used) }).respond env (some txn) req
          (g.reinviteResponse cfg env c req src used) src).1 ↔
      (used.or c.remoteSdp).map Sdp.sendrecv = some offer.sendrecv := by
  have hentries : newEntries g
      (({ g with call := some (State.renegotiate g.now c used) }).respond env (some txn) req
        (g.reinviteResponse cfg env c req src used) src).1 =
      [.respond (some txn) req (g.reinviteResponse cfg env c req src used) src] :=
    newEntries_eq (show _ = g.log ++ [(g.now, _)] from rfl)
  have hdirection := g.reinviteResponse_direction cfg env (c := c) req src used
  constructor
  · rintro ⟨⟨resp, dest, hmem, -, hanswer⟩, -, -⟩
    rw [hentries] at hmem
    obtain ⟨-, -, rfl, -⟩ := Entry.respond.inj (List.mem_singleton.mp hmem)
    obtain ⟨sdp, hsdp, hrev⟩ := Option.map_eq_some_iff.mp (hdirection.symm.trans hanswer)
    rw [hsdp]
    exact congrArg some (Direction.reversed_injective hrev)
  · intro hsame
    obtain ⟨sdp, hsdp, hdir⟩ := Option.map_eq_some_iff.mp hsame
    refine ⟨⟨_, src, ?_, g.reinviteResponse_code cfg env c req src used, ?_⟩, ?_, ?_⟩
    · rw [hentries]
      exact List.mem_singleton_self _
    · rw [hdirection, hsdp, ← hdir]
      rfl
    · have : (State.renegotiate g.now c used).remoteSdp = some sdp :=
        (renegotiate_remoteSdp ..).trans hsdp
      simp [State.respond, this, hdir]
    · intro hhold c' hc' now m
      obtain rfl := Option.some.inj hc'
      exact State.silentTooLong_of_hold cfg ((renegotiate_remoteSdp ..).trans hsdp)
        (hdir ▸ hhold) now m

/-- A hold is honoured exactly when the offer names a place for its media, or offers the direction
that the description before it had. -/
theorem holdHonoured_iff (g : State) (txn : Nat) (req : Request) (src : SocketAddr)
    {c : ActiveCall} (hc : g.call = some c) (hans : c.answered = true)
    (hdialog : inDialogOf c req = true) {offer : Sdp} (hoffer : Sdp.parse req.bodyStr = some offer)
    (h200 : Accepted txn req g (g.onSipInvite cfg env txn req src).1) :
    HoldHonoured cfg offer txn req g (g.onSipInvite cfg env txn req src).1 ↔
      offer.hasMedia = true ∨ ∃ old, c.remoteSdp = some old ∧ old.sendrecv = offer.sendrecv := by
  have hid : req.headers.callId = some c.callId := by
    simp only [inDialogOf, Bool.and_eq_true, beq_iff_eq] at hdialog
    exact hdialog.1.1
  have hreinvite : g.onSipInvite cfg env txn req src = g.onSipReinvite cfg env txn req src := by
    simp [State.onSipInvite, hc, hid, hans]
  rw [hreinvite] at h200 ⊢
  rw [g.onSipReinvite_accepted cfg env txn req src hc h200, holdHonoured_respond_iff,
    State.usableOffer, hoffer]
  cases hmedia : offer.hasMedia with
  | true => simp [Option.filter, hmedia]
  | false => simp [Option.filter, hmedia]

namespace Sample

/-- A call from SIP that was answered. -/
def answered : State :=
  (State.init 1700000000000).run (fun _ ↦ []) (Sample.config false)
    [ (.modemUp { ownNumber := none }, Sample.env),
      (.request (Sample.request .invite 1 [] Sample.offer) Sample.peer, Sample.env),
      (.callState "/call/1" stateActive 0, Sample.env) ]

theorem answered_isSome : answered.call.isSome = true := by decide +kernel

/-- A re-INVITE that puts it on hold, with its media at an address. -/
def hold (address : String) (direction : String) : Request :=
  Sample.request .invite 2 ";tag=r0" ("v=0\r\nc=IN IP4 " ++ address ++
    "\r\nm=audio 30000 RTP/AVP 0\r\na=" ++ direction ++ "\r\n")

def holdOffer (address : IpAddr) (direction : Direction) : Sdp where
  originUser := "-"
  sessionId := 0
  sessionVersion := 0
  address := address
  port := 30000
  payloadTypes := [0]
  telephoneEvent := none
  ptime := none
  sendrecv := direction

end Sample

/-- The caller puts the call on hold with the null address: the watchdog still waits for RTP. -/
theorem hold_with_null_address_ignored :
    let req := Sample.hold "0.0.0.0" "inactive"
    let g := Sample.answered
    let g' := (g.onSipInvite (Sample.config false) Sample.env 1 req Sample.peer).1
    (g.call.any fun c ↦ c.answered && inDialogOf c req) = true ∧
      Sdp.parse req.bodyStr = some (Sample.holdOffer (.v4 0) .inactive) ∧ Accepted 1 req g g' ∧
      ¬ HoldHonoured (Sample.config false) (Sample.holdOffer (.v4 0) .inactive) 1 req g g' :=
  ⟨by decide +kernel, by decide +kernel, by decide +kernel,
    fun h ↦ absurd h.recorded (by decide +kernel)⟩

/-- The same hold at the address of the caller. -/
theorem holdHonoured_iff_at_address :
    let req := Sample.hold "10.0.0.5" "inactive"
    let g := Sample.answered
    HoldHonoured (Sample.config false) (Sample.holdOffer (.v4 (ofOctets 10 0 0 5)) .inactive) 1 req g
      (g.onSipInvite (Sample.config false) Sample.env 1 req Sample.peer).1 :=
  (holdHonoured_iff (Sample.config false) Sample.env Sample.answered 1
    (Sample.hold "10.0.0.5" "inactive") Sample.peer (Option.some_get Sample.answered_isSome).symm
    (by decide +kernel) (by decide +kernel) (by decide +kernel) (by decide +kernel)).mpr
    (.inl (by decide +kernel))

end Modem2Sip.Gateway
