import Modem2Sip.Gateway.NewCall

/-!
# Requests outside the dialog of the call

While a call is in its slot, a request that is not in its dialog may ask for
something else, as a MESSAGE does, but has no say in the call: it is answered, and
the call is field by field what it was.  The one handler that looks at the Call-ID
alone is that of an INVITE before the call is answered, which is taken for a repeat
of the caller's.
-/

namespace Modem2Sip.Gateway

open Text Net Sip

variable (cfg : Config) (env : Env)

/-- Something is asked of the modem. -/
def Entry.asksModem : Entry → Bool
  | .dial _ | .hangup _ | .accept _ | .deleteCall _ | .sendDtmf _ _ _ | .sms _ _ _ => true
  | .submitSms _ _ _ | .submitMms _ _ _ => true
  | _ => false

/-- A message is handed to the task that submits it. -/
def Entry.submits : Entry → Bool
  | .submitSms _ _ _ | .submitMms _ _ _ => true
  | _ => false

/-- Something is done with the media session. -/
def Entry.touchesMedia : Entry → Bool
  | .mediaStarted _ | .rtp _ | .playTones _ _ => true
  | _ => false

/-- From `g` to `g'` the call was left alone: every field is the same, and nothing was asked of
the modem or done with the media. -/
def LeavesCallAlone (g g' : State) : Prop :=
  g'.call = g.call ∧ ∀ e ∈ newEntries g g', e.asksModem = false ∧ e.touchesMedia = false

/-- The provisional that a call has recorded as sent. -/
def ActiveCall.provisional (c : ActiveCall) : Option Nat :=
  if c.earlyMedia then some 183 else if c.ringingSent then some 180 else none

/-- The call is the same, and the only entries are those that `P` admits. -/
structure Bystander (P : Entry → Prop) (g g' : State) : Prop where
  call : g'.call = g.call
  entries : ∀ e ∈ newEntries g g', P e

namespace Bystander

variable {P Q : Entry → Prop} {g g' : State}

theorem mono (h : Bystander P g g') (hPQ : ∀ e, P e → Q e) : Bystander Q g g' :=
  ⟨h.call, fun e he ↦ hPQ e (h.entries e he)⟩

theorem refl (P : Entry → Prop) (g : State) : Bystander P g g :=
  ⟨rfl, by simp [newEntries]⟩

theorem emit (g : State) {e : Entry} (he : P e) : Bystander P g (g.emit e) := by
  refine ⟨rfl, fun e' he' ↦ ?_⟩
  rw [newEntries_eq (State.emit_log g e)] at he'
  obtain rfl := List.mem_singleton.mp he'
  exact he

end Bystander

/-- The request is answered. -/
abbrev Entry.Replies (txn : Nat) (req : Request) : Entry → Prop :=
  fun e ↦ ∃ resp dest, e = .respond (some txn) req resp dest

/-- The INVITE of the call is answered with this provisional. -/
abbrev Entry.Provisional (c : ActiveCall) (code : Nat) : Entry → Prop :=
  fun e ↦ ∃ resp, e = .respond c.inviteTxn c.invite resp c.inviteDest ∧ resp.code = code

section Handlers

variable {g : State} {c : ActiveCall} (txn : Nat) (req : Request) (src : SocketAddr)

theorem Bystander.reply (g : State) (code : Nat) :
    Bystander (Entry.Replies txn req) g (g.reply cfg env txn req src code).1 := by
  obtain ⟨resp, -, heq⟩ := g.reply_eq cfg env txn req src code
  rw [heq]
  exact .emit g ⟨resp, src, rfl⟩

/-- A repeat of an INVITE whose 180 is on record sends it again. -/
theorem sendProvisional_bystander (hc : g.call = some c) (hring : c.ringingSent = true) :
    Bystander (Entry.Provisional c 180) g (g.sendProvisional cfg env 180) := by
  have hsame : (g.updateCall fun c ↦ { c with ringingSent := true }) = g := by
    have hcall : { c with ringingSent := true } = c := by
      cases c
      simp_all
    cases g
    simp_all [State.updateCall]
  simp only [State.sendProvisional, hc, if_true, hsame]
  exact .emit g ⟨_, rfl, rfl⟩

/-- One whose 183 is on record sends that again, from the media that is already there. -/
theorem respondWithMedia_bystander (hc : g.call = some c) (hmedia : c.media.isSome = true) :
    Bystander (Entry.Provisional c 183) g (g.respondWithMedia cfg env 183).1 := by
  have hopen : c.media.isNone = false := by
    cases hm : c.media with
    | none => simp [hm] at hmedia
    | some m => rfl
  unfold State.respondWithMedia
  rw [hc]
  dsimp only
  split
  · exact .refl _ g
  · simp only [hopen, Bool.false_eq_true, if_false, Bool.not_true]
    exact .emit g ⟨_, rfl, rfl⟩

/-- The provisional that the call has on record. -/
abbrev Entry.Repeats (c : ActiveCall) : Entry → Prop :=
  fun e ↦ ∃ code, c.provisional = some code ∧ Entry.Provisional c code e

/-- An INVITE with the Call-ID of a call that is not answered is taken for a repeat. -/
theorem onSipInvite_repeat (hc : g.call = some c) (hid : req.headers.callId = some c.callId)
    (hans : c.answered = false) (hprov : c.provisional.isSome = true)
    (hmedia : c.earlyMedia = true → c.media.isSome = true) :
    Bystander (Entry.Repeats c) g (g.onSipInvite cfg env txn req src).1 := by
  unfold State.onSipInvite
  simp only [hc, hid, hans, if_true, Bool.not_false]
  cases hearly : c.earlyMedia with
  | true =>
      simp only [if_true]
      refine (respondWithMedia_bystander cfg env hc (hmedia hearly)).mono fun e h ↦ ?_
      exact ⟨183, by simp [ActiveCall.provisional, hearly], h⟩
  | false =>
      have hring : c.ringingSent = true := by
        by_contra hno
        simp [ActiveCall.provisional, hearly, hno] at hprov
      simp only [Bool.false_eq_true, if_false]
      refine (sendProvisional_bystander cfg env hc hring).mono fun e h ↦ ?_
      exact ⟨180, by simp [ActiveCall.provisional, hearly, hring], h⟩

/-- Any other INVITE outside the dialog is refused. -/
theorem onSipInvite_refused (hc : g.call = some c) (hout : inDialogOf c req = false)
    (h : req.headers.callId = some c.callId → c.answered = true) :
    Bystander (Entry.Replies txn req) g (g.onSipInvite cfg env txn req src).1 := by
  unfold State.onSipInvite
  rw [hc]
  dsimp only
  split
  · rename_i hid
    have hin : g.inDialog req = false := by simp [State.inDialog, hc, hout]
    simp only [h hid, Bool.not_true, Bool.false_eq_true, if_false, State.onSipReinvite, hc, hin,
      Bool.not_false, if_true]
    split
    · exact .reply cfg env txn req src g 491
    · exact .reply cfg env txn req src g 481
  · exact .reply cfg env txn req src g 486

theorem onSipBye_bystander (hc : g.call = some c) (hout : inDialogOf c req = false) :
    Bystander (Entry.Replies txn req) g (g.onSipBye cfg env txn req src).1 := by
  have hin : g.inDialog req = false := by simp [State.inDialog, hc, hout]
  unfold State.onSipBye
  simp only [hin, Bool.false_eq_true, if_false]
  generalize g.response cfg env req 481 = resp
  have hresp : Bystander (Entry.Replies txn req) g (g.respond env (some txn) req resp src).1 :=
    .emit g ⟨resp, src, rfl⟩
  split <;> exact hresp

theorem onSipCancel_bystander (hc : g.call = some c) (hcancel : State.cancels c req = false) :
    Bystander (Entry.Replies txn req) g (g.onSipCancel cfg env txn req src).1 := by
  have hresp : Bystander (Entry.Replies txn req) g
      (g.respond env (some txn) req (g.response cfg env req 200) src).1 := .emit g ⟨_, src, rfl⟩
  unfold State.onSipCancel
  dsimp only
  split
  · exact hresp
  · rw [show (g.respond env (some txn) req (g.response cfg env req 200) src).1.call = some c from hc]
    simp only [hcancel, Bool.false_eq_true, if_false]
    exact hresp

/-- Digits outside the dialog go nowhere. -/
theorem onSipInfo_bystander (hc : g.call = some c) (hout : inDialogOf c req = false) :
    Bystander (Entry.Replies txn req) g (g.onSipInfo cfg env txn req src).1 := by
  have hin : g.inDialog req = false := by simp [State.inDialog, hc, hout]
  have hresp (code : Nat) : Bystander (Entry.Replies txn req) g
      (g.respond env (some txn) req (g.response cfg env req code) src).1 := .emit g ⟨_, src, rfl⟩
  unfold State.onSipInfo
  simp only [hin, Bool.false_and, Bool.false_eq_true, if_false]
  split
  · exact hresp 415
  · split
    · exact hresp 200
    · exact hresp 481

/-- A MESSAGE is answered, or handed to the task that submits it. -/
theorem onSipMessage_bystander (g : State) :
    Bystander (fun e ↦ Entry.Replies txn req e ∨ e.submits = true) g
      (g.onSipMessage cfg env txn req src).1 := by
  have hreply (code : Nat) := (Bystander.reply cfg env txn req src g code).mono fun e h ↦
    (.inl h : Entry.Replies txn req e ∨ e.submits = true)
  unfold State.onSipMessage
  dsimp only
  split
  · exact hreply 415
  · split
    · exact hreply 503
    · split
      · exact .emit g (.inr rfl)
      · split
        · exact hreply 415
        · split
          · exact hreply 484
          · exact .emit g (.inr rfl)

end Handlers

/-- What a request outside the dialog may add to the log. -/
def Entry.Outside (c : ActiveCall) (req : Request) (e : Entry) : Prop :=
  e.touchesMedia = false ∧ (e.asksModem = true → req.method = .message ∧ e.submits = true) ∧
    (req.method = .invite → req.headers.callId = some c.callId → c.answered = false → e.Repeats c)

/-- With a call in its slot, a request of any method outside its dialog, other than the CANCEL of
the caller's pending INVITE, leaves every field of the call as it was and touches no media; only a
MESSAGE asks the modem for something, which is to submit it; and a repeat of the INVITE, once the
call has a 180 or a 183 on record, only sends that again. -/
theorem outside_dialog_leaves_call_alone (g : State) (c : ActiveCall) (txn : Nat) (req : Request)
    (src : SocketAddr) (hc : g.call = some c) (hout : inDialogOf c req = false)
    (hcancel : req.method = .cancel → State.cancels c req = false)
    (hrepeat : req.method = .invite → req.headers.callId = some c.callId → c.answered = false →
      c.provisional.isSome = true ∧ (c.earlyMedia = true → c.media.isSome = true)) :
    (g.onSipRequest cfg env txn req src).1.call = g.call ∧
      ∀ e ∈ newEntries g (g.onSipRequest cfg env txn req src).1, e.Outside c req := by
  have hbystander {P : Entry → Prop} {g' : State} (h : Bystander P g g')
      (hP : ∀ e, P e → e.Outside c req) :
      g'.call = g.call ∧ ∀ e ∈ newEntries g g', e.Outside c req :=
    ⟨h.call, fun e he ↦ hP e (h.entries e he)⟩
  have hreplies (hno : req.method = .invite → req.headers.callId = some c.callId →
      c.answered = true) (e : Entry) (he : Entry.Replies txn req e) : e.Outside c req := by
    obtain ⟨resp, dest, rfl⟩ := he
    refine ⟨rfl, nofun, fun hm hid hans ↦ ?_⟩
    exact absurd (hans.symm.trans (hno hm hid)) (by decide)
  unfold State.onSipRequest
  cases hm : req.method with
  | invite =>
      by_cases hrep : req.headers.callId = some c.callId ∧ c.answered = false
      · obtain ⟨hid, hans⟩ := hrep
        obtain ⟨hprov, hmedia⟩ := hrepeat hm hid hans
        refine hbystander (onSipInvite_repeat cfg env txn req src hc hid hans hprov hmedia) ?_
        rintro e ⟨code, hcode, resp, rfl, hresp⟩
        exact ⟨rfl, nofun, fun _ _ _ ↦ ⟨code, hcode, resp, rfl, hresp⟩⟩
      · have hans (hid : req.headers.callId = some c.callId) : c.answered = true := by
          cases ha : c.answered with
          | true => rfl
          | false => exact absurd ⟨hid, ha⟩ hrep
        exact hbystander (onSipInvite_refused cfg env txn req src hc hout hans)
          (hreplies fun _ ↦ hans)
  | ack => exact hbystander (.refl (Entry.Replies txn req) g) (hreplies (by simp [hm]))
  | bye => exact hbystander (onSipBye_bystander cfg env txn req src hc hout) (hreplies (by simp [hm]))
  | cancel =>
      exact hbystander (onSipCancel_bystander cfg env txn req src hc (hcancel hm))
        (hreplies (by simp [hm]))
  | info =>
      exact hbystander (onSipInfo_bystander cfg env txn req src hc hout) (hreplies (by simp [hm]))
  | message =>
      refine hbystander (onSipMessage_bystander cfg env txn req src g) ?_
      rintro e (hreply | hsubmit)
      · exact hreplies (by simp [hm]) e hreply
      · refine ⟨?_, fun _ ↦ ⟨hm, hsubmit⟩, by simp [hm]⟩
        cases e <;> first | rfl | exact absurd hsubmit Bool.false_ne_true
  | _ =>
      have hresp : Bystander (Entry.Replies txn req) g
          (g.respond env (some txn) req (g.response cfg env req 405) src).1 := .emit g ⟨_, src, rfl⟩
      exact hbystander hresp (hreplies (by simp [hm]))

/-! ## A caller's INVITE that rings -/

/-- The INVITE of a caller has been answered 180. -/
def Sample.ringing : State :=
  Sample.idle.run (fun _ ↦ []) (Sample.config false)
    [ (.request (Sample.request .invite 1 [] Sample.offer) Sample.peer, Sample.env),
      (.callState "/call/1" stateRingingOut 0, Sample.env) ]

/-- A text message that arrives in the meantime. -/
def Sample.message : Request :=
  let message := Sample.request .message 7 [] "on my way"
  { message with
    headers := (message.headers.set "to" "<sip:01098765432@gw.local;messagetype=sms>").set
      "call-id" "m1" }

/-- The MESSAGE is not in the dialog of the call, and asks the modem for something. -/
theorem message_asks_modem :
    let g := Sample.ringing
    g.call.any (fun c ↦ !inDialogOf c Sample.message) = true ∧
      ¬ LeavesCallAlone g
        (g.onSipRequest (Sample.config false) Sample.env g.nextTxn Sample.message Sample.peer).1 := by
  refine ⟨by decide +kernel, ?_⟩
  rintro ⟨-, hquiet⟩
  have hasks : (newEntries Sample.ringing (Sample.ringing.onSipRequest (Sample.config false) Sample.env
      Sample.ringing.nextTxn Sample.message Sample.peer).1).any Entry.asksModem = true := by
    decide +kernel
  obtain ⟨e, he, hask⟩ := List.any_eq_true.mp hasks
  exact absurd ((hquiet e he).1.symm.trans hask) (by decide)

/-- The INVITE arrives again in another transaction: the 180 is sent once more. -/
theorem outside_dialog_leaves_call_alone_repeat :
    let g := Sample.ringing
    let req := Sample.request .invite 1 [] Sample.offer
    ∃ c, g.call = some c ∧ c.provisional = some 180 ∧
      let g' := (g.onSipRequest (Sample.config false) Sample.env g.nextTxn req Sample.peer).1
      g'.call = g.call ∧ ∀ e ∈ newEntries g g', e.Outside c req := by
  have hall : Sample.ringing.call.any (fun c ↦
      !inDialogOf c (Sample.request .invite 1 [] Sample.offer) && c.provisional == some 180 &&
        !c.earlyMedia) = true := by
    decide +kernel
  obtain ⟨c, hc, hbool⟩ := (Option.any_eq_true ..).mp hall
  obtain ⟨⟨hout, hprov⟩, hearly⟩ : (inDialogOf c (Sample.request .invite 1 [] Sample.offer) = false ∧
      c.provisional = some 180) ∧ c.earlyMedia = false := by
    simpa only [Bool.and_eq_true, Bool.not_eq_true', beq_iff_eq] using hbool
  refine ⟨c, hc, hprov, outside_dialog_leaves_call_alone _ _ _ c _ _ _ hc hout nofun ?_⟩
  exact fun _ _ _ ↦ ⟨by simp [hprov], by simp [hearly]⟩

end Modem2Sip.Gateway
