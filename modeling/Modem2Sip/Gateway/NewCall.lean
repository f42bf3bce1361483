import Modem2Sip.Gateway.Trace

/-!
# Which INVITEs place a call

An INVITE whose To header carries a tag asks for something inside a dialog.
`on_sip_invite` does not look at the tag: what it does depends on the call in the
slot, on the Call-ID and on what a new call needs.  `StaysInDialog` says what such
an INVITE may come to, and `onSipInvite_staysInDialog_iff` when it does.
-/

namespace Modem2Sip.Gateway

open Text Net Sip

variable (cfg : Config) (env : Env)

/-- The entries that a handler added. -/
def newEntries (g g' : State) : List Entry := (g'.log.drop g.log.length).map Prod.snd

theorem newEntries_eq {g g' : State} {new : List (Nat × Entry)} (h : g'.log = g.log ++ new) :
    newEntries g g' = new.map Prod.snd := by
  rw [newEntries, h, List.drop_left]

/-- The tag of the To header. -/
def toTag (req : Request) : Option Str := req.headers.toAddr.bind NameAddr.tag

/-- From `g` to `g'` an INVITE placed no call: nothing was dialled, the slot is as it was, and the
INVITE got a failure unless it belongs to the dialog of the call. -/
structure StaysInDialog (txn : Nat) (req : Request) (g g' : State) : Prop where
  noDial : ∀ number, Entry.dial number ∉ newEntries g g'
  noCall : g'.leg = g.leg
  refused : g.inDialog req = false → ∃ resp dest,
    Entry.respond (some txn) req resp dest ∈ newEntries g g' ∧ 400 ≤ resp.code

namespace State

variable (g : State) (txn : Nat) (req : Request) (src : SocketAddr)

/-- Has the INVITE what a new call needs?  A modem, a number, an offer with a codec of ours, and
the headers of a dialog. -/
def admits : Bool :=
  g.modem.isSome && decide (sanitizeNumber (req.uri.user.getD []) ≠ []) &&
    (Sdp.parse req.bodyStr).any (fun sdp ↦ sdp.negotiate.isSome && sdp.hasMedia) &&
    req.headers.toAddr.isSome && req.headers.fromAddr.isSome && req.headers.callId.isSome

/-- Nothing is in the slot, the INVITE is admitted, and either the 100 does not go out, which
ends the handling, or there is a port and the number is dialled. -/
def opensCall : Bool :=
  g.call.isNone && g.admits req && (!env.sendOk g.log.length || env.bindPort.isSome)

/-- A call that is not answered yet has the Call-ID of an INVITE that is not in its dialog. -/
def takenForRepeat : Bool :=
  g.call.any (fun c ↦ req.headers.callId == some c.callId && !c.answered) && !g.inDialog req

/-! ## The cases of an INVITE -/

/-- An INVITE without what a new call needs gets a failure, and that is all. -/
theorem onNewInvite_refused (h : g.admits req = false) :
    ∃ code, 400 ≤ code ∧ g.onNewInvite cfg env txn req src = g.reply cfg env txn req src code := by
  unfold onNewInvite
  split
  · exact ⟨503, by decide, rfl⟩
  · rename_i modem hmodem
    dsimp only
    split
    · exact ⟨484, by decide, rfl⟩
    · rename_i hnumber
      split
      · exact ⟨488, by decide, rfl⟩
      · rename_i sdp hsdp
        split
        · exact ⟨488, by decide, rfl⟩
        · rename_i codec hcodec
          split
          · exact ⟨488, by decide, rfl⟩
          · rename_i hmedia
            replace hmedia : sdp.hasMedia = true := by simpa using hmedia
            split
            · rename_i recipient sender callId hto hfrom hid
              simp [admits, hmodem, hnumber, hsdp, hcodec, hmedia, hto, hfrom, hid] at h
            · exact ⟨400, by decide, rfl⟩

/-- An INVITE with all of it gets the 100, and the call is placed if that went out. -/
theorem onNewInvite_admitted (h : g.admits req = true) :
    ∃ number sdp codec recipient sender callId, g.onNewInvite cfg env txn req src =
      if env.sendOk g.log.length then
        (g.reply cfg env txn req src 100).1.placeCall cfg env txn req src number sdp codec recipient
          sender callId
      else ((g.reply cfg env txn req src 100).1, false) := by
  simp only [admits, Bool.and_eq_true, decide_eq_true_eq, Option.any_eq_true,
    Option.isSome_iff_exists] at h
  obtain ⟨⟨⟨⟨⟨⟨modem, hmodem⟩, hnumber⟩, sdp, hsdp, ⟨codec, hcodec⟩, hmedia⟩, recipient, hto⟩,
    sender, hfrom⟩, callId, hid⟩ := h
  refine ⟨sanitizeNumber (req.uri.user.getD []), sdp, codec,
    recipient.withTag (env.random .dialogTag g.log.length), sender, callId, ?_⟩
  simp only [onNewInvite, hmodem, hnumber, hsdp, hcodec, hmedia, hto, hfrom, hid, if_false,
    Bool.not_true, Bool.false_eq_true]
  cases hok : env.sendOk g.log.length <;> simp [reply, respond, hok]

/-- Once there is a port, the number is dialled. -/
theorem placeCall_dials {port : Nat} (hport : env.bindPort = some port) (number : Str) (sdp : Sdp)
    (codec : Codec) (recipient sender : NameAddr) (callId : Str) :
    ∃ rest, (g.placeCall cfg env txn req src number sdp codec recipient sender callId).1.log =
      g.log ++ (g.now, .dial number) :: rest := by
  unfold placeCall
  rw [hport]
  dsimp only
  split
  · exact ⟨_, by simp only [reply, respond, emit_log, List.append_assoc]; rfl⟩
  · exact ⟨_, by simp only [takeCseq, emit_log, List.append_assoc]; rfl⟩

end State

/-! ## INVITEs inside a dialog -/

variable {g g' : State} {txn : Nat} {req : Request}

theorem Steady.mem_newEntries {P : Entry → Prop} (h : Steady P g g') {e : Entry}
    (he : e ∈ newEntries g g') : P e := by
  obtain ⟨new, hlog, hnew⟩ := h.log
  rw [newEntries_eq hlog] at he
  obtain ⟨⟨t, e⟩, hmem, rfl⟩ := List.mem_map.mp he
  exact (hnew _ hmem).2

theorem newEntries_respond (g : State) (txn : Option Nat) (req : Request) (resp : Response)
    (dest : SocketAddr) :
    newEntries g (g.respond env txn req resp dest).1 = [.respond txn req resp dest] :=
  newEntries_eq (State.emit_log ..)

theorem StaysInDialog.reply (src : SocketAddr) {code : Nat} (hcode : 400 ≤ code) :
    StaysInDialog txn req g (g.reply cfg env txn req src code).1 := by
  have hsteady := g.reply_steady cfg env txn req src code
  obtain ⟨resp, hresp, heq⟩ := g.reply_eq cfg env txn req src code
  refine ⟨fun _ ↦ hsteady.mem_newEntries, hsteady.leg, fun _ ↦ ⟨resp, src, ?_, hresp ▸ hcode⟩⟩
  rw [heq, newEntries_respond]
  exact List.mem_singleton_self _

/-- A re-INVITE is refused unless it is in the dialog of the call. -/
theorem StaysInDialog.onSipReinvite {c : ActiveCall} (hc : g.call = some c) (src : SocketAddr) :
    StaysInDialog txn req g (g.onSipReinvite cfg env txn req src).1 := by
  have hsteady := g.onSipReinvite_steady cfg env txn req src
  refine ⟨fun _ ↦ hsteady.mem_newEntries, hsteady.leg, fun hout ↦ ?_⟩
  have hreply (code : Nat) (hcode : 400 ≤ code) :=
    (.reply cfg env src hcode : StaysInDialog txn req g _).refused hout
  unfold State.onSipReinvite
  rw [hc]
  dsimp only
  split
  · exact hreply 491 (by decide)
  · simp only [hout, Bool.not_false, if_true]
    exact hreply 481 (by decide)

/-- Without a port the 100 is followed by a failure. -/
theorem StaysInDialog.placeCall (hport : env.bindPort = none) (src : SocketAddr) (number : Str)
    (sdp : Sdp) (codec : Codec) (recipient sender : NameAddr) (callId : Str) :
    StaysInDialog txn req g ((g.reply cfg env txn req src 100).1.placeCall cfg env txn req src
      number sdp codec recipient sender callId).1 := by
  have htry := (g.reply_steady cfg env txn req src 100).mono fun _ he ↦
    he.mono (fun _ _ h ↦ And.intro h.1 trivial) fun _ ↦ id
  have hfail := ((g.reply cfg env txn req src 100).1.reply_steady cfg env txn req src 500).mono
    fun _ he ↦ he.mono (fun _ _ h ↦ And.intro h.1 trivial) fun _ ↦ id
  have hsteady := htry.trans hfail
  unfold State.placeCall
  rw [hport]
  refine ⟨fun _ ↦ hsteady.mem_newEntries, hsteady.leg, fun _ ↦ ?_⟩
  obtain ⟨resp, -, heq⟩ := g.reply_eq cfg env txn req src 100
  obtain ⟨resp', hresp', heq'⟩ := (g.reply cfg env txn req src 100).1.reply_eq cfg env txn req src 500
  refine ⟨resp', src, ?_, by omega⟩
  dsimp only
  rw [heq', heq, newEntries_eq (by
    rw [State.respond, State.respond, State.emit_log, State.emit_log, List.append_assoc])]
  simp

/-- The INVITE of a call that is placed does not stay in a dialog: the number is dialled, or the
handling ends after the 100. -/
theorem not_staysInDialog_onNewInvite (hc : g.call = none) (hadm : g.admits req = true)
    (hopen : env.sendOk g.log.length = false ∨ env.bindPort.isSome) (src : SocketAddr) :
    ¬ StaysInDialog txn req g (g.onNewInvite cfg env txn req src).1 := by
  intro h
  obtain ⟨number, sdp, codec, recipient, sender, callId, heq⟩ :=
    g.onNewInvite_admitted cfg env txn req src hadm
  rw [heq] at h
  cases hok : env.sendOk g.log.length with
  | false =>
      -- All that was handed to the socket is the 100.
      rw [hok, if_neg (by decide)] at h
      obtain ⟨resp, dest, hmem, hcode⟩ := h.refused (by simp [State.inDialog, hc])
      have hresp : resp.code = 100 :=
        ((g.reply_steady cfg env txn req src 100).mem_newEntries hmem).2
      omega
  | true =>
      obtain ⟨port, hport⟩ : ∃ port, env.bindPort = some port := by
        simpa [hok, Option.isSome_iff_exists] using hopen
      rw [hok, if_pos rfl] at h
      obtain ⟨rest, hrest⟩ := (g.reply cfg env txn req src 100).1.placeCall_dials cfg env txn req
        src hport number sdp codec recipient sender callId
      refine h.noDial number ?_
      obtain ⟨resp, -, hreply⟩ := g.reply_eq cfg env txn req src 100
      rw [hreply] at hrest ⊢
      rw [newEntries_eq (hrest.trans (by rw [State.respond, State.emit_log, List.append_assoc]))]
      simp

/-- What is taken for a repeat of the INVITE gets a provisional again, and no failure. -/
theorem staysInDialog_repeat_iff {code : Nat} (hcode : code < 400)
    (h : Steady (Entry.Answers g.inviteTxn (· = code)) g g') :
    StaysInDialog txn req g g' ↔ g.inDialog req = true := by
  constructor
  · intro hstays
    by_contra hout
    obtain ⟨resp, dest, hmem, hfail⟩ := hstays.refused (by simpa using hout)
    have hresp : resp.code = code := (h.mem_newEntries hmem).2
    omega
  · intro hin
    exact ⟨fun _ ↦ h.mem_newEntries, h.leg, fun hout ↦ absurd hin (by simp [hout])⟩

/-- An INVITE, with a tag or without, stays in the dialog that it names exactly when it neither
finds an empty slot and all that a new call needs, nor the Call-ID of a call that still rings. -/
theorem onSipInvite_staysInDialog_iff (g : State) (txn : Nat) (req : Request) (src : SocketAddr) :
    StaysInDialog txn req g (g.onSipInvite cfg env txn req src).1 ↔
      g.opensCall env req = false ∧ g.takenForRepeat req = false := by
  unfold State.onSipInvite State.opensCall State.takenForRepeat
  cases hc : g.call with
  | none =>
      simp only [Option.isNone_none, Bool.true_and, Option.any_none, Bool.false_and, and_true]
      cases hadm : g.admits req with
      | false =>
          obtain ⟨code, hcode, heq⟩ := g.onNewInvite_refused cfg env txn req src hadm
          rw [heq]
          simpa using StaysInDialog.reply cfg env src hcode
      | true =>
          rw [Bool.true_and, Bool.or_eq_false_iff, Bool.not_eq_false']
          constructor
          · intro h
            by_contra hopen
            refine not_staysInDialog_onNewInvite cfg env hc hadm ?_ src h
            cases hok : env.sendOk g.log.length with
            | false => exact .inl rfl
            | true => exact .inr (by simpa [hok, Option.isSome_iff_ne_none] using hopen)
          · rintro ⟨hok, hport⟩
            obtain ⟨number, sdp, codec, recipient, sender, callId, heq⟩ :=
              g.onNewInvite_admitted cfg env txn req src hadm
            rw [heq, if_pos hok]
            exact .placeCall cfg env (by simpa using hport) ..
  | some c =>
      simp only [Option.isNone_some, Bool.false_and, true_and, Option.any_some]
      split
      · rename_i hid
        split
        · rename_i hans
          replace hans : c.answered = false := by simpa using hans
          have hrepeat (b : Bool) : ((req.headers.callId == some c.callId && !c.answered) && !b)
              = false ↔ b = true := by simp [hid, hans]
          rw [hrepeat]
          split
          · exact staysInDialog_repeat_iff (by decide) (g.respondWithMedia_steady cfg env 183)
          · exact staysInDialog_repeat_iff (by decide) (g.sendProvisional_steady cfg env 180)
        · rename_i hans
          replace hans : c.answered = true := by simpa using hans
          simpa [hans] using StaysInDialog.onSipReinvite cfg env hc src
      · rename_i hid
        simpa [hid] using StaysInDialog.reply cfg env (g := g) src (by decide : 400 ≤ 486)

/-- A call is set up and answered, the mobile side hangs up, and the BYE is lost: the caller's
session refresh is dialled as a new call. -/
theorem reinvite_after_call_dials :
    let g := Sample.idle.run (fun _ ↦ []) (Sample.config false)
      [ (.request (Sample.request .invite 1 [] Sample.offer) Sample.peer, Sample.env),
        (.callState "/call/1" stateActive 0, Sample.env),
        (.callState "/call/1" stateTerminated 0, Sample.env) ]
    let req := Sample.request .invite 2 ";tag=r0" Sample.offer
    (toTag req).isSome ∧
      ¬ StaysInDialog g.nextTxn req g
        (g.onSipInvite (Sample.config false) Sample.env g.nextTxn req Sample.peer).1 := by
  refine ⟨by decide +kernel, fun h ↦ h.noDial "01098765432" ?_⟩
  decide +kernel

end Modem2Sip.Gateway
