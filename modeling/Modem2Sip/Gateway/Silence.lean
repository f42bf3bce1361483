import Modem2Sip.Gateway.Turn

/-!
# The inactivity watchdog

The silence clock starts when the media session opens and again with each RTP
packet and each renegotiation.  `Quiet` says that no packet came after that start,
so a call that `check_media` ends for silence has been without a packet for the
whole timeout.  Whether the caller could have sent any is another matter: it has
to have our description first, and that is sent on its own schedule.
-/

namespace Modem2Sip.Gateway

open Text Net Sip

variable (md5Hex : List UInt8 → Str) (cfg : Config) (env : Env)

/-- An RTP packet was accepted. -/
def Entry.isRtp : Entry → Bool
  | .rtp _ => true
  | _ => false

/-- A 183 or 200 with our description goes out on the INVITE that was delivered as `txn`. -/
def Entry.describesMedia (txn : Option Nat) : Entry → Bool
  | .respond t _ resp _ => t == txn && (resp.code == 183 || resp.code == 200) &&
      resp.headers.get "content-type" == some "application/sdp" && resp.body != []
  | _ => false

/-- What the end of a call for silence is recorded as. -/
def silenceReason : Str := "the SIP peer stopped sending RTP"

/-- From `g` to `g'` a call was ended for silence. -/
def EndedForSilence (g g' : State) : Prop :=
  ∃ callId cdrId, Entry.finished callId silenceReason cdrId ∈ newEntries g g'

/-- The caller has had our description for the whole timeout, in which no RTP packet came. -/
def PeerCouldSend (g : State) : Prop :=
  ∃ e ∈ g.log, e.2.describesMedia g.inviteTxn = true ∧ e.1 + cfg.timeoutSecs * 1000 ≤ g.now ∧
    ∀ r ∈ g.log, r.2.isRtp = true → r.1 + cfg.timeoutSecs * 1000 ≤ g.now

instance (g : State) : Decidable (PeerCouldSend cfg g) :=
  inferInstanceAs (Decidable (∃ e ∈ g.log, _ ∧ _ ∧ ∀ r ∈ g.log, _ → _))

/-- When the silence clock was last started, the caller had our description. -/
def ClockAfterOffer (g : State) : Prop :=
  ∀ m ∈ g.media, ∃ e ∈ g.log, e.2.describesMedia g.inviteTxn = true ∧
    e.1 ≤ m.started + m.lastRtpMs

instance (g : State) : Decidable (ClockAfterOffer g) :=
  inferInstanceAs (Decidable (∀ m ∈ g.media, ∃ e ∈ g.log, _ ∧ _))

/-! ## What keeps the clock -/

/-- From `g` to `g'` no RTP packet came, and the clock is as it was, started now, or gone. -/
structure Hushed (g g' : State) : Prop where
  now : g'.now = g.now
  clock : ∀ m, g'.media = some m → g.media = some m ∨ m.lastRtpMs = m.elapsedMs g.now
  log : ∃ new, g'.log = g.log ++ new ∧ ∀ e ∈ new, e.1 = g.now ∧ e.2.isRtp = false

theorem Entry.Allowed.isRtp {resp : Option Nat → Nat → Prop} {meth : Method → Prop} {e : Entry}
    (h : e.Allowed resp meth) : e.isRtp = false := by
  cases e with
  | rtp src => exact h.elim
  | _ => rfl

namespace Hushed

variable {g g₁ g₂ g₃ : State}

theorem refl (g : State) : Hushed g g := ⟨rfl, fun _ ↦ .inl, [], by simp⟩

theorem trans (h₁ : Hushed g₁ g₂) (h₂ : Hushed g₂ g₃) : Hushed g₁ g₃ where
  now := h₂.now.trans h₁.now
  clock m hm := by
    rcases h₂.clock m hm with hm | hm
    · exact h₁.clock m hm
    · rw [h₁.now] at hm
      exact .inr hm
  log := by
    obtain ⟨new₁, hl₁, hnew₁⟩ := h₁.log
    obtain ⟨new₂, hl₂, hnew₂⟩ := h₂.log
    refine ⟨new₁ ++ new₂, by rw [hl₂, hl₁, List.append_assoc], fun e he ↦ ?_⟩
    rcases List.mem_append.mp he with h | h
    · exact hnew₁ e h
    · exact ⟨(hnew₂ e h).1.trans h₁.now, (hnew₂ e h).2⟩

/-- A handler that leaves the leg alone. -/
theorem of_steady {resp : Option Nat → Nat → Prop} {meth : Method → Prop}
    (h : Steady (Entry.Allowed resp meth) g₁ g₂) : Hushed g₁ g₂ where
  now := h.now
  clock := h.clock
  log := by
    obtain ⟨new, hlog, hnew⟩ := h.log
    exact ⟨new, hlog, fun e he ↦ ⟨(hnew e he).1, (hnew e he).2.isRtp⟩⟩

theorem emit (g : State) {e : Entry} (he : e.isRtp = false) : Hushed g (g.emit e) :=
  ⟨rfl, fun _ ↦ .inl, [(g.now, e)], rfl, by simpa using he⟩

/-- A change beside the clock and the log. -/
theorem congr (hnow : g₂.now = g₁.now) (hmedia : ∀ m, g₂.media = some m → g₁.media = some m)
    (hlog : g₂.log = g₁.log) : Hushed g₁ g₂ :=
  ⟨hnow, fun m hm ↦ .inl (hmedia m hm), [], by simpa using hlog⟩

theorem takeCseq (g : State) : Hushed g g.takeCseq.2 := congr rfl (fun _ ↦ id) rfl

theorem updateCall (g : State) {f : ActiveCall → ActiveCall} (hf : ∀ c, (f c).media = c.media) :
    Hushed g (g.updateCall f) := by
  refine congr rfl (fun m hm ↦ ?_) rfl
  unfold State.media at hm ⊢
  rw [State.updateCall_call] at hm
  cases hc : g.call with
  | none => simp [hc] at hm
  | some c => simpa [hc, hf] using hm

theorem finishCall (g : State) (disposition : Str) : Hushed g (g.finishCall disposition) := by
  cases hc : g.call with
  | none => simpa [State.finishCall, hc] using refl g
  | some c =>
      refine ⟨?_, fun m hm ↦ ?_, _, g.finishCall_log hc disposition, by simp [Entry.isRtp]⟩
      · unfold State.finishCall
        rw [hc]
        dsimp only
        rw [State.emit_now, State.dropTasks_eq]
      · simp [State.media] at hm

/-- The call is new, and has no media yet. -/
theorem place (g : State) {c : ActiveCall} (hc : c.media = none) :
    Hushed g { g with call := some c } :=
  congr rfl (fun m hm ↦ by simp [State.media, hc] at hm) rfl

/-! ### The handlers -/

theorem of_turn (h : Turn True g₁ g₂) : Hushed g₁ g₂ := by
  refine h.lift refl trans fun hmove ↦ ?_
  cases hmove with
  | rest hs => exact of_steady hs
  | finish _ disposition => exact (of_steady (State.hangupMobile_steady _)).trans (finishCall _ disposition)
  | update _ _ hmedia _ => exact updateCall _ hmedia

variable (g : State)

theorem onSipRequest (txn : Nat) (req : Request) (src : SocketAddr) :
    Hushed g (g.onSipRequest cfg env txn req src).1 := by
  by_cases hnew : req.method = .invite ∧ g.call = none ∧ g.admits req = true
  · obtain ⟨hm, hc, hadm⟩ := hnew
    have hreply (g : State) (code : Nat) : Hushed g (g.reply cfg env txn req src code).1 :=
      of_steady (g.reply_steady cfg env txn req src code)
    obtain ⟨number, sdp, codec, recipient, sender, callId, heq⟩ :=
      g.onNewInvite_admitted cfg env txn req src hadm
    unfold State.onSipRequest State.onSipInvite
    rw [hm, hc]
    dsimp only
    rw [heq]
    split
    · refine (hreply g 100).trans ?_
      unfold State.placeCall
      split
      · exact hreply _ 500
      · dsimp only
        split
        · exact (emit _ rfl).trans (hreply _ 503)
        · have hdial (g : State) : Hushed g (g.emit (.dial number)) := emit g rfl
          have hcdr (g : State) : Hushed g (g.emit (.cdrStarted number)) := emit g rfl
          exact ((hdial _).trans (hcdr _)).trans ((takeCseq _).trans (place _ rfl))
    · exact hreply g 100
  · exact of_turn (.onSipRequest cfg env g txn req src fun hm hc ↦ by simpa [hm, hc] using hnew)

theorem onMmCallAdded (path : Path) : Hushed g (g.onMmCallAdded cfg env path) := by
  have hhangup (g : State) : Hushed g (g.emit (.hangup path)) := emit g rfl
  unfold State.onMmCallAdded
  split
  · exact refl g
  · split
    · exact refl g
    · split
      · exact refl g
      · rename_i info _
        split
        · exact emit g rfl
        · split
          · exact hhangup g
          · split
            · exact hhangup g
            · rcases g.startSipCall_cases cfg env path info with
                heq | ⟨req, dest, hmethod, hsent⟩
              · simp only [heq]
                exact hhangup g
              · have hs : Hushed g (g.takeCseq.2.sendRequest env req dest).1 :=
                  (takeCseq g).trans (of_steady (State.sendRequest_steady
                    (P := Entry.Sends (· = .invite)) _ _ _ _ hmethod))
                rcases hsent with heq | ⟨txn, c, deadline, -, hplaced, -, -, -, -, -, heq⟩
                · simp only [heq]
                  exact hs.trans (hhangup _)
                · simp only [heq]
                  have hcdr (g : State) : Hushed g (g.emit (.cdrStarted c.peerNumber)) :=
                    emit g rfl
                  exact (hs.trans (hcdr _)).trans (place _ hplaced.media)

/-! ### The tasks beside the loop -/

variable {g} in
theorem of_beside {g' : State} (h : Beside g g') : Hushed g g' := by
  obtain ⟨new, hlog, hnew⟩ := h.log
  refine ⟨h.now, fun m hm ↦ .inl ?_, new, hlog, fun e he ↦ ⟨(hnew e he).1, ?_⟩⟩
  · exact (h.bind_call fun _ ↦ rfl).symm.trans hm
  · obtain ⟨-, resp, heq⟩ := hnew e he
    rw [heq]
    rfl

end Hushed

/-! ## The invariant -/

/-- Nothing in the log lies in the future, and no packet came since the clock was started. -/
structure Quiet (g : State) : Prop where
  past : ∀ e ∈ g.log, e.1 ≤ g.now
  clock : ∀ m, g.media = some m → ∀ r ∈ g.log, r.2.isRtp = true →
    r.1 ≤ m.started + m.lastRtpMs ∨ m.lastRtpMs = 2 ^ 32 - 1

/-- A clock that is started now has nothing after its start. -/
theorem MediaSession.le_of_elapsed {m : MediaSession} {now r : Nat} (hr : r ≤ now)
    (hm : m.lastRtpMs = m.elapsedMs now) :
    r ≤ m.started + m.lastRtpMs ∨ m.lastRtpMs = 2 ^ 32 - 1 := by
  unfold MediaSession.elapsedMs at hm
  omega

theorem MediaSession.receive_elapsed (symmetric : Bool) (m : MediaSession) (now : Nat)
    (src : SocketAddr) :
    (m.receive symmetric now src).lastRtpMs = (m.receive symmetric now src).elapsedMs now := by
  unfold MediaSession.receive
  dsimp only
  split <;> rfl

namespace Quiet

variable {g g' : State}

theorem init (now : Nat) : Quiet (State.init now) :=
  ⟨by simp [State.init], by simp [State.init]⟩

theorem hushed (hq : Quiet g) (h : Hushed g g') : Quiet g' := by
  obtain ⟨new, hlog, hnew⟩ := h.log
  constructor
  · intro e he
    rw [h.now]
    rw [hlog] at he
    rcases List.mem_append.mp he with he | he
    · exact hq.past e he
    · exact (hnew e he).1.le
  · intro m hm r hr hrtp
    have hr : r ∈ g.log := by
      rw [hlog] at hr
      rcases List.mem_append.mp hr with hr | hr
      · exact hr
      · exact absurd hrtp (by simp [(hnew r hr).2])
    rcases h.clock m hm with hm | hm
    · exact hq.clock m hm r hr hrtp
    · exact m.le_of_elapsed (hq.past r hr) hm

theorem onRtp (hq : Quiet g) (src : SocketAddr) : Quiet (g.onRtp cfg src) := by
  unfold State.onRtp
  split
  · exact hq
  · split
    · exact hq
    · split
      · have hpast (e : Nat × Entry) (he : e ∈ g.log ++ [(g.now, .rtp src)]) : e.1 ≤ g.now := by
          rcases List.mem_append.mp he with he | he
          · exact hq.past e he
          · rw [List.mem_singleton.mp he]
        refine ⟨hpast, fun m hm r hr _ ↦ ?_⟩
        obtain rfl := Option.some.inj hm
        exact MediaSession.le_of_elapsed (hpast r hr) (MediaSession.receive_elapsed ..)
      · exact hq

theorem step (hq : Quiet g) (e : Event × Env) : Quiet (g.step md5Hex cfg e) := by
  obtain ⟨e, env⟩ := e
  unfold State.step
  dsimp only
  split
  · exact hq
  · cases e with
    | rtp src => exact hq.onRtp cfg src
    | advance ms => exact ⟨fun e he ↦ (hq.past e he).trans (Nat.le_add_right ..), hq.clock⟩
    | request req src =>
        have hq' : Quiet { g with nextTxn := g.nextTxn + 1 } := hq.hushed (.congr rfl (fun _ ↦ id) rfl)
        exact hq'.hushed (.onSipRequest cfg env _ _ req src)
    | modemUp modem => exact hq.hushed (.congr rfl (fun _ ↦ id) rfl)
    | modemDown =>
        have hq' : Quiet { g with modem := none } := hq.hushed (.congr rfl (fun _ ↦ id) rfl)
        exact hq'.hushed (.of_turn (.teardownCall cfg env _ _ _))
    | callAdded path => exact hq.hushed (.onMmCallAdded cfg env g path)
    | callDeleted path =>
        dsimp only
        split
        · exact hq.hushed (.of_turn (.teardownCall cfg env g _ _))
        · exact hq
    | callState path new reason => exact hq.hushed (.of_turn (.onMmCallState cfg env g path new reason fun _ ↦ trivial))
    | modemDtmf path digit =>
        dsimp only
        split
        · exact hq.hushed (.of_steady (g.sendDtmfInfo_steady cfg env digit))
        · exact hq
    | smsAdded path received => exact hq.hushed (.emit g rfl)
    | internal =>
        dsimp only
        split
        · exact hq
        · rename_i ev rest _
          have hq' : Quiet { g with internal := rest } := hq.hushed (.congr rfl (fun _ ↦ id) rfl)
          exact hq'.hushed (.of_turn (.onInternal md5Hex cfg env _ ev (fun _ _ _ ↦ trivial) fun _ _ _ ↦ trivial))
    | tick => exact hq.hushed (.of_turn (.checkMedia cfg env g))
    | shutdown =>
        exact (hq.hushed (.of_turn (.teardownCall cfg env g _ _))).hushed (.congr rfl (fun _ ↦ id) rfl)
    | response resp => exact hq.hushed (.of_beside (.onResponse g resp))
    | inviteTask i => exact hq.hushed (.of_beside (.inviteTask g i))
    | inviteTimeout i => exact hq.hushed (.of_beside (.inviteTimeout g i))
    | audioHeard level => exact hq.hushed (.of_beside (.audioHeard g level))
    | rtpDigit digit => exact hq.hushed (.of_beside (.relayDigit g _ _))
    | inbandDigit digit => exact hq.hushed (.of_beside (.relayDigit g _ _))
    | transact req dest =>
        dsimp only
        split
        · exact hq
        · exact hq.hushed (.of_steady (g.sendInBackground_steady
            (P := Entry.Sends fun _ ↦ True) env req dest trivial))
    | backgroundDone i =>
        dsimp only
        split
        · exact hq
        · exact hq.hushed (.congr rfl (fun _ ↦ id) rfl)

end Quiet

/-! ## Runs -/

/-- A teardown records its own reason. -/
theorem State.teardownCall_reason (g : State) (reason : Str) (code : Nat) {callId found : Str}
    {cdrId : Option Nat}
    (h : Entry.finished callId found cdrId ∈ newEntries g (g.teardownCall cfg env reason code)) :
    found = reason := by
  obtain ⟨g', hs, heq⟩ := g.teardownCall_eq cfg env reason code
  obtain ⟨new, hlog, hnew⟩ := hs.log
  have hold : ∀ e ∈ new.map Prod.snd, e ≠ Entry.finished callId found cdrId := by
    intro e he heq
    obtain ⟨⟨t, e⟩, hmem, rfl⟩ := List.mem_map.mp he
    have := (hnew _ hmem).2
    rw [show (t, e).2 = _ from heq] at this
    exact this
  rw [heq] at h
  cases hc : g'.call with
  | none =>
      rw [newEntries_eq (by rw [State.finishCall, hc]; exact hlog)] at h
      exact absurd rfl (hold _ h)
  | some c =>
      rw [newEntries_eq (by rw [g'.finishCall_log hc, hlog, List.append_assoc])] at h
      rw [List.map_append] at h
      rcases List.mem_append.mp h with h | h
      · exact absurd rfl (hold _ h)
      · obtain ⟨-, rfl, -⟩ := Entry.finished.inj (List.mem_singleton.mp h)
        rfl

/-- Only a call whose peer was silent for too long is ended for silence. -/
theorem silentTooLong_of_ended {g : State} (h : EndedForSilence g (g.checkMedia cfg env)) :
    ∃ m, g.media = some m ∧ cfg.timeoutSecs * 1000 < m.silence g.now := by
  obtain ⟨callId, cdrId, hmem⟩ := h
  unfold State.checkMedia at hmem
  split at hmem
  · simp [newEntries] at hmem
  · rename_i c hc
    split at hmem
    · simp [newEntries] at hmem
    · rename_i m hm
      split at hmem
      · -- The audio stream died, and that is what the record says.
        have hreason := State.teardownCall_reason cfg env g _ _ hmem
        exact absurd hreason (by decide)
      · split at hmem
        · rename_i hsilent
          refine ⟨m, by simp [State.media, hc, hm], ?_⟩
          have := (Bool.and_eq_true _ _).mp hsilent
          exact of_decide_eq_true this.2
        · simp [newEntries] at hmem

/-- In every run, a call from SIP that a tick ends for silence could have been sending for the whole
timeout, if it had our description when the silence clock was last started. -/
theorem ended_only_if_peer_could_send (now : Nat) (es : List (Event × Env)) (env : Env)
    (hoffer : ClockAfterOffer ((State.init now).run md5Hex cfg es))
    (hend : EndedForSilence ((State.init now).run md5Hex cfg es)
      (((State.init now).run md5Hex cfg es).checkMedia cfg env)) :
    PeerCouldSend cfg ((State.init now).run md5Hex cfg es) := by
  have hq : Quiet ((State.init now).run md5Hex cfg es) :=
    Run.invariant (fun g e hq ↦ hq.step md5Hex cfg e) es (.init now)
  obtain ⟨m, hm, hsilent⟩ := silentTooLong_of_ended cfg env hend
  obtain ⟨e, he, hdescr, hstart⟩ := hoffer m hm
  unfold MediaSession.silence MediaSession.elapsedMs at hsilent
  refine ⟨e, he, hdescr, by omega, fun r hr hrtp ↦ ?_⟩
  rcases hq.clock m hm r hr hrtp with h | h <;> omega

/-- With early media the session opens when the mobile phone starts to ring: after a minute of
ringing the call is ended because of a caller who has been sent a 180 and no description. -/
theorem ringing_call_ended_for_silence :
    let g := (State.init 1700000000000).run (fun _ ↦ []) (Sample.config true)
      [ (.modemUp { ownNumber := none }, Sample.env),
        (.request (Sample.request .invite 1 [] Sample.offer) Sample.peer, Sample.env),
        (.callState "/call/1" stateRingingOut 0, Sample.env),
        (.advance 61000, Sample.env) ]
    (g.call.any fun c ↦ c.role == .fromSip) = true ∧
      EndedForSilence g (g.checkMedia (Sample.config true) Sample.env) ∧
      ¬ PeerCouldSend (Sample.config true) g :=
  ⟨by decide +kernel, ⟨"c1", some 1, by decide +kernel⟩, by decide +kernel⟩

/-- A call that is answered, and whose caller sends nothing for a minute after the 200. -/
theorem ended_only_if_peer_could_send_answered :
    let g := (State.init 1700000000000).run (fun _ ↦ []) (Sample.config false)
      [ (.modemUp { ownNumber := none }, Sample.env),
        (.request (Sample.request .invite 1 [] Sample.offer) Sample.peer, Sample.env),
        (.callState "/call/1" stateActive 0, Sample.env),
        (.advance 61000, Sample.env) ]
    PeerCouldSend (Sample.config false) g :=
  ended_only_if_peer_could_send _ _ _ _ Sample.env (by decide +kernel)
    ⟨"c1", some 1, by decide +kernel⟩

end Modem2Sip.Gateway
