import Modem2Sip.Gateway.Loop

/-!
# What a handler leaves alone

Most of what a handler does concerns neither the INVITE of the call nor its place
in the slot.  `Leg` is the part of a call that the signalling of its INVITE is
about, and `Steady P g g'` says that between two states the leg is the same, that
the log grew only by entries satisfying `P`, and that the modem, the mobile leg and the
channels in use were not touched.  One lemma for each function says which entries it may add; the
invariants of the following modules are derived from these lemmas.
-/

namespace Modem2Sip.Gateway

open Text Net Sip

/-! ## The leg of a call -/

/-- The transaction of a task that waits for the responses to an INVITE. -/
def Task.inviteTxn? : Task → Option ClientTxn
  | .inviteResponse txn _ => some txn
  | _ => none

/-- The part of a call that its INVITE is about. -/
structure Leg where
  role : Role
  callId : Str
  invite : Request
  inviteTxn : Option Nat
  localCseq : Nat
  answered : Bool
  waiting : List ClientTxn
deriving DecidableEq, Repr

def ActiveCall.leg (c : ActiveCall) : Leg where
  role := c.role
  callId := c.callId
  invite := c.invite
  inviteTxn := c.inviteTxn
  localCseq := c.localCseq
  answered := c.answered
  waiting := c.tasks.filterMap Task.inviteTxn?

namespace State

/-- The leg of the call in the slot. -/
def leg (g : State) : Option Leg := g.call.map ActiveCall.leg

/-- The media session of the call in the slot. -/
def media (g : State) : Option MediaSession := g.call.bind ActiveCall.media

/-- The request that the INVITE of the call was delivered as. -/
def inviteTxn (g : State) : Option Nat := g.leg.bind Leg.inviteTxn

@[simp] theorem emit_leg (g : State) (e : Entry) : (g.emit e).leg = g.leg := rfl

theorem leg_of_call {g : State} {c : ActiveCall} (hc : g.call = some c) : g.leg = some c.leg := by
  simp [leg, hc]

theorem inviteTxn_of_call {g : State} {c : ActiveCall} (hc : g.call = some c) :
    g.inviteTxn = c.inviteTxn := by
  simp [inviteTxn, leg, hc, ActiveCall.leg]

end State

/-! ## Entries -/

/-- The entries of a handler that neither dials nor ends a call: responses with a transaction and
a code that `resp` admits, requests with a method that `meth` admits, and what concerns the
modem, the records and the media. -/
def Entry.Allowed (resp : Option Nat → Nat → Prop) (meth : Method → Prop) : Entry → Prop
  | .respond txn _ r _ => resp txn r.code
  | .send req _ => meth req.method
  | .heard _ => False
  | .rtp _ => False
  | .dial _ => False
  | .finished _ _ _ => False
  | _ => True

theorem Entry.Allowed.mono {resp resp' : Option Nat → Nat → Prop} {meth meth' : Method → Prop}
    (hresp : ∀ t k, resp t k → resp' t k) (hmeth : ∀ m, meth m → meth' m) {e : Entry}
    (h : e.Allowed resp meth) : e.Allowed resp' meth' := by
  cases e <;> first | exact hresp _ _ h | exact hmeth _ h | exact h

/-- The entries that no response from the network and no end of a call leaves. -/
def Entry.Quiet : Entry → Prop
  | .heard _ => False
  | .finished _ _ _ => False
  | _ => True

theorem Entry.Allowed.quiet {resp : Option Nat → Nat → Prop} {meth : Method → Prop} {e : Entry}
    (h : e.Allowed resp meth) : e.Quiet := by
  cases e <;> first | exact h | trivial

/-- Nothing is sent. -/
abbrev Entry.Silent : Entry → Prop := Entry.Allowed (fun _ _ ↦ False) (fun _ ↦ False)

/-! ## Steadiness -/

/-- From `g` to `g'` the log grew by entries satisfying `P`, the leg, the channels in use and the
internal events are the same, and the silence clock is the same or starts now. -/
structure Steady (P : Entry → Prop) (g g' : State) : Prop where
  now : g'.now = g.now
  nextTxn : g'.nextTxn = g.nextTxn
  modem : g'.modem = g.modem
  path : g'.mmPath = g.mmPath
  leg : g'.leg = g.leg
  clock : ∀ m, g'.media = some m → g.media = some m ∨ m.lastRtpMs = m.elapsedMs g.now
  internal : g'.internal = g.internal
  cseq : g.cseq < 2 ^ 32 → g'.cseq < 2 ^ 32
  nextChan : g.nextChan ≤ g'.nextChan
  chans : ∀ k < g.nextChan, g'.chans.get? k = g.chans.get? k
  background : ∃ new, g'.background = g.background ++ new ∧ (new.map ClientTxn.chan).Nodup ∧
    ∀ txn ∈ new, g.nextChan ≤ txn.chan ∧ txn.chan < g'.nextChan
  log : ∃ new, g'.log = g.log ++ new ∧ ∀ e ∈ new, e.1 = g.now ∧ P e.2

namespace Steady

variable {P Q : Entry → Prop} {g g₁ g₂ g₃ : State}

theorem refl (P : Entry → Prop) (g : State) : Steady P g g where
  now := rfl
  nextTxn := rfl
  modem := rfl
  path := rfl
  leg := rfl
  clock _ := .inl
  internal := rfl
  cseq := id
  nextChan := le_rfl
  chans _ _ := rfl
  background := ⟨[], by simp⟩
  log := ⟨[], by simp⟩

theorem mono (h : Steady P g₁ g₂) (hPQ : ∀ e, P e → Q e) : Steady Q g₁ g₂ :=
  { h with
    log := by
      obtain ⟨new, hlog, hnew⟩ := h.log
      exact ⟨new, hlog, fun e he ↦ ⟨(hnew e he).1, hPQ _ (hnew e he).2⟩⟩ }

theorem trans (h₁ : Steady P g₁ g₂) (h₂ : Steady P g₂ g₃) : Steady P g₁ g₃ where
  now := h₂.now.trans h₁.now
  nextTxn := h₂.nextTxn.trans h₁.nextTxn
  modem := h₂.modem.trans h₁.modem
  path := h₂.path.trans h₁.path
  leg := h₂.leg.trans h₁.leg
  clock m hm := by
    rcases h₂.clock m hm with hm | hm
    · exact h₁.clock m hm
    · rw [h₁.now] at hm
      exact .inr hm
  internal := h₂.internal.trans h₁.internal
  cseq h := h₂.cseq (h₁.cseq h)
  nextChan := h₁.nextChan.trans h₂.nextChan
  chans k hk := (h₂.chans k (hk.trans_le h₁.nextChan)).trans (h₁.chans k hk)
  background := by
    obtain ⟨new₁, hb₁, hnd₁, hnew₁⟩ := h₁.background
    obtain ⟨new₂, hb₂, hnd₂, hnew₂⟩ := h₂.background
    refine ⟨new₁ ++ new₂, by rw [hb₂, hb₁, List.append_assoc], ?_, ?_⟩
    · rw [List.map_append, List.nodup_append]
      refine ⟨hnd₁, hnd₂, ?_⟩
      intro a ha b hb
      obtain ⟨t₁, ht₁, rfl⟩ := List.mem_map.mp ha
      obtain ⟨t₂, ht₂, rfl⟩ := List.mem_map.mp hb
      have := (hnew₁ t₁ ht₁).2
      have := (hnew₂ t₂ ht₂).1
      omega
    · intro txn htxn
      have hle₁ := h₁.nextChan
      have hle₂ := h₂.nextChan
      rcases List.mem_append.mp htxn with h | h
      · have := hnew₁ txn h; omega
      · have := hnew₂ txn h; omega
  log := by
    obtain ⟨new₁, hl₁, hnew₁⟩ := h₁.log
    obtain ⟨new₂, hl₂, hnew₂⟩ := h₂.log
    refine ⟨new₁ ++ new₂, by rw [hl₂, hl₁, List.append_assoc], fun e he ↦ ?_⟩
    rcases List.mem_append.mp he with h | h
    · exact hnew₁ e h
    · have := hnew₂ e h
      exact ⟨this.1.trans h₁.now, this.2⟩

/-- One entry. -/
theorem emit (g : State) {e : Entry} (he : P e) : Steady P g (g.emit e) where
  now := rfl
  nextTxn := rfl
  modem := rfl
  path := rfl
  leg := rfl
  clock _ := .inl
  internal := rfl
  cseq := id
  nextChan := le_rfl
  chans _ _ := rfl
  background := ⟨[], by simp [State.emit]⟩
  log := ⟨[(g.now, e)], by simp [he]⟩

/-- The call is put back with the same leg, and its clock as it was or started now. -/
theorem setCall {g : State} {c c' : ActiveCall} (hc : g.call = some c) (hleg : c'.leg = c.leg)
    (hclock : ∀ m, c'.media = some m → c.media = some m ∨ m.lastRtpMs = m.elapsedMs g.now)
    (hpath : c'.mmPath = c.mmPath := by rfl) : Steady P g { g with call := some c' } where
  now := rfl
  nextTxn := rfl
  modem := rfl
  path := by simp [State.mmPath, hc, hpath]
  leg := by simp [State.leg, hc, hleg]
  clock m hm := by simpa [State.media, hc] using hclock m hm
  internal := rfl
  cseq := id
  nextChan := le_rfl
  chans _ _ := rfl
  background := ⟨[], by simp⟩
  log := ⟨[], by simp⟩

/-- A change of the call that keeps its leg and its media session. -/
theorem updateCall (g : State) {f : ActiveCall → ActiveCall} (hf : ∀ c, (f c).leg = c.leg)
    (hm : ∀ c, (f c).media = c.media) (hpath : ∀ c, (f c).mmPath = c.mmPath := by intro; rfl) :
    Steady P g (g.updateCall f) := by
  cases hc : g.call with
  | none =>
      have hsame : g.updateCall f = g := by
        cases g
        simp_all [State.updateCall]
      rw [hsame]
      exact refl P g
  | some c =>
      have hsame : g.updateCall f = { g with call := some (f c) } := by
        simp [State.updateCall, hc]
      rw [hsame]
      exact setCall hc (hf c) (fun m hm' ↦ .inl (hm c ▸ hm')) (hpath c)

theorem takeCseq (g : State) : Steady P g g.takeCseq.2 where
  now := rfl
  nextTxn := rfl
  modem := rfl
  path := rfl
  leg := rfl
  clock _ := .inl
  internal := rfl
  cseq _ := Nat.mod_lt _ (by decide)
  nextChan := le_rfl
  chans _ _ := rfl
  background := ⟨[], by simp [State.takeCseq]⟩
  log := ⟨[], by simp [State.takeCseq]⟩

theorem call_none (h : Steady P g₁ g₂) : g₂.call = none ↔ g₁.call = none := by
  have := h.leg
  unfold State.leg at this
  constructor <;> intro hc <;> simpa [hc] using this

/-- The call is still there, with the same leg. -/
theorem call_some (h : Steady P g₁ g₂) {c : ActiveCall} (hc : g₁.call = some c) :
    ∃ c', g₂.call = some c' ∧ c'.leg = c.leg := by
  have := h.leg
  simpa [State.leg, hc] using this

end Steady

/-! ## The handlers that are steady

`P` is arbitrary in the lemmas about the functions that everything goes through, so that each
caller states what it needs. -/

variable (md5Hex : List UInt8 → Str) (cfg : Config) (env : Env)

/-- The only responses are on `txn`, with a code that satisfies `codes`, and no request is sent. -/
abbrev Entry.Answers (txn : Option Nat) (codes : Nat → Prop) : Entry → Prop :=
  Entry.Allowed (fun t k ↦ t = txn ∧ codes k) (fun _ ↦ False)

/-- The only requests sent have a method that satisfies `meth`, and nothing is answered. -/
abbrev Entry.Sends (meth : Method → Prop) : Entry → Prop := Entry.Allowed (fun _ _ ↦ False) meth

theorem Entry.Silent.allowed {resp : Option Nat → Nat → Prop} {meth : Method → Prop} {e : Entry}
    (h : e.Silent) : e.Allowed resp meth :=
  h.mono (fun _ _ h ↦ h.elim) (fun _ h ↦ h.elim)

theorem Steady.allowed {g g' : State} {resp : Option Nat → Nat → Prop} {meth : Method → Prop}
    (h : Steady Entry.Silent g g') : Steady (Entry.Allowed resp meth) g g' :=
  h.mono fun _ ↦ Entry.Silent.allowed

theorem Steady.quiet {g g' : State} {resp : Option Nat → Nat → Prop} {meth : Method → Prop}
    (h : Steady (Entry.Allowed resp meth) g g') : Steady Entry.Quiet g g' :=
  h.mono fun _ ↦ Entry.Allowed.quiet

namespace State

variable {P : Entry → Prop} (g : State)

@[simp] theorem response_code (req : Request) (code : Nat) :
    (g.response cfg env req code).code = code := rfl

theorem reply_eq (txn : Nat) (req : Request) (src : SocketAddr) (code : Nat) :
    ∃ resp : Response, resp.code = code ∧
      g.reply cfg env txn req src code = g.respond env (some txn) req resp src :=
  ⟨_, rfl, rfl⟩

theorem reply_steady (txn : Nat) (req : Request) (src : SocketAddr) (code : Nat) :
    Steady (Entry.Answers (some txn) (· = code)) g (g.reply cfg env txn req src code).1 :=
  .emit g ⟨rfl, rfl⟩

/-- A request that gets a transaction: the channel is new, whether the request goes out or not. -/
theorem sendRequest_steady (req : Request) (dest : SocketAddr) (h : P (.send req dest)) :
    Steady P g (g.sendRequest env req dest).1 := by
  unfold sendRequest
  split
  · exact .refl P g
  · exact
      { now := rfl
        nextTxn := rfl
        modem := rfl
        path := rfl
        leg := rfl
        clock := fun _ ↦ .inl
        internal := rfl
        cseq := id
        nextChan := Nat.le_succ _
        chans := fun k hk ↦ by
          simp [sendRaw, emit, Map.get?_insert, Nat.ne_of_lt hk]
        background := ⟨[], by simp [sendRaw, emit]⟩
        log := ⟨[(g.now, .send req dest)], by simp [sendRaw, emit, h]⟩ }

/-- What a request that went out leaves behind. -/
theorem sendRequest_some {req : Request} {dest : SocketAddr} {txn : ClientTxn}
    (h : (g.sendRequest env req dest).2 = some txn) :
    req.headers.topVia.bind Via.branch = some txn.branch ∧ txn.chan = g.nextChan ∧
      (g.sendRequest env req dest).1 =
        { g with
          nextChan := g.nextChan + 1
          clientTxns := g.clientTxns.insert txn.branch
            { method := req.method, chan := g.nextChan, stopRetransmit := false }
          chans := g.chans.insert g.nextChan []
          log := g.log ++ [(g.now, .send req dest)] } := by
  unfold sendRequest at h ⊢
  cases hb : req.headers.topVia.bind Via.branch with
  | none => simp [hb] at h
  | some branch =>
      simp only [hb, sendRaw] at h ⊢
      cases hok : env.sendOk g.log.length with
      | false => simp [hok] at h
      | true =>
          obtain rfl : ClientTxn.mk branch g.nextChan = txn := by simpa [hok] using h
          exact ⟨rfl, rfl, rfl⟩

theorem sendInBackground_steady (req : Request) (dest : SocketAddr) (h : P (.send req dest)) :
    Steady P g (g.sendInBackground env req dest) := by
  have hreq := g.sendRequest_steady env req dest h
  unfold sendInBackground
  cases hs : g.sendRequest env req dest with
  | mk g' txn? =>
      rw [hs] at hreq
      cases txn? with
      | none => exact hreq
      | some txn =>
          obtain ⟨-, hchan, hg'⟩ := g.sendRequest_some env (by rw [hs])
          rw [hs] at hg'
          subst hg'
          exact { hreq with background := ⟨[txn], by simp [hchan]⟩ }

theorem hangupMobile_steady : Steady Entry.Silent g g.hangupMobile := by
  unfold hangupMobile
  split
  · exact .emit g trivial
  · exact .refl _ g

/-! ### Media -/

theorem startMedia_steady (remote : SocketAddr) :
    Steady Entry.Silent g (g.startMedia env remote).1 := by
  unfold startMedia
  split
  · rename_i c _ hc
    split
    · exact .refl _ g
    · refine (Steady.setCall hc ?_ ?_).trans (.emit _ trivial)
      · simp [ActiveCall.leg, Task.inviteTxn?]
      · intro m hm
        obtain rfl := Option.some.inj hm
        simp [MediaSession.start, MediaSession.elapsedMs]
  · exact .refl _ g

theorem openMediaForEarlyMedia_steady :
    Steady Entry.Silent g (g.openMediaForEarlyMedia env).1 := by
  unfold openMediaForEarlyMedia
  split
  · exact .refl _ g
  · split
    · exact .refl _ g
    · split
      · exact .refl _ g
      · exact g.startMedia_steady env _

/-- A provisional goes out on the INVITE of the call. -/
theorem sendProvisional_steady (code : Nat) :
    Steady (Entry.Answers g.inviteTxn (· = code)) g (g.sendProvisional cfg env code) := by
  unfold sendProvisional
  split
  · exact .refl _ g
  · rename_i c hc
    have hring : Steady (Entry.Answers g.inviteTxn (· = code)) g
        (if code = 180 then g.updateCall fun c ↦ { c with ringingSent := true } else g) := by
      split
      · exact .updateCall g (fun _ ↦ rfl) (fun _ ↦ rfl)
      · exact .refl _ g
    exact hring.trans (.emit _ ⟨(inviteTxn_of_call hc).symm, rfl⟩)

theorem startEarlyMedia_steady :
    Steady (Entry.Answers g.inviteTxn (· = 180)) g (g.startEarlyMedia cfg env).1 := by
  have hopen : Steady (Entry.Answers g.inviteTxn (· = 180)) g (g.openMediaForEarlyMedia env).1 :=
    (g.openMediaForEarlyMedia_steady env).allowed
  have hring := (g.openMediaForEarlyMedia env).1.sendProvisional_steady cfg env 180
  rw [show (g.openMediaForEarlyMedia env).1.inviteTxn = g.inviteTxn by
    rw [inviteTxn, hopen.leg, inviteTxn]] at hring
  unfold startEarlyMedia
  dsimp only
  split
  · exact hopen
  · split
    · refine (hopen.trans hring).trans (.updateCall _ ?_ fun _ ↦ rfl)
      intro c
      simp [ActiveCall.leg, Task.inviteTxn?]
    · exact hopen.trans hring

/-- The INVITE of the call is answered once the media is there, or not at all. -/
theorem respondWithMedia_cases (code : Nat) :
    ∃ g', Steady Entry.Silent g g' ∧
      (g.respondWithMedia cfg env code = (g', g.call.isNone) ∨
        ∃ c resp, g.call = some c ∧ resp.code = code ∧
          g.respondWithMedia cfg env code =
            g'.respond env c.inviteTxn c.invite resp c.inviteDest) := by
  unfold respondWithMedia
  cases hc : g.call with
  | none => exact ⟨g, .refl _ g, .inl rfl⟩
  | some c =>
      dsimp only
      cases c.remoteSdp with
      | none => exact ⟨g, .refl _ g, .inl rfl⟩
      | some sdp =>
          dsimp only
          have hmedia : Steady Entry.Silent g
              (if c.media.isNone then g.startMedia env (mediaAddr sdp) else (g, true)).1 := by
            split
            · exact g.startMedia_steady env _
            · exact .refl _ g
          revert hmedia
          rcases (if c.media.isNone then g.startMedia env (mediaAddr sdp) else (g, true))
            with ⟨g', ok⟩
          intro hmedia
          refine ⟨g', hmedia, ?_⟩
          cases ok with
          | false => exact .inl rfl
          | true => exact .inr ⟨c, _, rfl, rfl, rfl⟩

theorem respondWithMedia_steady (code : Nat) :
    Steady (Entry.Answers g.inviteTxn (· = code)) g (g.respondWithMedia cfg env code).1 := by
  obtain ⟨g', hg', heq | ⟨c, resp, hc, hcode, heq⟩⟩ := g.respondWithMedia_cases cfg env code
  · rw [heq]
    exact hg'.allowed
  · rw [heq]
    exact hg'.allowed.trans (.emit _ ⟨(inviteTxn_of_call hc).symm, hcode⟩)

theorem upgradeToEarlyMedia_steady :
    Steady (Entry.Answers g.inviteTxn (· = 183)) g (g.upgradeToEarlyMedia cfg env).1 := by
  have hresp := g.respondWithMedia_steady cfg env 183
  unfold upgradeToEarlyMedia
  split
  · exact .refl _ g
  · split
    · exact .refl _ g
    · dsimp only
      split
      · exact hresp
      · exact hresp.trans (.updateCall _ (fun _ ↦ rfl) fun _ ↦ rfl)

/-! ### Digits -/

theorem sendDtmfInfo_steady (digit : Str) :
    Steady (Entry.Sends (· = .info)) g (g.sendDtmfInfo cfg env digit) := by
  unfold sendDtmfInfo
  split
  · exact .refl _ g
  · exact (Steady.takeCseq g).trans (sendInBackground_steady _ _ _ _ rfl)

theorem sendDtmf_steady (path : Path) (ds : List Char) :
    Steady Entry.Silent g (g.sendDtmf env path ds).1 := by
  induction ds generalizing g with
  | nil => exact .refl _ g
  | cons d ds ih =>
      unfold sendDtmf
      dsimp only
      split
      · exact (Steady.emit g trivial).trans (ih _)
      · exact .emit g trivial

theorem playTones_steady (digits : Str) : Steady Entry.Silent g (g.playTones cfg env digits).1 := by
  unfold playTones
  split
  · split
    · exact .emit g trivial
    · exact .refl _ g
  · exact .refl _ g

theorem deliverDtmf_steady (digits : Str) :
    Steady Entry.Silent g (g.deliverDtmf cfg env digits).1 := by
  unfold deliverDtmf
  split
  · exact .refl _ g
  · dsimp only
    split
    · split
      · have hsend := g.sendDtmf_steady env ‹Path› (digits.filter fun c ↦ !isWhitespace c)
        split
        · exact hsend
        · split
          · exact hsend
          · refine hsend.trans (Steady.trans (.updateCall _ ?_ ?_) (playTones_steady ..)) <;>
              intro c <;> rfl
      · split
        · exact .refl _ g
        · exact g.playTones_steady cfg env digits
    · exact g.playTones_steady cfg env digits

/-! ### The end of a call -/

theorem cancelOutgoingInvite_steady :
    Steady (Entry.Sends (· = .cancel)) g (g.cancelOutgoingInvite env) := by
  unfold cancelOutgoingInvite
  split
  · exact .refl _ g
  · split
    · exact .refl _ g
    · exact .emit g rfl

theorem ackFailure_steady (resp : Response) :
    Steady (Entry.Sends (· = .ack)) g (g.ackFailure env resp) := by
  unfold ackFailure
  split
  · exact .refl _ g
  · split
    · exact .refl _ g
    · exact .emit g rfl

/-- Aborted tasks take their channels with them, and nothing else. -/
theorem dropTasks_eq (ts : List Task) :
    g.dropTasks ts =
      { g with
        clientTxns := (g.dropTasks ts).clientTxns
        chans := (g.dropTasks ts).chans } := by
  induction ts generalizing g with
  | nil => rfl
  | cons t ts ih =>
      cases t with
      | inviteResponse txn deadline => exact ih (g.dropTxn txn)
      | _ => exact ih g

@[simp] theorem finishCall_call (disposition : Str) :
    (g.finishCall disposition).call = none := by
  unfold finishCall
  split
  · assumption
  · rw [emit_call, dropTasks_eq]

@[simp] theorem finishCall_nextTxn (disposition : Str) :
    (g.finishCall disposition).nextTxn = g.nextTxn := by
  unfold finishCall
  split
  · rfl
  · rw [emit_nextTxn, dropTasks_eq]

theorem finishCall_log {c : ActiveCall} (hc : g.call = some c) (disposition : Str) :
    (g.finishCall disposition).log =
      g.log ++ [(g.now, .finished c.callId disposition c.cdrId)] := by
  unfold finishCall
  rw [hc]
  dsimp only
  rw [emit_log, dropTasks_eq]

/-- Until the call leaves its slot, a teardown of a call that has been answered is steady. -/
theorem teardownCall_answered {c : ActiveCall} (hc : g.call = some c) (hans : c.answered = true)
    (reason : Str) (code : Nat) :
    ∃ g', Steady (Entry.Sends (· = .bye)) g g' ∧
      g.teardownCall cfg env reason code = g'.finishCall reason := by
  refine ⟨_, ?_, by simp only [teardownCall, hc, hans, if_true]; rfl⟩
  refine Steady.trans ?_ (hangupMobile_steady _).allowed
  exact (Steady.takeCseq g).trans (sendInBackground_steady _ _ _ _ rfl)

/-- A caller who still waits gets one failure. -/
theorem teardownCall_fromSip {c : ActiveCall} (hc : g.call = some c) (hans : c.answered = false)
    (hrole : c.role = .fromSip) (reason : Str) (code : Nat) :
    ∃ resp : Response, 400 ≤ resp.code ∧
      g.teardownCall cfg env reason code =
        ((g.respond env c.inviteTxn c.invite resp c.inviteDest).1.hangupMobile).finishCall
          reason := by
  refine ⟨_, ?_, by simp only [teardownCall, hc, hans, hrole]; rfl⟩
  simp only [response_code]
  split <;> omega

theorem teardownCall_toSip {c : ActiveCall} (hc : g.call = some c) (hans : c.answered = false)
    (hrole : c.role = .toSip) (reason : Str) (code : Nat) :
    ∃ g', Steady (Entry.Sends (· = .cancel)) g g' ∧
      g.teardownCall cfg env reason code = g'.finishCall reason := by
  refine ⟨_, ?_, by simp only [teardownCall, hc, hans, hrole]; rfl⟩
  exact (g.cancelOutgoingInvite_steady env).trans (hangupMobile_steady _).allowed

/-- Whatever the call is, a teardown says goodbye and then empties the slot. -/
theorem teardownCall_eq (reason : Str) (code : Nat) :
    ∃ g', Steady (Entry.Allowed (fun _ _ ↦ True) fun _ ↦ True) g g' ∧
      g.teardownCall cfg env reason code = g'.finishCall reason := by
  cases hc : g.call with
  | none => exact ⟨g, .refl _ g, by simp [teardownCall, finishCall, hc]⟩
  | some c =>
      cases hans : c.answered with
      | true =>
          obtain ⟨g', hs, heq⟩ := g.teardownCall_answered cfg env hc hans reason code
          exact ⟨g', hs.mono fun _ h ↦ h.mono (fun _ _ _ ↦ trivial) fun _ _ ↦ trivial, heq⟩
      | false =>
          cases hrole : c.role with
          | fromSip =>
              obtain ⟨resp, -, heq⟩ := g.teardownCall_fromSip cfg env hc hans hrole reason code
              exact ⟨_, (Steady.emit g trivial).trans (hangupMobile_steady _).allowed, heq⟩
          | toSip =>
              obtain ⟨g', hs, heq⟩ := g.teardownCall_toSip cfg env hc hans hrole reason code
              exact ⟨g', hs.mono fun _ h ↦ h.mono (fun _ _ _ ↦ trivial) fun _ _ ↦ trivial, heq⟩

/-! ### SIP requests -/

theorem reinviteResponse_code (c : ActiveCall) (req : Request) (src : SocketAddr)
    (offer : Option Sdp) : (g.reinviteResponse cfg env c req src offer).code = 200 := by
  unfold reinviteResponse
  dsimp only
  split <;> rfl

theorem onSipReinvite_steady (txn : Nat) (req : Request) (src : SocketAddr) :
    Steady (Entry.Answers (some txn) (200 ≤ ·)) g (g.onSipReinvite cfg env txn req src).1 := by
  have hreply (code : Nat) (hcode : 200 ≤ code) :
      Steady (Entry.Answers (some txn) (200 ≤ ·)) g (g.reply cfg env txn req src code).1 :=
    .emit g ⟨rfl, hcode⟩
  unfold onSipReinvite
  split
  · exact .refl _ g
  · rename_i c hc
    dsimp only
    split
    · exact hreply 491 (by decide)
    · split
      · exact hreply 481 (by decide)
      · split
        · exact hreply 488 (by decide)
        · refine (Steady.setCall hc ?_ ?_ (by cases usableOffer req <;> rfl)).trans
            (.emit _ ⟨rfl, ?_⟩)
          · cases usableOffer req <;> rfl
          · intro m hm
            cases ho : usableOffer req with
            | none => exact .inl (by simpa [renegotiate, ho] using hm)
            | some sdp =>
                obtain ⟨m', -, rfl⟩ : ∃ m', c.media = some m' ∧
                    (m'.setRemote (mediaAddr sdp)).stamp g.now = m := by
                  simpa [renegotiate, ho] using hm
                exact .inr rfl
          · exact (g.reinviteResponse_code cfg env c req src _).ge

/-- The call of a new INVITE is put in its slot, or the INVITE is answered with a failure. -/
theorem placeCall_cases (txn : Nat) (req : Request) (src : SocketAddr) (number : Str) (sdp : Sdp)
    (codec : Codec) (recipient sender : NameAddr) (callId : Str)
    (hreply : ∀ resp : Response, 400 ≤ resp.code → P (.respond (some txn) req resp src))
    (hdial : P (.dial number)) (hcdr : P (.cdrStarted number)) :
    ∃ g', Steady P g g' ∧
      ((g.placeCall cfg env txn req src number sdp codec recipient sender callId).1 = g' ∨
        ∃ c, c.role = .fromSip ∧ c.inviteTxn = some txn ∧ c.answered = false ∧ c.tasks = [] ∧
          (g.placeCall cfg env txn req src number sdp codec recipient sender callId).1 =
            { g' with call := some c }) := by
  have hfail (g' : State) (code : Nat) (hcode : 400 ≤ code) :
      Steady P g' (g'.reply cfg env txn req src code).1 := .emit g' (hreply _ hcode)
  unfold placeCall
  split
  · exact ⟨_, hfail g 500 (by decide), .inl rfl⟩
  · dsimp only
    have hdialled : Steady P g (g.emit (.dial number)) := .emit g hdial
    split
    · exact ⟨_, hdialled.trans (hfail _ 503 (by decide)), .inl rfl⟩
    · exact ⟨_, (hdialled.trans (.emit _ hcdr)).trans (.takeCseq _), .inr ⟨_, rfl, rfl, rfl, rfl, rfl⟩⟩

theorem onSipInfo_steady (txn : Nat) (req : Request) (src : SocketAddr) :
    Steady (Entry.Answers (some txn) (200 ≤ ·)) g (g.onSipInfo cfg env txn req src).1 := by
  unfold onSipInfo
  dsimp only
  refine Steady.trans (Steady.allowed ?_) (.emit _ ⟨rfl, ?_⟩)
  · split
    · exact .refl _ g
    · split
      · exact .refl _ g
      · split
        · exact g.deliverDtmf_steady cfg env _
        · exact .refl _ g
  · rw [response_code]
    split
    · exact (by decide : 200 ≤ 415)
    · split
      · exact (by decide : 200 ≤ 200)
      · split
        · dsimp only
          split <;> decide
        · exact (by decide : 200 ≤ 481)

theorem onSipMessage_steady (txn : Nat) (req : Request) (src : SocketAddr) :
    Steady (Entry.Answers (some txn) (200 ≤ ·)) g (g.onSipMessage cfg env txn req src).1 := by
  have hreply (code : Nat) (hcode : 200 ≤ code) :
      Steady (Entry.Answers (some txn) (200 ≤ ·)) g (g.reply cfg env txn req src code).1 :=
    .emit g ⟨rfl, hcode⟩
  unfold onSipMessage
  dsimp only
  split
  · exact hreply 415 (by decide)
  · split
    · exact hreply 503 (by decide)
    · split
      · exact .emit g trivial
      · split
        · exact hreply 415 (by decide)
        · split
          · exact hreply 484 (by decide)
          · exact .emit g trivial

/-! ### Calls from the mobile network -/

/-- What is new in a state after a handler that sent the INVITE of `c`: the call is one of ours,
and the INVITE carries its Call-ID and its sequence number. -/
structure Placed (c : ActiveCall) : Prop where
  role : c.role = .toSip
  inviteTxn : c.inviteTxn = none
  media : c.media = none
  method : c.invite.method = .invite
  callId : c.invite.headers.get "call-id" = some c.callId
  cseq : c.invite.headers.get "cseq" = some (dec c.localCseq ++ " INVITE")

/-- A call to SIP is in its slot once its INVITE went out. -/
theorem startSipCall_cases (path : Path) (info : CallInfo) :
    g.startSipCall cfg env path info = (g, false) ∨
      ∃ req dest, req.method = .invite ∧
        (g.startSipCall cfg env path info =
          ((g.takeCseq.2.sendRequest env req dest).1, false) ∨
        ∃ txn c deadline, (g.takeCseq.2.sendRequest env req dest).2 = some txn ∧
          Placed c ∧ c.invite = req ∧ c.localCseq = g.cseq ∧ c.answered = false ∧
          c.tasks = [.inviteResponse txn deadline] ∧ c.mmPath = some path ∧
          g.startSipCall cfg env path info =
            ({ (g.takeCseq.2.sendRequest env req dest).1.emit (.cdrStarted c.peerNumber) with
              call := some c }, true)) := by
  unfold startSipCall
  cases resolveTarget cfg env with
  | none => exact .inl rfl
  | some target =>
      obtain ⟨targetUri, targetAddr⟩ := target
      cases env.bindPort with
      | none => exact .inl rfl
      | some port =>
          dsimp only
          generalize hreq : g.takeCseq.2.newInvite cfg env _ _ _ _ _ port targetAddr = req
          refine .inr ⟨req, targetAddr, hreq ▸ rfl, ?_⟩
          split
          · rename_i hs
            exact .inl (by rw [hs])
          · rename_i txn hs
            rw [hs]
            refine .inr ⟨txn, _, _, rfl, ⟨rfl, rfl, rfl, hreq ▸ rfl, ?_, ?_⟩, rfl, rfl, rfl, rfl, rfl, rfl⟩
            · exact hreq ▸ (newInvite_get ..).1
            · exact hreq ▸ (newInvite_get ..).2

/-! ### Answers to our own INVITE -/

@[simp] theorem learnPeer_leg (c : ActiveCall) (resp : Response) :
    (learnPeer env c resp).leg = c.leg := by
  unfold learnPeer
  dsimp only
  split <;> rfl

@[simp] theorem learnPeer_mmPath (c : ActiveCall) (resp : Response) :
    (learnPeer env c resp).mmPath = c.mmPath := by
  unfold learnPeer
  dsimp only
  split <;> rfl

@[simp] theorem learnPeer_media (c : ActiveCall) (resp : Response) :
    (learnPeer env c resp).media = c.media := by
  unfold learnPeer
  dsimp only
  split <;> rfl

/-- The state once the 2xx is acknowledged. -/
def acked (c : ActiveCall) (resp : Response) : State :=
  let c := learnPeer env c resp
  let g := { g with call := some c }
  (g.sendRaw env (g.buildAck cfg env c) c.remoteAddr).1

theorem acked_steady {c : ActiveCall} (hc : g.call = some c) (resp : Response) :
    Steady (Entry.Sends (· = .ack)) g (g.acked cfg env c resp) :=
  (Steady.setCall hc (learnPeer_leg env c resp)
    (fun _ hm ↦ .inl (learnPeer_media env c resp ▸ hm))
    (learnPeer_mmPath env c resp)).trans (.emit _ rfl)

theorem acceptMobile_steady : Steady Entry.Silent g (g.acceptMobile env).1 := by
  unfold acceptMobile
  split
  · exact .emit g trivial
  · exact .refl _ g

/-- Once the ACK is out the call counts as answered, and it is torn down again if something is
missing. -/
theorem onSipAnswered_of_ok {c : ActiveCall} (hc : g.call = some c) (resp : Response)
    (hok : env.sendOk g.log.length = true) :
    ∃ g', Steady Entry.Silent
        ((g.acked cfg env c resp).updateCall fun c ↦ { c with answered := true }) g' ∧
      (g.onSipAnswered cfg env resp = g' ∨
        ∃ reason code, g.onSipAnswered cfg env resp = g'.teardownCall cfg env reason code) := by
  unfold onSipAnswered
  rw [hc]
  dsimp only
  split
  · rename_i hfailed
    exact absurd hok (by simpa [sendRaw] using hfailed)
  · split
    · exact ⟨_, .refl _ _, .inr ⟨_, _, rfl⟩⟩
    · rename_i sdp _
      have hsdp := Steady.updateCall (P := Entry.Silent)
        ((g.acked cfg env c resp).updateCall fun c ↦ { c with answered := true })
        (f := fun c ↦ { c with codec := sdp.negotiate.getD .pcmu, remoteSdp := some sdp })
        (fun _ ↦ rfl) (fun _ ↦ rfl)
      have hmedia := hsdp.trans (startMedia_steady env _ (mediaAddr sdp))
      split
      · exact ⟨_, hmedia, .inr ⟨_, _, rfl⟩⟩
      · have haccept := hmedia.trans (acceptMobile_steady env _)
        split
        · exact ⟨_, haccept, .inr ⟨_, _, rfl⟩⟩
        · split
          · rename_i id _
            exact ⟨_, haccept.trans (.emit _ (e := .cdrAnswered id) trivial), .inl rfl⟩
          · exact ⟨_, haccept, .inl rfl⟩

/-- Without the ACK, the call only knows its peer. -/
theorem onSipAnswered_of_not_ok {c : ActiveCall} (hc : g.call = some c) (resp : Response)
    (hok : env.sendOk g.log.length = false) :
    g.onSipAnswered cfg env resp = g.acked cfg env c resp := by
  unfold onSipAnswered
  rw [hc]
  dsimp only
  split
  · rfl
  · rename_i hsent
    exact absurd hok (by simpa [sendRaw] using hsent)

theorem onSipAnswered_cases {c : ActiveCall} (hc : g.call = some c) (resp : Response) :
    g.onSipAnswered cfg env resp = g.acked cfg env c resp ∨
      ∃ g', Steady Entry.Silent
          ((g.acked cfg env c resp).updateCall fun c ↦ { c with answered := true }) g' ∧
        (g.onSipAnswered cfg env resp = g' ∨
          ∃ reason code, g.onSipAnswered cfg env resp = g'.teardownCall cfg env reason code) := by
  cases hok : env.sendOk g.log.length with
  | false => exact .inl (g.onSipAnswered_of_not_ok cfg env hc resp hok)
  | true => exact .inr (g.onSipAnswered_of_ok cfg env hc resp hok)

/-- The fields that an INVITE sent again with credentials keeps, and its new sequence number. -/
theorem authInvite_get (c : ActiveCall) (up : Upstream) (challenge : Challenge) {field : Str}
    (hid : canonical field ≠ canonical "call-id") (hseq : canonical field ≠ canonical "cseq")
    (cseq : Nat) :
    let invite := g.authInvite md5Hex env c up challenge field cseq
    invite.method = c.invite.method ∧
      invite.headers.get "call-id" = c.invite.headers.get "call-id" ∧
      invite.headers.get "cseq" = some (dec cseq ++ " INVITE") := by
  have hbranch (branch : Str) (h : Headers) (name : Str)
      (hname : canonical "via" ≠ canonical name) :
      (refreshViaBranch branch h).get name = h.get name := by
    unfold refreshViaBranch
    split
    · rw [Headers.get_set, if_neg hname]
    · rfl
  refine ⟨rfl, ?_, ?_⟩
  · refine (hbranch _ _ _ (by decide)).trans ?_
    rw [Headers.get_set, if_neg hid, Headers.get_set, if_neg (by decide)]
  · refine (hbranch _ _ _ (by decide)).trans ?_
    rw [Headers.get_set, if_neg hseq, Headers.get_set_self]

/-- A challenge is answered by one more INVITE with a channel of its own, or not at all. -/
theorem retryInviteWithAuth_cases (resp : Response) :
    (∃ g', Steady (Entry.Sends fun _ ↦ True) g g' ∧
      g.retryInviteWithAuth md5Hex cfg env resp = (g', false)) ∨
    ∃ c req txn deadline, g.call = some c ∧ c.role = .toSip ∧ c.answered = false ∧
      req.method = c.invite.method ∧
      req.headers.get "call-id" = c.invite.headers.get "call-id" ∧
      req.headers.get "cseq" = some (dec g.cseq ++ " INVITE") ∧
      (g.takeCseq.2.sendRequest env req c.remoteAddr).2 = some txn ∧
      g.retryInviteWithAuth md5Hex cfg env resp =
        ((g.takeCseq.2.sendRequest env req c.remoteAddr).1.updateCall fun c ↦
          { c with
            authRetried := true
            localCseq := g.cseq
            invite := req
            tasks := c.tasks ++ [.inviteResponse txn deadline] }, true) := by
  unfold retryInviteWithAuth
  split
  · rename_i c up hc hup
    split
    · exact .inl ⟨g, .refl _ g, rfl⟩
    · rename_i hfirst
      obtain ⟨⟨hrole, hans⟩, -⟩ :
          (c.role = .toSip ∧ c.answered = false) ∧ c.authRetried = false := by
        simpa using hfirst
      have hfield (code : Nat) :
          canonical (if code = 401 then (("www-authenticate", "authorization") : Str × Str)
            else ("proxy-authenticate", "proxy-authorization")).2 ≠ canonical "call-id" ∧
          canonical (if code = 401 then (("www-authenticate", "authorization") : Str × Str)
            else ("proxy-authenticate", "proxy-authorization")).2 ≠ canonical "cseq" := by
        split <;> decide
      obtain ⟨hid, hseq⟩ := hfield resp.code
      revert hid hseq
      generalize (if resp.code = 401 then (("www-authenticate", "authorization") : Str × Str)
        else ("proxy-authenticate", "proxy-authorization")) = fields
      obtain ⟨field, outField⟩ := fields
      intro hid hseq
      dsimp only at hid hseq ⊢
      split
      · exact .inl ⟨g, .refl _ g, rfl⟩
      · rename_i challenge _
        obtain ⟨hm, hi, hs⟩ :=
          g.takeCseq.2.authInvite_get md5Hex env c up challenge hid hseq g.takeCseq.1
        revert hm hi hs
        generalize g.takeCseq.2.authInvite md5Hex env c up challenge outField g.takeCseq.1 = req
        intro hm hi hs
        split
        · rename_i hsent
          refine .inl ⟨_, ?_, rfl⟩
          have := (Steady.takeCseq g).trans (g.takeCseq.2.sendRequest_steady
            (P := Entry.Sends fun _ ↦ True) env req c.remoteAddr trivial)
          rwa [hsent] at this
        · rename_i g' txn hsent
          refine .inr ⟨c, req, txn, g'.now + cfg.ringTimeoutSecs * 1000, hc, hrole, hans, hm, hi, hs,
            by rw [hsent], ?_⟩
          rw [hsent]
          rfl
  · exact .inl ⟨g, .refl _ g, rfl⟩

end State

/-! ## The tasks beside the loop -/

/-- A call without its tasks. -/
def ActiveCall.idle (c : ActiveCall) : ActiveCall := { c with tasks := [] }

/-- From `g` to `g'` a task took a step: tasks may have ended, something may be in the queue, and
only what arrived is in the log. -/
structure Beside (g g' : State) : Prop where
  now : g'.now = g.now
  nextTxn : g'.nextTxn = g.nextTxn
  modem : g'.modem = g.modem
  call : g'.call.map ActiveCall.idle = g.call.map ActiveCall.idle
  log : ∃ new, g'.log = g.log ++ new ∧ ∀ e ∈ new, e.1 = g.now ∧ ∃ resp, e.2 = .heard resp

/-- The answer goes into the records, if the call has one. -/
theorem State.cdrAnswered_of {P : State → Prop} {g : State} (h : P g)
    (hemit : ∀ id, P (g.emit (.cdrAnswered id))) (id : Option Nat) :
    P (match id with
      | some id => g.emit (.cdrAnswered id)
      | none => g) := by
  cases id with
  | none => exact h
  | some id => exact hemit id

namespace Beside

variable {g₁ g₂ g₃ : State} (g : State)

/-- Only the channels and the queue change. -/
theorem congr {g g' : State} (hnow : g'.now = g.now) (hnext : g'.nextTxn = g.nextTxn)
    (hmodem : g'.modem = g.modem) (hcall : g'.call.map ActiveCall.idle = g.call.map ActiveCall.idle)
    (hlog : g'.log = g.log) : Beside g g' :=
  ⟨hnow, hnext, hmodem, hcall, [], by simp [hlog], by simp⟩

theorem refl : Beside g g := congr rfl rfl rfl rfl rfl

theorem trans (h₁ : Beside g₁ g₂) (h₂ : Beside g₂ g₃) : Beside g₁ g₃ where
  now := h₂.now.trans h₁.now
  nextTxn := h₂.nextTxn.trans h₁.nextTxn
  modem := h₂.modem.trans h₁.modem
  call := h₂.call.trans h₁.call
  log := by
    obtain ⟨new₁, hl₁, hnew₁⟩ := h₁.log
    obtain ⟨new₂, hl₂, hnew₂⟩ := h₂.log
    refine ⟨new₁ ++ new₂, by rw [hl₂, hl₁, List.append_assoc], fun e he ↦ ?_⟩
    rcases List.mem_append.mp he with h | h
    · exact hnew₁ e h
    · exact ⟨(hnew₂ e h).1.trans h₁.now, (hnew₂ e h).2⟩

/-- What is read off a call without regard to its tasks stays. -/
theorem map_call {α : Type} (h : Beside g₁ g₂) {f : ActiveCall → α} (hf : ∀ c, f c.idle = f c) :
    g₂.call.map f = g₁.call.map f := by
  have hidle (g : State) : g.call.map f = (g.call.map ActiveCall.idle).map f := by
    rw [Option.map_map]
    exact congrArg (fun f ↦ g.call.map f) (funext fun c ↦ (hf c).symm)
  rw [hidle, hidle g₁, h.call]

theorem bind_call {α : Type} (h : Beside g₁ g₂) {f : ActiveCall → Option α}
    (hf : ∀ c, f c.idle = f c) : g₂.call.bind f = g₁.call.bind f := by
  have hjoin (g : State) : g.call.bind f = (g.call.map f).bind id := by
    rw [Option.bind_map, Function.id_comp]
  rw [hjoin, hjoin g₁, h.map_call hf]

theorem endTask (i : Nat) : Beside g (g.endTask i) := by
  have hcall : Beside g (g.updateCall fun c ↦ { c with tasks := c.tasks.eraseIdx i }) := by
    refine congr rfl rfl rfl ?_ rfl
    rw [State.updateCall_call, Option.map_map]
    rfl
  unfold State.endTask
  split
  · exact refl g
  · dsimp only
    split
    · exact hcall.trans (congr rfl rfl rfl rfl rfl)
    · exact hcall

theorem enqueue (ev : Internal) : Beside g (g.enqueue ev) := congr rfl rfl rfl rfl rfl

theorem onResponse (resp : Response) : Beside g (g.onResponse resp) := by
  have hheard : Beside g (g.emit (.heard resp)) :=
    ⟨rfl, rfl, rfl, rfl, [(g.now, .heard resp)], rfl, by simp⟩
  unfold State.onResponse
  dsimp only
  split
  · split
    · split
      · exact hheard
      · exact hheard.trans (congr rfl rfl rfl rfl rfl)
    · exact hheard
  · exact hheard

theorem inviteTask (i : Nat) : Beside g (g.inviteTask i) := by
  have hend {g' : State} (h : Beside g g') (ev : Internal) :
      Beside g ((g'.endTask i).enqueue ev) := (h.trans (endTask g' i)).trans (enqueue _ ev)
  unfold State.inviteTask
  split
  · split
    · exact refl g
    · split
      · have hread (chans : Map Nat (List Response)) : Beside g { g with chans := chans } :=
          congr rfl rfl rfl rfl rfl
        dsimp only
        split
        · split
          · exact (hread _).trans (enqueue _ _)
          · exact hread _
        · split <;> exact hend (hread _) _
      · split
        · exact refl g
        · exact hend (refl g) _
  · exact refl g

theorem inviteTimeout (i : Nat) : Beside g (g.inviteTimeout i) := by
  unfold State.inviteTimeout
  split
  · split
    · exact refl g
    · exact (endTask g i).trans (enqueue _ _)
  · exact refl g

theorem audioHeard (level : Nat) : Beside g (g.audioHeard level) := by
  unfold State.audioHeard
  split
  · exact refl g
  · split
    · split
      · exact refl g
      · exact (endTask g _).trans (enqueue _ _)
    · exact refl g

theorem relayDigit (task : Task) (ev : Str → Internal) : Beside g (g.relayDigit task ev) := by
  unfold State.relayDigit
  split
  · exact refl g
  · split
    · exact enqueue g _
    · exact refl g

end Beside

end Modem2Sip.Gateway
