import Modem2Sip.Gateway.Turn

/-!
# No mobile leg is left behind

A call of the modem that the gateway dialled, or was offered, stays up until
somebody hangs it up.  `legs` follows a run and keeps the paths of the calls that
the gateway answers for: a path is added when a dial succeeds or an incoming call
is taken, and struck off when a hang-up is issued for it, or when the modem goes.
Every path that is left is the one of the call in the slot.
-/

namespace Modem2Sip.Gateway

open Text Net Sip

variable (md5Hex : List UInt8 → Str) (cfg : Config) (env : Env)

/-! ## Responsibility -/

def Entry.isDial : Entry → Bool
  | .dial _ => true
  | _ => false

/-- An announced call is taken: it is not the one in the slot, it comes from the network, and it
is not over. -/
def State.takesOver (g : State) (env : Env) (path : Path) : Bool :=
  !g.stopped && g.modem.isSome && g.mmPath != some path &&
    env.callInfo.any fun info ↦ info.state != stateTerminated && info.direction == directionIncoming

/-- The paths that the gateway becomes responsible for in an event that adds `new` to the log. -/
def acquired (g : State) (e : Event × Env) (new : List Entry) : List Path :=
  match e.1 with
  | .request _ _ => if new.any Entry.isDial then e.2.dial.toList else []
  | .callAdded path => if g.takesOver e.2 path then [path] else []
  | _ => []

/-- The paths that are left after an event.  A hang-up counts while the modem is there, and
with the modem go all of its calls. -/
def legsAfter (g g' : State) (e : Event × Env) (legs : List Path) : List Path :=
  match e.1 with
  | .modemDown => []
  | _ =>
    (acquired g e (newEntries g g') ++ legs).filter fun p ↦
      !(g.modem.isSome && (newEntries g g').contains (.hangup p))

/-- One event, with the paths that the gateway is responsible for. -/
def trackStep (s : State × List Path) (e : Event × Env) : State × List Path :=
  (s.1.step md5Hex cfg e, legsAfter s.1 (s.1.step md5Hex cfg e) e s.2)

/-- Keeping track changes nothing. -/
theorem run_trackStep_fst (g : State) (legs : List Path) (es : List (Event × Env)) :
    (Run.run (trackStep md5Hex cfg) (g, legs) es).1 = g.run md5Hex cfg es := by
  induction es generalizing g legs with
  | nil => rfl
  | cons e es ih => exact ih _ _

/-! ## Handlers that keep the leg or hang it up -/

/-- The mobile leg is the same, or it was hung up if there was a modem to do so, and nothing was
dialled. -/
structure Minds (g g' : State) : Prop where
  modem : g'.modem = g.modem
  call : g.call = none → g'.call = none
  log : ∃ new, g'.log = g.log ++ new ∧ (∀ e ∈ new, e.2.isDial = false) ∧
    ∀ p, g.mmPath = some p → g'.mmPath = some p ∨
      (g.modem.isSome = true → ∃ e ∈ new, e.2 = .hangup p)

namespace Minds

variable {g g₁ g₂ g₃ : State}

theorem trans (h₁ : Minds g₁ g₂) (h₂ : Minds g₂ g₃) : Minds g₁ g₃ := by
  obtain ⟨new₁, hlog₁, hdial₁, hpath₁⟩ := h₁.log
  obtain ⟨new₂, hlog₂, hdial₂, hpath₂⟩ := h₂.log
  refine ⟨h₂.modem.trans h₁.modem, fun h ↦ h₂.call (h₁.call h), new₁ ++ new₂, ?_, ?_, ?_⟩
  · rw [hlog₂, hlog₁, List.append_assoc]
  · intro e he
    rcases List.mem_append.mp he with h | h
    · exact hdial₁ e h
    · exact hdial₂ e h
  · intro p hp
    rcases hpath₁ p hp with hp₂ | hhang
    · rcases hpath₂ p hp₂ with hp₃ | hhang
      · exact .inl hp₃
      · refine .inr fun hmodem ↦ ?_
        obtain ⟨e, he, heq⟩ := hhang (h₁.modem ▸ hmodem)
        exact ⟨e, List.mem_append_right _ he, heq⟩
    · refine .inr fun hmodem ↦ ?_
      obtain ⟨e, he, heq⟩ := hhang hmodem
      exact ⟨e, List.mem_append_left _ he, heq⟩

/-- A change that the mobile leg has no part in. -/
theorem congr {g' : State} (hmodem : g'.modem = g.modem)
    (hcall : g.call = none → g'.call = none) (hpath : g'.mmPath = g.mmPath)
    (hlog : g'.log = g.log) : Minds g g' :=
  ⟨hmodem, hcall, [], by simp [hlog], by simp, fun _ hp ↦ .inl (hpath.trans hp)⟩

theorem refl (g : State) : Minds g g := congr rfl id rfl rfl

theorem emit (g : State) {e : Entry} (he : e.isDial = false) : Minds g (g.emit e) :=
  ⟨rfl, id, [(g.now, e)], rfl, by simpa using he, fun _ ↦ .inl⟩

end Minds

section Steady

variable {g g' : State}

/-- A steady handler that does not dial. -/
theorem Steady.minds {resp : Option Nat → Nat → Prop} {meth : Method → Prop}
    (h : Steady (Entry.Allowed resp meth) g g') : Minds g g' := by
  obtain ⟨new, hlog, hnew⟩ := h.log
  refine ⟨h.modem, h.call_none.mpr, new, hlog, fun e he ↦ ?_, fun p hp ↦ .inl (h.path.trans hp)⟩
  have hallowed := (hnew e he).2
  cases he' : e.2 with
  | dial number => rw [he'] at hallowed; exact hallowed.elim
  | _ => rfl

/-- The call is hung up on the mobile side before it leaves its slot. -/
theorem Minds.hangup_finishCall (g : State) (disposition : Str) :
    Minds g (g.hangupMobile.finishCall disposition) := by
  have hmodem : (g.hangupMobile.finishCall disposition).modem = g.modem := by
    have hs := g.hangupMobile_steady
    unfold State.finishCall
    split
    · exact hs.modem
    · rw [State.emit_modem, State.dropTasks_eq]
      exact hs.modem
  refine ⟨hmodem, fun _ ↦ State.finishCall_call .., ?_⟩
  cases hc : g.call with
  | none =>
      refine ⟨[], ?_, by simp, by simp [State.mmPath, hc]⟩
      simp [State.hangupMobile, State.finishCall, hc]
  | some c =>
      have hc' : g.hangupMobile.call = some c := by
        unfold State.hangupMobile
        split <;> exact hc
      have hlog := State.finishCall_log _ hc' disposition
      unfold State.hangupMobile at hlog ⊢
      split
      · rename_i modem path hm hpath
        simp only [hm, hpath] at hlog
        refine ⟨_, hlog.trans (List.append_assoc ..), by simp [Entry.isDial], fun p hp ↦ .inr ?_⟩
        obtain rfl : path = p := Option.some.inj (hpath.symm.trans hp)
        intro _
        exact ⟨(g.now, .hangup path), by simp, rfl⟩
      · rename_i hnone
        refine ⟨[(g.now, .finished c.callId disposition c.cdrId)], ?_, by simp [Entry.isDial],
          fun p hp ↦ .inr fun hm ↦ ?_⟩
        · exact State.finishCall_log _ hc disposition
        · obtain ⟨modem, hmodem⟩ := Option.isSome_iff_exists.mp hm
          exact (hnone modem p hmodem hp).elim

end Steady

/-! ## The handlers -/

namespace Minds

variable (g : State)

theorem updateCall {f : ActiveCall → ActiveCall} (hf : ∀ c, (f c).mmPath = c.mmPath) :
    Minds g (g.updateCall f) := by
  refine .congr rfl (fun h ↦ by simp [h]) ?_ rfl
  simp only [State.mmPath, State.updateCall]
  cases g.call with
  | none => rfl
  | some c => exact hf c

variable {g} in
theorem of_turn {g' : State} (h : Turn True g g') : Minds g g' := by
  refine h.lift refl trans fun hmove ↦ ?_
  cases hmove with
  | rest hs => exact hs.minds
  | finish _ disposition => exact hangup_finishCall _ disposition
  | update _ _ _ hpath => exact updateCall _ hpath

/-! ### The tasks beside the loop -/

variable {g} in
theorem of_beside {g' : State} (h : Beside g g') : Minds g g' := by
  obtain ⟨new, hlog, hnew⟩ := h.log
  refine ⟨h.modem, fun hc ↦ ?_, new, hlog, fun e he ↦ ?_, fun p hp ↦ .inl ?_⟩
  · have hcall := h.call
    rw [hc] at hcall
    exact Option.map_eq_none_iff.mp hcall
  · obtain ⟨-, resp, heq⟩ := hnew e he
    rw [heq]
    rfl
  · exact (h.bind_call fun _ ↦ rfl).trans hp

theorem onRtp (src : SocketAddr) : Minds g (g.onRtp cfg src) := by
  rcases g.onRtp_cases cfg src with heq | ⟨c, m, hc, -, heq⟩
  · rw [heq]
    exact .refl g
  · rw [heq]
    have hmedia : Minds g { g with call := some { c with
        media := some (m.receive cfg.symmetric g.now src) } } :=
      .congr rfl (fun h ↦ by simp [hc] at h) (by simp [State.mmPath, hc]) rfl
    exact hmedia.trans (.emit _ rfl)

end Minds

/-! ## Taking a leg -/

/-- A request minds the leg, or finds the slot empty and leaves in it what the dial gave. -/
theorem onSipRequest_minds (g : State) (txn : Nat) (req : Request) (src : SocketAddr) :
    Minds g (g.onSipRequest cfg env txn req src).1 ∨
      g.call = none ∧ g.modem.isSome = true ∧
        (g.onSipRequest cfg env txn req src).1.modem = g.modem ∧
        (g.onSipRequest cfg env txn req src).1.mmPath = env.dial ∧
        ∃ new, (g.onSipRequest cfg env txn req src).1.log = g.log ++ new := by
  by_cases hnew : req.method = .invite ∧ g.call = none ∧ g.admits req = true
  · obtain ⟨hm, hc, hadm⟩ := hnew
    obtain ⟨number, sdp, codec, recipient, sender, callId, heq⟩ :=
      g.onNewInvite_admitted cfg env txn req src hadm
    have hmodem : g.modem.isSome = true := by
      unfold State.admits at hadm
      simp only [Bool.and_eq_true] at hadm
      exact hadm.1.1.1.1.1
    obtain ⟨resp, -, hreply⟩ := g.reply_eq cfg env txn req src 100
    unfold State.onSipRequest State.onSipInvite
    rw [hm, hc]
    dsimp only
    rw [heq]
    split
    · unfold State.placeCall
      split
      · exact .inl ((g.reply_steady cfg env txn req src 100).minds.trans
          (State.reply_steady cfg env _ txn req src 500).minds)
      · dsimp only
        rw [hreply]
        split
        · rename_i hdial
          exact .inr ⟨rfl, hmodem, rfl, by simp [State.mmPath, State.reply, State.respond,
            hc, hdial], _, by simp [State.reply, State.respond]; rfl⟩
        · rename_i path hdial
          exact .inr ⟨rfl, hmodem, rfl, hdial.symm, _, by
            simp [State.takeCseq, State.respond]; rfl⟩
    · exact .inl (g.reply_steady cfg env txn req src 100).minds
  · exact .inl (.of_turn (.onSipRequest cfg env g txn req src fun hm hc ↦ by simpa [hm, hc] using hnew))

/-- An announced call that is not taken over changes no leg. -/
theorem onMmCallAdded_minds (g : State) (path : Path) (hrun : g.stopped = false)
    (h : g.takesOver env path = false) : Minds g (g.onMmCallAdded cfg env path) := by
  unfold State.onMmCallAdded
  split
  · exact .refl g
  · rename_i modem hmodem
    split
    · exact .refl g
    · rename_i hpath
      split
      · exact .refl g
      · rename_i info hinfo
        split
        · exact .emit g rfl
        · rename_i hstate
          split
          · exact .emit g rfl
          · rename_i hdirection
            have hpath' : g.mmPath ≠ some path := hpath
            have hdirection' : info.direction = directionIncoming := not_not.mp hdirection
            simp [State.takesOver, hrun, hmodem, hpath', hinfo, hstate, hdirection'] at h

/-- One that is taken over is in the slot afterwards, or is hung up. -/
theorem onMmCallAdded_takesOver (g : State) (path : Path) (h : g.takesOver env path = true) :
    (g.onMmCallAdded cfg env path).modem = g.modem ∧
      ∃ new, (g.onMmCallAdded cfg env path).log = g.log ++ new ∧
        (g.call = none ∧ (g.onMmCallAdded cfg env path).mmPath = some path ∨
          (g.onMmCallAdded cfg env path).mmPath = g.mmPath ∧
            (g.call = none → (g.onMmCallAdded cfg env path).call = none) ∧
            ∃ e ∈ new, e.2 = .hangup path) := by
  obtain ⟨⟨⟨-, hmodem⟩, hpath⟩, hinfo⟩ : ((g.stopped = false ∧ g.modem.isSome = true) ∧
      g.mmPath ≠ some path) ∧ (env.callInfo.any fun info ↦
        info.state != stateTerminated && info.direction == directionIncoming) = true := by
    simpa [State.takesOver] using h
  obtain ⟨modem, hmodem⟩ := Option.isSome_iff_exists.mp hmodem
  obtain ⟨info, hinfo, hkind⟩ := (Option.any_eq_true ..).mp hinfo
  obtain ⟨hstate, hdirection⟩ : info.state ≠ stateTerminated ∧ info.direction = directionIncoming := by
    simpa using hkind
  have hpath' : g.call.bind ActiveCall.mmPath ≠ some path := hpath
  have heq : g.onMmCallAdded cfg env path =
      if g.call.isSome then g.emit (.hangup path)
      else if (g.startSipCall cfg env path info).2 then (g.startSipCall cfg env path info).1
      else (g.startSipCall cfg env path info).1.emit (.hangup path) := by
    simp only [State.onMmCallAdded, hmodem, hpath', hinfo, hstate, hdirection, ne_eq,
      not_true_eq_false, if_false]
  rw [heq]
  split
  · exact ⟨rfl, _, rfl, .inr ⟨rfl, id, _, List.mem_singleton_self _, rfl⟩⟩
  · rename_i hidle
    have hcall : g.call = none := by simpa using hidle
    -- The hang-up of a call that could not be offered, after what was tried.
    have hrefused {P : Entry → Prop} (g' : State) (hs : Steady P g g') :
        (g'.emit (.hangup path)).modem = g.modem ∧
          ∃ new, (g'.emit (.hangup path)).log = g.log ++ new ∧
            (g.call = none ∧ (g'.emit (.hangup path)).mmPath = some path ∨
              (g'.emit (.hangup path)).mmPath = g.mmPath ∧
                (g.call = none → (g'.emit (.hangup path)).call = none) ∧
                ∃ e ∈ new, e.2 = .hangup path) := by
      obtain ⟨new, hlog, -⟩ := hs.log
      refine ⟨hs.modem, new ++ [(g'.now, .hangup path)], ?_, .inr ⟨hs.path, hs.call_none.mpr, ?_⟩⟩
      · rw [State.emit_log, hlog, List.append_assoc]
      · exact ⟨_, List.mem_append_right _ (List.mem_singleton_self _), rfl⟩
    rcases g.startSipCall_cases cfg env path info with heq | ⟨req, dest, hmethod, hsent⟩
    · simp only [heq, Bool.false_eq_true, if_false]
      exact hrefused (P := fun _ ↦ True) g (.refl _ g)
    · have hs : Steady (Entry.Sends (· = .invite)) g (g.takeCseq.2.sendRequest env req dest).1 :=
        (Steady.takeCseq g).trans (State.sendRequest_steady _ _ _ _ hmethod)
      rcases hsent with heq | ⟨txn, c, deadline, -, -, -, -, -, -, hpathc, heq⟩
      · simp only [heq, Bool.false_eq_true, if_false]
        exact hrefused _ hs
      · simp only [heq, if_true]
        obtain ⟨new, hlog, -⟩ := hs.log
        refine ⟨hs.modem, new ++ [(g.now, .cdrStarted c.peerNumber)], ?_, .inl ⟨hcall, hpathc⟩⟩
        rw [← List.append_assoc, ← hlog, ← hs.now]
        rfl

/-! ## Runs -/

/-- Neither a request, an announced call nor a change of the modem. -/
def Event.isRoutine : Event → Bool
  | .request _ _ | .callAdded _ | .modemUp _ | .modemDown => false
  | _ => true

/-- Every event but a dial, an announced call and a change of the modem minds the leg. -/
theorem step_minds (g : State) (e : Event × Env) (hroutine : e.1.isRoutine = true) :
    Minds g (g.step md5Hex cfg e) := by
  obtain ⟨e, env⟩ := e
  unfold State.step
  dsimp only
  split
  · exact .refl g
  · cases e with
    | request req src => exact absurd hroutine Bool.false_ne_true
    | callAdded path => exact absurd hroutine Bool.false_ne_true
    | modemUp modem => exact absurd hroutine Bool.false_ne_true
    | modemDown => exact absurd hroutine Bool.false_ne_true
    | callDeleted path =>
        dsimp only
        split
        · exact .of_turn (.teardownCall cfg env g _ _)
        · exact .refl g
    | callState path new reason => exact .of_turn (.onMmCallState cfg env g path new reason fun _ ↦ trivial)
    | modemDtmf path digit =>
        dsimp only
        split
        · exact (g.sendDtmfInfo_steady cfg env digit).minds
        · exact .refl g
    | smsAdded path received => exact .emit g rfl
    | internal =>
        dsimp only
        split
        · exact .refl g
        · rename_i ev rest _
          have hpop : Minds g { g with internal := rest } := .congr rfl id rfl rfl
          exact hpop.trans (.of_turn (.onInternal md5Hex cfg env _ ev (fun _ _ _ ↦ trivial)
            fun _ _ _ ↦ trivial))
    | tick => exact .of_turn (.checkMedia cfg env g)
    | shutdown =>
        have hend (reason : Str) (code : Nat) : Minds g (g.teardownCall cfg env reason code) :=
          .of_turn (.teardownCall cfg env g reason code)
        exact (hend _ _).trans (.congr rfl id rfl rfl)
    | response resp => exact .of_beside (.onResponse g resp)
    | rtp src => exact Minds.onRtp cfg g src
    | inviteTask i => exact .of_beside (.inviteTask g i)
    | inviteTimeout i => exact .of_beside (.inviteTimeout g i)
    | audioHeard level => exact .of_beside (.audioHeard g level)
    | rtpDigit digit => exact .of_beside (.relayDigit g _ _)
    | inbandDigit digit => exact .of_beside (.relayDigit g _ _)
    | transact req dest =>
        dsimp only
        split
        · exact .refl g
        · exact (g.sendInBackground_steady (P := Entry.Sends fun _ ↦ True) env req dest
            trivial).minds
    | backgroundDone i =>
        dsimp only
        split
        · exact .refl g
        · exact .congr rfl id rfl rfl
    | advance ms => exact .congr rfl id rfl rfl

/-- No modem, no call, and every leg that the gateway answers for is the one in the slot. -/
structure Minded (s : State × List Path) : Prop where
  idle : s.1.modem = none → s.1.call = none
  legs : ∀ p ∈ s.2, s.1.mmPath = some p

theorem Minded.of_minds {s : State × List Path} {g' : State} {e : Event × Env} (h : Minded s)
    (hm : Minds s.1 g') (hacq : acquired s.1 e (newEntries s.1 g') = []) :
    Minded (g', legsAfter s.1 g' e s.2) := by
  obtain ⟨new, hlog, -, hpath⟩ := hm.log
  refine ⟨fun hnone ↦ hm.call (h.idle (hm.modem ▸ hnone)), fun p hp ↦ ?_⟩
  unfold legsAfter at hp
  split at hp
  · simp at hp
  · rw [hacq, List.nil_append, List.mem_filter] at hp
    obtain ⟨hmem, hkept⟩ := hp
    have hold := h.legs p hmem
    rcases hpath p hold with hsame | hhang
    · exact hsame
    · -- There is a call, so there is a modem, and the leg was hung up.
      have hmodem : s.1.modem.isSome = true := by
        cases hm' : s.1.modem with
        | some modem => rfl
        | none => simp [State.mmPath, h.idle hm'] at hold
      obtain ⟨e', he', heq⟩ := hhang hmodem
      rw [hmodem, newEntries_eq hlog, ← heq] at hkept
      have := List.mem_map_of_mem (f := Prod.snd) he'
      simp_all

/-- A teardown empties the slot. -/
theorem teardownCall_call (g : State) (reason : Str) (code : Nat) :
    (g.teardownCall cfg env reason code).call = none := by
  obtain ⟨g', -, heq⟩ := g.teardownCall_eq cfg env reason code
  rw [heq]
  exact State.finishCall_call ..

/-- One event keeps it. -/
theorem Minded.step {s : State × List Path} (h : Minded s) (e : Event × Env) :
    Minded (trackStep md5Hex cfg s e) := by
  obtain ⟨g, legs⟩ := s
  obtain ⟨e, env⟩ := e
  cases hrun : g.stopped with
  | true =>
      have hsame : g.step md5Hex cfg (e, env) = g := by simp [State.step, hrun]
      have hacq : acquired g (e, env) (newEntries g g) = [] := by
        have hnew : newEntries g g = [] := newEntries_eq (List.append_nil g.log).symm
        cases e <;> simp [acquired, hnew, State.takesOver, hrun]
      simpa only [trackStep, hsame] using h.of_minds (Minds.refl g) hacq
  | false =>
      have hother (hroutine : e.isRoutine = true) :
          Minded (trackStep md5Hex cfg (g, legs) (e, env)) := by
        refine h.of_minds (step_minds md5Hex cfg g (e, env) hroutine) ?_
        cases e with
        | request req src => exact absurd hroutine Bool.false_ne_true
        | callAdded path => exact absurd hroutine Bool.false_ne_true
        | _ => rfl
      cases e with
      | request req src =>
          have hstep : g.step md5Hex cfg (.request req src, env) =
              ({ g with nextTxn := g.nextTxn + 1 }.onSipRequest cfg env g.nextTxn req src).1 := by
            simp [State.step, hrun]
          rcases onSipRequest_minds cfg env { g with nextTxn := g.nextTxn + 1 } g.nextTxn req src with
            hminds | ⟨hcall, hmodem, hmodem', hpath, -⟩
          · have hm : Minds g (g.step md5Hex cfg (.request req src, env)) := by
              rw [hstep]
              have hbump : Minds g { g with nextTxn := g.nextTxn + 1 } := .congr rfl id rfl rfl
              exact hbump.trans hminds
            refine h.of_minds hm ?_
            obtain ⟨new, hlog, hdial, -⟩ := hm.log
            have hnone : (newEntries g (g.step md5Hex cfg (.request req src, env))).any
                Entry.isDial = false := by
              simpa [newEntries_eq hlog] using fun t e he ↦ hdial (t, e) he
            simp [acquired, hnone]
          · -- Nothing was in the slot, so the dial took the only leg there is.
            have hcall : g.call = none := hcall
            rw [trackStep, hstep]
            have hempty : legs = [] := List.eq_nil_iff_forall_not_mem.mpr fun p hp ↦ by
              simpa [State.mmPath, hcall] using h.legs p hp
            refine ⟨fun hnone ↦ ?_, fun p hp ↦ ?_⟩
            · simp_all
            · have hmem := (List.mem_filter.mp hp).1
              simp only [hempty, List.append_nil, acquired] at hmem
              split at hmem
              · exact hpath.trans (Option.mem_toList.mp hmem)
              · simp at hmem
      | callAdded path =>
          have hstep : g.step md5Hex cfg (.callAdded path, env) = g.onMmCallAdded cfg env path := by
            simp [State.step, hrun]
          rw [trackStep, hstep]
          cases htake : g.takesOver env path with
          | false =>
              refine h.of_minds (onMmCallAdded_minds cfg env g path hrun htake) ?_
              simp [acquired, htake]
          | true =>
              obtain ⟨hmodem, new, hlog, hslot⟩ := onMmCallAdded_takesOver cfg env g path htake
              have hsome : g.modem.isSome = true := by simp_all [State.takesOver]
              refine ⟨fun hnone ↦ ?_, fun p hp ↦ ?_⟩
              · rw [hmodem] at hnone
                simp [hnone] at hsome
              · obtain ⟨hmem, hkept⟩ := List.mem_filter.mp hp
                simp only [acquired, htake, if_true, List.singleton_append, List.mem_cons] at hmem
                rcases hslot with ⟨hcall, hpath⟩ | ⟨hpath, -, e', he', heq⟩
                · rcases hmem with rfl | hmem
                  · exact hpath
                  · simpa [State.mmPath, hcall] using h.legs p hmem
                · rcases hmem with rfl | hmem
                  · have := List.mem_map_of_mem (f := Prod.snd) he'
                    simp_all [newEntries_eq hlog]
                  · exact hpath.trans (h.legs p hmem)
      | modemUp modem =>
          have hstep : g.step md5Hex cfg (.modemUp modem, env) = { g with modem := some modem } := by
            simp [State.step, hrun]
          rw [trackStep, hstep]
          refine ⟨?_, fun p hp ↦ ?_⟩
          · intro hmodem
            cases hmodem
          · exact h.legs p (List.mem_filter.mp hp).1
      | modemDown =>
          have hstep : g.step md5Hex cfg (.modemDown, env) =
              ({ g with modem := none }).teardownCall cfg env "modem disappeared" 503 := by
            simp [State.step, hrun]
          rw [trackStep, hstep]
          refine ⟨fun _ ↦ teardownCall_call .., fun p hp ↦ ?_⟩
          cases hp
      | _ => exact hother rfl

/-- In every run, with whatever requests, responses, timers and events of the modem in whatever
order, a call of the modem that the gateway dialled or took is the one in the slot or was hung
up, unless the modem went; and without a modem there is no call.  The list of these calls is kept beside
the run, which goes on as it would without. -/
theorem no_leg_orphaned (now : Nat) (es : List (Event × Env)) :
    let s := Run.run (trackStep md5Hex cfg) (State.init now, []) es
    (∀ p ∈ s.2, s.1.mmPath = some p) ∧ (s.1.modem = none → s.1.call = none) ∧
      s.1 = (State.init now).run md5Hex cfg es := by
  have hinit : Minded (State.init now, []) := ⟨fun _ ↦ rfl, by simp⟩
  have h := Run.invariant (fun s e (hs : Minded s) ↦ hs.step md5Hex cfg e) es hinit
  exact ⟨h.legs, h.idle, run_trackStep_fst md5Hex cfg _ _ es⟩

end Modem2Sip.Gateway
