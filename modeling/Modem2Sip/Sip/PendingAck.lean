import Modem2Sip.Sip.AtMostOnce

/-!
# Answers that wait for their ACK

`respond`, `retransmit_until_acked` and the first lines of `on_request` in `sip/core.rs`, with the
retransmission tasks broken up into the steps between which others may run: a task looks at its
stop flag when it wakes up, sends later, and only when it leaves does it take the lock of
`pending_ack`.  What is done under that lock is one step.  A flag is known by the index of its
task, so that two flags are the same pointer when the indices agree.
-/

namespace Modem2Sip.Sip.PendingAck

open Text Net Server

/-- Where a retransmission task is. -/
inductive Phase where
  | sleeping
  /-- It has seen that it is not stopped. -/
  | sending
  /-- It has left the loop. -/
  | leaving
  | finished
deriving DecidableEq, Repr

/-- A task of `retransmit_until_acked`. -/
structure Repeat where
  key : Str
  bytes : List UInt8
  dest : SocketAddr
  /-- The flag `stop`. -/
  stopped : Bool
  /-- In milliseconds, as `delay`. -/
  elapsed : Nat
  delay : Nat
  phase : Phase
deriving DecidableEq, Repr

/-- The answer is being repeated. -/
def Repeat.Live (t : Repeat) : Prop := t.stopped = false ∧ t.phase ≠ .finished

instance (t : Repeat) : Decidable t.Live := inferInstanceAs (Decidable (_ ∧ _))

structure State where
  /-- `pending_ack`. -/
  pending : StrMap Nat
  tasks : List Repeat

def start : State where
  pending := .empty
  tasks := []

/-- Set the flag that is registered under a key. -/
def stop (key : Str) (s : State) : State :=
  match s.pending.get? key with
  | none => s
  | some i => { s with tasks := s.tasks.modify i fun t ↦ { t with stopped := true } }

/-- The entry that `insert` puts out is stopped. -/
def retransmitUntilAcked (req : Request) (bytes : List UInt8) (dest : SocketAddr) (s : State) :
    State :=
  match dialogKey req with
  | none => s
  | some key =>
    { pending := s.pending.insert key s.tasks.length
      tasks := (stop key s).tasks ++
        [{ key, bytes, dest, stopped := false, elapsed := 0, delay := 500, phase := .sleeping }] }

/-- The next step of a task; `sent` is whether `send_to` succeeds, should it come to that. -/
def taskStep (i : Nat) (sent : Bool) (s : State) : State :=
  match s.tasks[i]? with
  | none => s
  | some t =>
    match t.phase with
    | .sleeping =>
      { s with tasks := s.tasks.set i { t with phase := if t.stopped then .finished else .sending } }
    | .sending =>
      if sent then
        let elapsed := t.elapsed + t.delay
        let phase := if elapsed < 32 * 1000 then .sleeping else .leaving
        { s with tasks := s.tasks.set i { t with elapsed, delay := min (t.delay * 2) 4000, phase } }
      else { s with tasks := s.tasks.set i { t with phase := .leaving } }
    | .leaving =>
      { pending := if s.pending.get? t.key = some i then s.pending.erase t.key else s.pending
        tasks := s.tasks.set i { t with phase := .finished } }
    | .finished => s

section Parameters

variable (toUppercase : Char → Str) (cfg : ServerConfig)

/-- The part of `respond` that concerns the tasks. -/
def respond (req : Request) (src : SocketAddr) (resp : Response) (s : State) : State :=
  if req.method = .invite ∧ resp.isSuccess then
    retransmitUntilAcked req ((Server.complete cfg req src resp).encode toUppercase) src s
  else s

/-- The part of `on_request` that concerns the tasks. -/
def onRequest (req : Request) (src : SocketAddr) (tag : Str) (s : State) : State :=
  if !cfg.sourceAllowed src.ip then
    respond toUppercase cfg req src (makeResponse cfg.toCoreConfig tag req 403 none) s
  else if req.method = .ack then
    match dialogKey req with
    | none => s
    | some key => { pending := s.pending.erase key, tasks := (stop key s).tasks }
  else s

inductive Event where
  | respond (req : Request) (src : SocketAddr) (resp : Response)
  | request (req : Request) (src : SocketAddr) (tag : Str)
  | task (i : Nat) (sent : Bool)
deriving DecidableEq, Repr

def step (s : State) : Event → State
  | .respond req src resp => respond toUppercase cfg req src resp s
  | .request req src tag => onRequest toUppercase cfg req src tag s
  | .task i sent => taskStep i sent s

end Parameters

/-! ## The invariant -/

/-- An answer that is being repeated is the registered one of its key. -/
def Registered (s : State) : Prop :=
  ∀ i t, s.tasks[i]? = some t → t.Live → s.pending.get? t.key = some i

theorem registered_start : Registered start := by
  intro i t ht
  simp [start] at ht

/-- Two answers of one key that are both being repeated are the same. -/
theorem Registered.unique {s : State} (h : Registered s) {i j : Nat} {t u : Repeat}
    (ht : s.tasks[i]? = some t) (hu : s.tasks[j]? = some u) (hlive : t.Live) (hlive' : u.Live)
    (hkey : t.key = u.key) : i = j := by
  have hi := h i t ht hlive
  rw [hkey, h j u hu hlive'] at hi
  exact (Option.some.inj hi).symm

@[simp] theorem length_stop (key : Str) (s : State) :
    (stop key s).tasks.length = s.tasks.length := by
  rw [stop]
  split
  · rfl
  · exact List.length_modify ..

/-- The tasks that live on are registered, under other keys. -/
theorem Registered.of_stop {s : State} (h : Registered s) {key : Str} {i : Nat} {t : Repeat}
    (ht : (stop key s).tasks[i]? = some t) (hlive : t.Live) :
    t.key ≠ key ∧ s.pending.get? t.key = some i := by
  rw [stop] at ht
  cases hp : s.pending.get? key with
  | none =>
      rw [hp] at ht
      have hreg := h i t ht hlive
      refine ⟨?_, hreg⟩
      rintro rfl
      rw [hp] at hreg
      cases hreg
  | some p =>
      rw [hp] at ht
      dsimp only at ht
      rw [List.getElem?_modify] at ht
      split at ht
      · obtain ⟨u, -, rfl⟩ := Option.map_eq_some_iff.mp ht
        cases hlive.1
      · rename_i hne
        have hreg := h i t (by simpa using ht) hlive
        refine ⟨?_, hreg⟩
        rintro rfl
        rw [hp] at hreg
        exact hne (Option.some.inj hreg)

/-! ## What an answer and an ACK do -/

/-- The new answer is registered in the place of the old one, which is stopped. -/
theorem registered_retransmit {s : State} (h : Registered s) (req : Request) (bytes : List UInt8)
    (dest : SocketAddr) : Registered (retransmitUntilAcked req bytes dest s) := by
  rw [retransmitUntilAcked]
  cases dialogKey req with
  | none => exact h
  | some key =>
      intro i t ht hlive
      dsimp only at ht ⊢
      rw [Map.get?_insert]
      rw [List.getElem?_append] at ht
      split at ht
      · obtain ⟨hne, hreg⟩ := h.of_stop ht hlive
        rw [if_neg hne]
        exact hreg
      · rename_i hge
        rw [length_stop] at ht hge
        obtain ⟨hlt, rfl⟩ := List.getElem?_eq_some_iff.mp ht
        rw [List.length_singleton] at hlt
        rw [List.getElem_singleton, if_pos rfl]
        congr 1
        omega

section Parameters

variable {toUppercase : Char → Str} {cfg : ServerConfig}

theorem registered_respond {s : State} (h : Registered s) (req : Request) (src : SocketAddr)
    (resp : Response) : Registered (respond toUppercase cfg req src resp s) := by
  rw [respond]
  split
  · exact registered_retransmit h req _ src
  · exact h

variable (toUppercase) in
/-- After the ACK of a source that is let in, nothing of its key is repeated. -/
theorem not_live_of_ack {s : State} (h : Registered s) {req : Request} {src : SocketAddr}
    {key : Str} (hack : req.method = .ack) (hkey : dialogKey req = some key)
    (hallowed : cfg.sourceAllowed src.ip = true) (tag : Str) {t : Repeat}
    (ht : t ∈ (onRequest toUppercase cfg req src tag s).tasks) (htkey : t.key = key) :
    ¬ t.Live := by
  rw [onRequest, hallowed, if_neg (by simp), if_pos hack, hkey] at ht
  intro hlive
  obtain ⟨i, hi⟩ := List.getElem?_of_mem ht
  exact (h.of_stop hi hlive).1 htkey

theorem registered_onRequest {s : State} (h : Registered s) (req : Request) (src : SocketAddr)
    (tag : Str) : Registered (onRequest toUppercase cfg req src tag s) := by
  rw [onRequest]
  split
  · exact registered_respond h req src _
  · split
    · cases dialogKey req with
      | none => exact h
      | some key =>
          intro i t ht hlive
          obtain ⟨hne, hreg⟩ := h.of_stop ht hlive
          rw [Map.get?_erase, if_neg hne]
          exact hreg
    · exact h

end Parameters

/-! ## What a task does -/

/-- A task that moves on within its loop, or finishes: the others stay, and it keeps its key and
its flag. -/
theorem Registered.set {s : State} (h : Registered s) {i : Nat} {t t' : Repeat}
    (ht : s.tasks[i]? = some t) (hkey : t'.key = t.key) (hlive : t'.Live → t.Live) :
    Registered { s with tasks := s.tasks.set i t' } := by
  intro j u hu hulive
  dsimp only at hu ⊢
  rw [List.getElem?_set] at hu
  split at hu
  · rename_i hij
    subst hij
    split at hu
    · cases hu
      rw [hkey]
      exact h i t ht (hlive hulive)
    · cases hu
  · exact h j u hu hulive

/-- A task takes out no entry but its own. -/
theorem get?_taskStep {s : State} {i j : Nat} (sent : Bool) {key : Str}
    (hj : s.pending.get? key = some j) (hne : j ≠ i) :
    (taskStep i sent s).pending.get? key = some j := by
  rw [taskStep]
  split
  · exact hj
  · split
    · exact hj
    · split <;> exact hj
    · dsimp only
      split
      · rename_i t _ _ hown
        rw [Map.get?_erase, if_neg]
        · exact hj
        · rintro rfl
          rw [hj] at hown
          exact hne (Option.some.inj hown)
      · exact hj
    · exact hj

theorem registered_taskStep {s : State} (h : Registered s) (i : Nat) (sent : Bool) :
    Registered (taskStep i sent s) := by
  rw [taskStep]
  cases ht : s.tasks[i]? with
  | none => exact h
  | some t =>
      dsimp only
      cases hphase : t.phase with
      | sleeping =>
          refine h.set ht rfl fun hlive ↦ ⟨hlive.1, ?_⟩
          simp [hphase]
      | sending =>
          dsimp only
          split
          · refine h.set ht rfl fun hlive ↦ ⟨hlive.1, ?_⟩
            simp [hphase]
          · refine h.set ht rfl fun hlive ↦ ⟨hlive.1, ?_⟩
            simp [hphase]
      | leaving =>
          -- The entry goes with its task; every other task that lives has another entry.
          intro j u hu hlive
          dsimp only at hu ⊢
          have hji : j ≠ i := by
            rintro rfl
            rw [List.getElem?_set_self (List.getElem?_eq_some_iff.mp ht).1] at hu
            cases hu
            exact hlive.2 rfl
          rw [List.getElem?_set_ne hji.symm] at hu
          have hreg := h j u hu hlive
          have hkept := get?_taskStep sent hreg hji
          rw [taskStep, ht] at hkept
          simpa only [hphase] using hkept
      | finished => exact h

/-! ## Runs -/

section Parameters

variable (toUppercase : Char → Str) (cfg : ServerConfig)

theorem registered_step (s : State) (e : Event) (h : Registered s) :
    Registered (step toUppercase cfg s e) := by
  cases e with
  | respond req src resp => exact registered_respond h req src resp
  | request req src tag => exact registered_onRequest h req src tag
  | task i sent => exact registered_taskStep h i sent

/-- In every state that is reached, an answer that is being repeated is the registered one of its
key, so that there is at most one for a key; an ACK leaves none of its key; and a task never takes
the entry of another one out. -/
theorem ack_stops_answers (es : List Event) :
    let s := Run.run (step toUppercase cfg) start es
    (∀ i t, s.tasks[i]? = some t → t.Live → s.pending.get? t.key = some i) ∧
    (∀ (i j : Nat) (t u : Repeat), s.tasks[i]? = some t → s.tasks[j]? = some u → t.Live → u.Live →
      t.key = u.key → i = j) ∧
    (∀ req src tag key, req.method = .ack → dialogKey req = some key →
      cfg.sourceAllowed src.ip = true →
      ∀ t ∈ (step toUppercase cfg s (.request req src tag)).tasks, t.key = key → ¬ t.Live) ∧
    ∀ i sent key j, s.pending.get? key = some j → j ≠ i →
      (step toUppercase cfg s (.task i sent)).pending.get? key = some j := by
  intro s
  have h : Registered s := Run.invariant (registered_step toUppercase cfg) es registered_start
  refine ⟨h, ?_, ?_, ?_⟩
  · intro i j t u ht hu hlive hlive' hkey
    exact h.unique ht hu hlive hlive' hkey
  · intro req src tag key hack hkey hallowed t ht htkey
    exact not_live_of_ack toUppercase h hack hkey hallowed tag ht htkey
  · intro i sent key j hj hne
    exact get?_taskStep sent hj hne

end Parameters

def anInvite : Request where
  method := .invite
  uri := Uri.new (some "+8210") "gw" none
  headers := ⟨[("via", "SIP/2.0/UDP 10.0.0.1;branch=z9hG4bK1"), ("call-id", "c1"), ("cseq", "1 INVITE")]⟩
  body := []

def itsAck : Request :=
  { anInvite with method := .ack, headers := ⟨[("call-id", "c1"), ("cseq", "1 ACK")]⟩ }

/-- The answer was sent twice, and the task has just seen that it is not stopped. -/
def answered : List Event :=
  [.respond anInvite home (anInvite.reply 200 "OK"), .task 0 true, .task 0 true, .task 0 true]

theorem ack_stops_answers_once :
    let s := Run.run (step (fun c ↦ [c]) oneHost) start answered
    (∃ t ∈ s.tasks, t.Live ∧ t.key = "c1|1") ∧
      ∀ t ∈ (step (fun c ↦ [c]) oneHost s (.request itsAck home [])).tasks, t.key = "c1|1" → ¬ t.Live := by
  intro s
  obtain ⟨-, -, hack, -⟩ := ack_stops_answers (fun c ↦ [c]) oneHost answered
  exact ⟨by decide +kernel,
    hack itsAck home [] "c1|1" rfl (by decide +kernel) (by decide +kernel)⟩

/-! ## The element takes these steps -/

section Parameters

variable (toUppercase : Char → Str) (cfg : ServerConfig)

/-- What there is of a task in the state of the element, where it is never seen between two of its
steps. -/
def ofResend (r : Resend) : Repeat where
  key := r.key
  bytes := r.bytes
  dest := r.dest
  stopped := r.stopped
  elapsed := r.elapsed
  delay := r.delay
  phase := if r.done then .finished else .sleeping

def ofServer (s : Server) : State where
  pending := s.pendingAck
  tasks := s.resends.map ofResend

theorem stop_ofServer (s : Server) {key : Str} {i : Nat} (hi : s.pendingAck.get? key = some i) :
    ((s.stopResend i).resends).map ofResend = (stop key (ofServer s)).tasks := by
  have hget : (ofServer s).pending.get? key = some i := hi
  rw [stop, hget]
  refine List.ext_getElem? fun j ↦ ?_
  simp only [Server.stopResend, ofServer, List.getElem?_map, List.getElem?_modify]
  cases s.resends[j]? with
  | none => rfl
  | some r =>
      dsimp only [Option.map_some]
      split <;> rfl

theorem ofServer_retransmit (s : Server) (req : Request) (bytes : List UInt8) (dest : SocketAddr) :
    ofServer (s.retransmitUntilAcked req bytes dest) =
      retransmitUntilAcked req bytes dest (ofServer s) := by
  rw [Server.retransmitUntilAcked, retransmitUntilAcked]
  cases dialogKey req with
  | none => rfl
  | some key =>
      dsimp only
      cases hp : s.pendingAck.get? key with
      | none =>
          have hget : (ofServer s).pending.get? key = none := hp
          have hstop : stop key (ofServer s) = ofServer s := by
            rw [stop, hget]
          rw [hstop]
          simp [ofServer, ofResend]
      | some i =>
          rw [← stop_ofServer s hp]
          simp [ofServer, ofResend, Server.stopResend]

theorem ofServer_respond (s : Server) (req : Request) (src : SocketAddr) (resp : Response) :
    ofServer (s.respond toUppercase cfg req src resp) =
      respond toUppercase cfg req src resp (ofServer s) := by
  rw [Server.respond, respond]
  generalize (Server.complete cfg req src resp).encode toUppercase = bytes
  cases txnKey req with
  | none =>
      dsimp only
      split
      · exact ofServer_retransmit s req bytes src
      · rfl
  | some key =>
      dsimp only
      split
      · exact ofServer_retransmit { s with cache := cacheResponse s.now s.cache key resp.code bytes }
          req bytes src
      · rfl

/-- The element takes a task through all of its steps at once. -/
theorem ofServer_timer (s : Server) (i : Nat) :
    ∃ es, ofServer (s.timer i) = Run.run (step toUppercase cfg) (ofServer s) es := by
  rw [Server.timer]
  cases hr : s.resends[i]? with
  | none => exact ⟨[], rfl⟩
  | some r =>
      dsimp only
      by_cases hidle : r.done ∨ s.now < r.wakeAt
      · rw [if_pos hidle]
        exact ⟨[], rfl⟩
      rw [if_neg hidle]
      have hdone : r.done = false := by
        rw [Bool.eq_false_iff]
        exact fun h ↦ hidle (.inl h)
      have htask : (ofServer s).tasks[i]? = some (ofResend r) := by
        rw [ofServer, List.getElem?_map, hr]
        rfl
      have hlt : i < (ofServer s).tasks.length := (List.getElem?_eq_some_iff.mp htask).1
      cases hstopped : r.stopped with
      | true =>
          refine ⟨[.task i true], ?_⟩
          rw [if_pos rfl, Run.run_cons, Run.run_nil, step, taskStep, htask]
          simp [ofServer, ofResend, hdone, hstopped, List.map_set]
      | false =>
          rw [if_neg Bool.false_ne_true]
          have hwake : taskStep i true (ofServer s) = { ofServer s with
              tasks := (ofServer s).tasks.set i { ofResend r with phase := .sending } } := by
            rw [taskStep, htask]
            simp [ofResend, hdone, hstopped]
          have hsend : taskStep i true (taskStep i true (ofServer s)) = { ofServer s with
              tasks := (ofServer s).tasks.set i { ofResend r with
                elapsed := r.elapsed + r.delay, delay := min (r.delay * 2) 4000,
                phase := if r.elapsed + r.delay < 32 * 1000 then .sleeping else .leaving } } := by
            rw [hwake, taskStep, List.getElem?_set_self hlt]
            simp only [ofResend, List.set_set, if_true]
            rfl
          by_cases hmore : r.elapsed + r.delay < 32 * 1000
          · refine ⟨[.task i true, .task i true], ?_⟩
            rw [if_pos hmore, Run.run_cons, Run.run_cons, Run.run_nil, step, step, hsend, if_pos hmore]
            simp [ofServer, ofResend, Server.emit, hdone, hstopped, List.map_set]
          · refine ⟨[.task i true, .task i true, .task i true], ?_⟩
            rw [if_neg hmore, Run.run_cons, Run.run_cons, Run.run_cons, Run.run_nil, step, step, step,
              hsend, if_neg hmore, taskStep, List.getElem?_set_self hlt]
            simp [ofServer, ofResend, Server.emit, hstopped, List.map_set]
            rfl

theorem ofServer_arrive (s : Server) (req : Request) (src : SocketAddr) (tag : Str) :
    ofServer (s.arrive toUppercase cfg req src tag) = onRequest toUppercase cfg req src tag (ofServer s) := by
  rw [Server.arrive, onRequest]
  split
  · exact ofServer_respond toUppercase cfg s req src _
  · split
    · cases dialogKey req with
      | none => rfl
      | some key =>
          dsimp only
          cases hp : s.pendingAck.get? key with
          | none =>
              have hget : (ofServer s).pending.get? key = none := hp
              rw [stop, hget, Map.erase_of_get?_eq_none hget]
              rfl
          | some i =>
              rw [← stop_ofServer s hp]
              rfl
    · cases txnKey req with
      | none => rfl
      | some key =>
          dsimp only
          split <;> rfl

/-- Every step of the element is a run of these steps. -/
theorem ofServer_step (md5Hex : List UInt8 → Str) (s : Server) (e : Server.Event) :
    ∃ es, ofServer (s.step toUppercase md5Hex cfg e) = Run.run (step toUppercase cfg) (ofServer s) es := by
  cases e with
  | request req src tag => exact ⟨[.request req src tag], ofServer_arrive toUppercase cfg s req src tag⟩
  | handle i tag =>
      rw [Server.step]
      split
      · exact ⟨[], rfl⟩
      · rename_i req src _
        refine Server.handle_induction (P := fun s' ↦
          ∃ es, ofServer s' = Run.run (step toUppercase cfg) (ofServer s) es) ?_ ?_ ?_ ?_ ?_ tag
        · rintro s' seen ⟨es, hes⟩
          exact ⟨es, hes⟩
        · rintro s' m ⟨es, hes⟩
          exact ⟨es, hes⟩
        · rintro s' resp ⟨es, hes⟩
          refine ⟨es ++ [.respond req src resp], ?_⟩
          rw [ofServer_respond, hes, Run.run_append]
          rfl
        · rintro s' o - ⟨es, hes⟩
          exact ⟨es, hes⟩
        · exact ⟨[], rfl⟩
  | respond req src resp =>
      exact ⟨[.respond req src resp], ofServer_respond toUppercase cfg s req src resp⟩
  | timer i => exact ofServer_timer toUppercase cfg s i
  | tick ms => exact ⟨[], rfl⟩
  | gc => exact ⟨[], rfl⟩
  | modem ready => exact ⟨[], rfl⟩

end Parameters

end Modem2Sip.Sip.PendingAck
