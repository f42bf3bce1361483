import Modem2Sip.Lib.Map
import Modem2Sip.Lib.Prog
import Modem2Sip.Mm.Watcher

/-!
# Supervising the modem

The task of `mm/watcher.rs`: it waits for the modem of the configuration, brings it up, and tells the
gateway what becomes of it, until it is gone; then it starts again.  Every call of the modem has a task of
its own, which reports what happens to the call over the same channel.  These tasks run at any moment, and
to abort one only means that it will not get past the next point where it waits.
-/

namespace Modem2Sip.Mm

open Text

/-! ## Messages -/

/-- What the gateway is told. -/
inductive ModemEvent where
  | up (path : Str)
  | down (reason : Str)
  | callAdded (path : Str)
  | callDeleted (path : Str)
  | callState (path : Str) (old new : Int) (reason : Nat)
  | dtmf (path digit : Str)
  | smsAdded (path : Str) (received : Bool)
deriving DecidableEq, Repr

namespace ModemState

def failed : Int := -1
def locked : Int := 2
def disabled : Int := 3
def enabled : Int := 6

/-- `modem_state_name`. -/
def name (s : Int) : Str :=
  match s with
  | -1 => "failed"
  | 0 => "unknown"
  | 1 => "initializing"
  | 2 => "locked"
  | 3 => "disabled"
  | 4 => "disabling"
  | 5 => "enabling"
  | 6 => "enabled"
  | 7 => "searching"
  | 8 => "registered"
  | 9 => "disconnecting"
  | 10 => "connecting"
  | 11 => "connected"
  | _ => "?"

end ModemState

def modemIface : Str := "org.freedesktop.ModemManager1.Modem"

def mmService : Str := "org.freedesktop.ModemManager1"

/-- What a stream of signals gives. -/
inductive Signal (α : Type) where
  | closed
  /-- A signal whose arguments cannot be read. -/
  | unreadable
  | args (a : α)

/-- The streams that `supervise` cannot do without. -/
inductive Stream where
  | interfacesRemoved
  | stateChanged
  | callAdded
  | callDeleted
  | smsAdded

def Stream.name : Stream → Str
  | .interfacesRemoved => "ObjectManager"
  | .stateChanged => "Modem.StateChanged"
  | .callAdded => "Voice.CallAdded"
  | .callDeleted => "Voice.CallDeleted"
  | .smsAdded => "Messaging.Added"

/-- What `supervise` wakes up for. -/
inductive Wake where
  | removed (sig : Signal (Str × List Str))
  | stateChanged (sig : Signal (Int × Int × Nat))
  | callAdded (sig : Signal Str)
  | callDeleted (sig : Signal Str)
  | smsAdded (sig : Signal (Str × Bool))
  | nameOwnerChanged (sig : Signal (Str × Option Str))
  /-- It is time to look whether the modem is still there. -/
  | tick

/-- Why the modem is not usable any longer, if it is not. -/
def Wake.reason (path : Str) : Wake → Option Str
  | .removed .closed => some "ObjectManager stream closed"
  | .removed (.args (object, interfaces)) =>
    if object = path ∧ interfaces.contains modemIface then some "modem removed from ModemManager" else none
  | .stateChanged .closed => some "StateChanged stream closed"
  | .stateChanged (.args (_, new, _)) =>
    if new < ModemState.enabled then some ("modem state dropped to " ++ ModemState.name new) else none
  | .callAdded .closed => some "CallAdded stream closed"
  | .callDeleted .closed => some "CallDeleted stream closed"
  | .smsAdded .closed => some "Messaging.Added stream closed"
  | .nameOwnerChanged (.args (name, newOwner)) =>
    if name = mmService ∧ newOwner = none then some "ModemManager left the bus" else none
  | _ => none

/-! ## The task of a call -/

inductive Stage where
  | subscribing
  /-- For the keys too, or not any longer. -/
  | listening (dtmf : Bool)
  | ended
deriving DecidableEq, Repr

/-- What the task of a call goes on with. -/
inductive CallWake where
  | subscribed (states : Except Str Unit) (dtmf : Bool)
  | stateChanged (sig : Signal (Int × Int × Nat))
  | dtmfReceived (sig : Signal Str)

/-- The task that `spawn_call_watch` starts, from one point where it waits to the next. -/
def Stage.wake (path : Str) : Stage → CallWake → Stage × Option ModemEvent
  | .subscribing, .subscribed (.error _) _ => (.ended, none)
  | .subscribing, .subscribed (.ok ()) dtmf => (.listening dtmf, none)
  | .listening _, .stateChanged .closed => (.ended, none)
  | .listening dtmf, .stateChanged (.args (old, new, reason)) =>
    (.listening dtmf, some (.callState path old new reason))
  | .listening true, .dtmfReceived .closed => (.listening false, none)
  | .listening true, .dtmfReceived (.args digit) => (.listening true, some (.dtmf path digit))
  | stage, _ => (stage, none)

structure CallTask where
  path : Str
  stage : Stage := .subscribing
  aborted : Bool := false
deriving DecidableEq, Repr

/-! ## The task of the modem -/

inductive Call where
  | connect
  /-- In milliseconds, as all times here. -/
  | now
  | elapsed (since : Nat)
  | sleep (ms : Nat)
  /-- Whether the gateway still listens. -/
  | send (e : ModemEvent)
  | objectManager
  | subscribeAdded
  /-- Together with what `modem_matches` asks the objects. -/
  | getManagedObjects
  /-- `added.next()`, or five seconds; whether the stream goes on. -/
  | awaitAdded
  | modemProxy (path : Str)
  | modemState (path : Str)
  | stateFailedReason (path : Str)
  | enable (path : Str)
  | buildHandle (path : Str)
  | subscribe (stream : Stream) (path : Str)
  | dbusProxy
  | receiveNameOwnerChanged
  | listCalls (path : Str)
  | listSms (path : Str)
  /-- `tokio::select!`, with or without the changes of names. -/
  | select (names : Bool)
  | callProxy (path : Str)
  | spawn (path : Str)
  | abort (id : Nat)

abbrev Call.Answer : Call → Type
  | .now => Nat
  | .elapsed _ => Nat
  | .sleep _ => Unit
  | .send _ => Bool
  | .getManagedObjects => Except Str (List ManagedObject)
  | .awaitAdded => Bool
  | .modemState _ => Except Str Int
  | .stateFailedReason _ => Except Str Nat
  | .listCalls _ => Except Str (List Str)
  | .listSms _ => Except Str (List Str)
  | .select _ => Wake
  | .spawn _ => Nat
  | .abort _ => Unit
  | _ => Except Str Unit

abbrev Task (α : Type) : Type := Prog Call Call.Answer α

/-- A connection to the bus: when it was made, and the pause that there is after it if it does not last. -/
structure Link where
  backoff : Nat
  connectedAt : Nat

/-- The heads of the loops. -/
inductive Main where
  /-- Of `run`. -/
  | connecting (backoff : Nat)
  /-- Of `session`. -/
  | discovering (link : Link)
  /-- Of `wait_for_modem`. -/
  | waiting (link : Link)
  /-- Of `activate`. -/
  | activating (link : Link) (path : Str) (deadline : Nat)
  /-- Of `supervise`. -/
  | supervising (link : Link) (path : Str) (names : Bool) (callTasks : Map Str Nat)

variable (sel : ModemMatch) (enable : Bool)

/-- The end of a round of `run`. -/
def pause (backoff : Nat) : Task Main :=
  .call (.sleep backoff) fun _ ↦ .done (.connecting (min (backoff * 2) 30000))

/-- What `run` does after `session`. -/
def sessionEnded (link : Link) : Task Main :=
  .call (.send (.down "bus session ended")) fun _ ↦ .call (.elapsed link.connectedAt) fun ms ↦
    pause (if 30000 < ms then 1000 else link.backoff)

/-- `modem activation failed, retrying`. -/
def activationFailed (link : Link) : Task Main :=
  .call (.sleep 3000) fun _ ↦ .done (.discovering link)

/-- The end of `supervise`, and what `session` does after it. -/
def leave (link : Link) (reason : Str) : List Nat → Task Main
  | [] => .call (.send (.down reason)) fun
    | true => .done (.discovering link)
    | false => sessionEnded link
  | id :: ids => .call (.abort id) fun _ ↦ leave link reason ids

/-- `spawn_call_watch`. -/
def spawnCallWatch (path : Str) (tasks : Map Str Nat) (k : Map Str Nat → Task Main) : Task Main :=
  .call (.callProxy path) fun
    | .error _ => k tasks
    | .ok () => .call (.spawn path) fun id ↦
      match tasks.get? path with
      | none => k (tasks.insert path id)
      | some previous => .call (.abort previous) fun _ ↦ k (tasks.insert path id)

/-- The calls that there are already. -/
def adoptCalls (k : Map Str Nat → Task Main) : List Str → Map Str Nat → Task Main
  | [], tasks => k tasks
  | c :: cs, tasks => spawnCallWatch c tasks fun tasks ↦
    .call (.send (.callAdded c)) fun _ ↦ adoptCalls k cs tasks

/-- And the messages. -/
def adoptSms (k : Task Main) : List Str → Task Main
  | [] => k
  | m :: ms => .call (.send (.smsAdded m false)) fun _ ↦ adoptSms k ms

def adopt (link : Link) (path : Str) (names : Bool) : Task Main :=
  .call (.listCalls path) fun calls ↦
    adoptCalls (fun tasks ↦ .call (.listSms path) fun messages ↦
      adoptSms (.done (.supervising link path names tasks)) (messages.toOption.getD []))
      (calls.toOption.getD []) Map.empty

def subscribe (link : Link) (path : Str) (stream : Stream) (k : Task Main) : Task Main :=
  .call (.subscribe stream path) fun
    | .error e => leave link ("cannot watch " ++ stream.name ++ ": " ++ e) []
    | .ok () => k

def subscribeModem (link : Link) (path : Str) (names : Bool) : Task Main :=
  subscribe link path .stateChanged <| subscribe link path .callAdded <|
    subscribe link path .callDeleted <| subscribe link path .smsAdded <| adopt link path names

/-- `supervise`, up to its loop. -/
def supervise (link : Link) (path : Str) : Task Main :=
  subscribe link path .interfacesRemoved <| .call .dbusProxy fun
    | .error _ => subscribeModem link path false
    | .ok () => .call .receiveNameOwnerChanged fun r ↦ subscribeModem link path r.isOk

/-- A round of the loop of `activate`, and what `session` does after it. -/
def activate (link : Link) (path : Str) (deadline : Nat) : Task Main :=
  let again : Task Main := .call .now fun t ↦
    if deadline < t then .call (.modemState path) fun _ ↦ activationFailed link
    else .call (.sleep 2000) fun _ ↦ .done (.activating link path deadline)
  .call (.modemState path) fun
    | .error _ => activationFailed link
    | .ok state =>
      if ModemState.enabled ≤ state then
        .call (.buildHandle path) fun
          | .error _ => activationFailed link
          | .ok () => .call (.send (.up path)) fun
            | false => sessionEnded link
            | true => supervise link path
      else if state = ModemState.failed then
        .call (.stateFailedReason path) fun _ ↦ activationFailed link
      else if state = ModemState.locked then activationFailed link
      else if state = ModemState.disabled ∧ enable = true then .call (.enable path) fun _ ↦ again
      else again

/-- A round of the loop of `wait_for_modem`, and the beginning of `activate`. -/
def waitForModem (link : Link) : Task Main :=
  .call .getManagedObjects fun
    | .error _ => sessionEnded link
    | .ok objects =>
      match findModem objects sel with
      | none => .call .awaitAdded fun
        | false => sessionEnded link
        | true => .done (.waiting link)
      | some path => .call (.modemProxy path) fun
        | .error _ => activationFailed link
        | .ok () => .call .now fun t ↦ .done (.activating link path (t + 120000))

/-- The arm of `call_added`. -/
def callAdded (link : Link) (path : Str) (names : Bool) (tasks : Map Str Nat) (call : Str) : Task Main :=
  spawnCallWatch call tasks fun tasks ↦
    .call (.send (.callAdded call)) fun _ ↦ .done (.supervising link path names tasks)

/-- The end of the arm of `call_deleted`. -/
def callDeletedTold (link : Link) (path : Str) (names : Bool) (tasks : Map Str Nat) (call : Str) :
    Task Main :=
  .call (.send (.callDeleted call)) fun _ ↦ .done (.supervising link path names (tasks.erase call))

/-- The arm of `call_deleted`. -/
def callDeleted (link : Link) (path : Str) (names : Bool) (tasks : Map Str Nat) (call : Str) : Task Main :=
  match tasks.get? call with
  | none => callDeletedTold link path names tasks call
  | some id => .call (.abort id) fun _ ↦ callDeletedTold link path names tasks call

/-- The arm of `health`. -/
def health (link : Link) (path : Str) (names : Bool) (tasks : Map Str Nat) : Task Main :=
  .call (.modemState path) fun
    | .error e => leave link ("modem is unreachable on D-Bus: " ++ e) tasks.values
    | .ok state =>
      if state < ModemState.enabled then leave link ("modem state is " ++ ModemState.name state) tasks.values
      else .done (.supervising link path names tasks)

/-- What becomes of a signal that does not end `supervise`. -/
def handle (link : Link) (path : Str) (names : Bool) (tasks : Map Str Nat) : Wake → Task Main
  | .callAdded (.args call) => callAdded link path names tasks call
  | .callDeleted (.args call) => callDeleted link path names tasks call
  | .smsAdded (.args (message, received)) => .call (.send (.smsAdded message received)) fun _ ↦
    .done (.supervising link path names tasks)
  | .nameOwnerChanged .closed => .done (.supervising link path false tasks)
  | .tick => health link path names tasks
  | _ => .done (.supervising link path names tasks)

/-- From the head of a loop to the next one. -/
def turn : Main → Task Main
  | .connecting backoff => .call .connect fun
    | .error _ => pause backoff
    | .ok () => .call .now fun t ↦ .call .objectManager fun
      | .error _ => sessionEnded ⟨backoff, t⟩
      | .ok () => .done (.discovering ⟨backoff, t⟩)
  | .discovering link => .call .subscribeAdded fun
    | .error _ => sessionEnded link
    | .ok () => .done (.waiting link)
  | .waiting link => waitForModem sel link
  | .activating link path deadline => activate enable link path deadline
  | .supervising link path names tasks => .call (.select names) fun wake ↦
    match wake.reason path with
    | some reason => leave link reason tasks.values
    | none => handle link path names tasks wake

/-- So many turns, of which there is no last one. -/
def turns : Nat → Main → Task Unit
  | 0, _ => .done ()
  | n + 1, main => (turn sel enable main).bind (turns n)

/-- `run`, as far as that many turns. -/
def run (n : Nat) : Task Unit := turns sel enable n (.connecting 1000)

/-! ## The other tasks -/

inductive Sender where
  | main
  | callTask (id : Nat) (aborted : Bool)

/-- The tasks of all calls so far, and what has come over the channel. -/
structure Tasks where
  calls : List CallTask
  sent : List (Sender × ModemEvent)
  /-- The gateway does not listen any longer. -/
  closed : Bool

namespace Tasks

/-- A message goes to the gateway, if it still listens. -/
def send (s : Tasks) (who : Sender) (e : ModemEvent) : Tasks :=
  if s.closed then s else { s with sent := s.sent ++ [(who, e)] }

/-- A task comes to another stage. -/
def setStage (s : Tasks) (id : Nat) (task : CallTask) (stage : Stage) : Tasks :=
  { s with calls := s.calls.set id { task with stage } }

/-- A task goes on. -/
def goOn (s : Tasks) (id : Nat) (task : CallTask) (wake : CallWake) : Tasks :=
  match task.stage.wake task.path wake with
  | (stage, none) => s.setStage id task stage
  | (stage, some e) => (s.setStage id task stage).send (.callTask id task.aborted) e

def abort (s : Tasks) (id : Nat) : Tasks :=
  { s with calls := s.calls.modify id fun task ↦ { task with aborted := true } }

end Tasks

/-- What happens without the task of the modem. -/
inductive Others : Tasks → Tasks → Prop
  | goOn {s : Tasks} {id : Nat} {task : CallTask} (h : s.calls[id]? = some task) (wake : CallWake) :
    Others s (s.goOn id task wake)
  /-- A task that was aborted comes to a point where it waits. -/
  | cancelled {s : Tasks} {id : Nat} {task : CallTask} (h : s.calls[id]? = some task)
    (haborted : task.aborted = true) : Others s (s.setStage id task .ended)
  | close (s : Tasks) : Others s { s with closed := true }

/-- What a call does by itself.  The bus may answer anything. -/
def Does (s : Tasks) : (c : Call) → c.Answer → Tasks → Prop
  | .send e, delivered, s' => delivered = !s.closed ∧ s' = s.send .main e
  | .spawn path, id, s' => id = s.calls.length ∧ s' = { s with calls := s.calls ++ [{ path }] }
  | .abort id, _, s' => s' = s.abort id
  | .select false, .nameOwnerChanged _, _ => False
  | _, _, s' => s' = s

def world : Prog.World Call Call.Answer Tasks := fun s c r s' ↦
  ∃ s₁ s₂, Relation.ReflTransGen Others s s₁ ∧ Does s₁ c r s₂ ∧ Relation.ReflTransGen Others s₂ s'

/-! ## What is said of a run -/

/-- What has happened. -/
structure Ledger where
  /-- There is a connection, and no session on it has ended. -/
  linked : Bool := false
  backoff : Nat := 1000
  /-- When the connection was made. -/
  since : Option Nat := none
  /-- When the last activation began. -/
  began : Option Nat := none
  clock : Nat := 0
  /-- What the last scan found. -/
  found : Option Str := none
  /-- The state that the modem was in when it was last asked. -/
  state : Option Int := none
  /-- The modem that the gateway was told of. -/
  up : Option Str := none
  /-- That modem is not usable any longer. -/
  ending : Bool := false
  /-- What the gateway has yet to be told. -/
  owed : List ModemEvent := []
  /-- The calls of the modem that could be watched when they were added. -/
  watched : List Str := []

namespace Ledger

def ended (l : Ledger) : Ledger := { l with ending := true, watched := [] }

/-- What the gateway has to be told then. -/
def signalled (l : Ledger) : Wake → Ledger
  | .callAdded (.args call) => { l with owed := [.callAdded call] }
  | .callDeleted (.args call) =>
    { l with owed := [.callDeleted call], watched := l.watched.filter (· ≠ call) }
  | .smsAdded (.args (message, received)) => { l with owed := [.smsAdded message received] }
  | _ => l

/-- A signal came, which may be that the modem is lost. -/
def wake (l : Ledger) (w : Wake) : Ledger :=
  match w.reason (l.up.getD []) with
  | some _ => l.ended
  | none => l.signalled w

/-- The state of the modem was asked for. -/
def asked (l : Ledger) (state : Option Int) : Ledger :=
  let l := { l with state }
  if l.up.isSome ∧ state.all (· < ModemState.enabled) then l.ended else l

def record (l : Ledger) : Prog.Event Call Call.Answer → Ledger
  | ⟨.connect, .ok ()⟩ => { l with linked := true, since := none }
  | ⟨.now, t⟩ => { l with clock := t, since := l.since <|> some t, began := l.began <|> some t }
  | ⟨.elapsed _, ms⟩ => { l with linked := false, backoff := if 30000 < ms then 1000 else l.backoff }
  | ⟨.sleep _, _⟩ => if l.linked then l else { l with backoff := min (l.backoff * 2) 30000 }
  | ⟨.getManagedObjects, .ok objects⟩ => { l with found := findModem objects sel, state := none }
  | ⟨.modemProxy _, _⟩ => { l with began := none }
  | ⟨.modemState _, r⟩ => l.asked r.toOption
  | ⟨.send (.up path), true⟩ => { l with up := some path }
  | ⟨.send (.up _), false⟩ => l
  | ⟨.send (.down _), _⟩ => { l with up := none, ending := false, owed := [], watched := [] }
  | ⟨.send _, _⟩ => { l with owed := l.owed.tail }
  | ⟨.subscribe _ _, .error _⟩ => l.ended
  | ⟨.listCalls _, r⟩ => { l with owed := (r.toOption.getD []).map .callAdded }
  | ⟨.listSms _, r⟩ => { l with owed := (r.toOption.getD []).map (.smsAdded · false) }
  | ⟨.select _, w⟩ => l.wake w
  | ⟨.callProxy call, .ok ()⟩ => { l with watched := call :: l.watched }
  | _ => l

end Ledger

/-- The gateway hears of one modem after the other, and of calls and messages only while there is one;
save from tasks that were aborted already.  That a modem is down may be said twice. -/
def hear : Option Bool → Sender × ModemEvent → Option Bool
  | some false, (.main, .up _) => some true
  | some _, (.main, .down _) => some false
  | some true, (.main, .callAdded _) => some true
  | some true, (.main, .callDeleted _) => some true
  | some true, (.main, .smsAdded _ _) => some true
  | up, (.callTask _ true, .callState _ _ _ _) => up
  | up, (.callTask _ true, .dtmf _ _) => up
  | some true, (.callTask _ false, .callState _ _ _ _) => some true
  | some true, (.callTask _ false, .dtmf _ _) => some true
  | _, _ => none

/-- What has come over the channel is in order, up to where the run is if the gateway still listens. -/
def Heard (up : Bool) (s : Tasks) : Prop :=
  ∃ b, s.sent.foldl hear (some false) = some b ∧ (s.closed = false → b = up)

/-- The call of a task, and whether the task has been aborted. -/
def Tasks.view (s : Tasks) (id : Nat) : Option (Str × Bool) :=
  (s.calls[id]?).map fun task ↦ (task.path, task.aborted)

/-- A task that watches the call, and has not been aborted. -/
def Watches (s : Tasks) (id : Nat) (call : Str) : Prop := s.view id = some (call, false)

/-- There is one task for each of these calls, and no other one. -/
def Watching (watched : List Str) (s : Tasks) : Prop :=
  (∀ call ∈ watched, ∃! id, Watches s id call) ∧ ∀ id call, Watches s id call → call ∈ watched

/-- The task is not needed any longer: its call is not watched, or a later task does it. -/
def Dispensable (watched : List Str) (s : Tasks) (id : Nat) : Prop :=
  ∃ call aborted, s.view id = some (call, aborted) ∧
    (call ∉ watched ∨ ∃ later, id < later ∧ Watches s later call)

/-- What the task of the modem may call for after what has happened. -/
def Allowed (l : Ledger) (s : Tasks) : Call → Prop
  | .connect => l.up = none ∧ l.linked = false ∧ Watching [] s
  | .elapsed since => l.up = none ∧ l.linked = true ∧ l.since = some since
  | .sleep ms =>
    l.up = none ∧ Watching [] s ∧
      (l.linked = false ∧ ms = l.backoff ∨ l.linked = true ∧ (ms = 3000 ∨ ms = 2000 ∧
        ∃ t, l.began = some t ∧ l.clock ≤ t + 120000))
  | .send (.up path) =>
    l.up = none ∧ Watching [] s ∧ l.found = some path ∧ ∃ st, l.state = some st ∧ ModemState.enabled ≤ st
  | .send (.down _) => (l.up.isSome = true → l.ending = true) ∧ Watching [] s
  | .send e => l.up.isSome = true ∧ l.ending = false ∧ l.owed.head? = some e ∧ Watching l.watched s
  | .enable path =>
    l.up = none ∧ enable = true ∧ l.found = some path ∧ l.state = some ModemState.disabled
  | .modemState path => l.up = some path ∧ l.ending = false ∨ l.up = none ∧ l.found = some path
  | .subscribe _ path => l.up = some path ∧ l.ending = false
  | .listCalls path => l.up = some path ∧ l.ending = false ∧ Watching [] s
  | .listSms path => l.up = some path ∧ l.ending = false ∧ l.owed = [] ∧ Watching l.watched s
  | .select _ => l.up.isSome = true ∧ l.ending = false ∧ l.owed = [] ∧ Watching l.watched s
  | .callProxy call =>
    l.up.isSome = true ∧ l.ending = false ∧ l.owed.head? = some (.callAdded call) ∧ Watching l.watched s
  | .spawn call => l.up.isSome = true ∧ l.ending = false ∧ l.owed.head? = some (.callAdded call)
  | .abort id => Dispensable l.watched s id
  | .now => True
  | .objectManager => l.up = none ∧ l.linked = true
  | .dbusProxy => True
  | .receiveNameOwnerChanged => True
  | _ => l.up = none ∧ l.linked = true ∧ Watching [] s

def Conforms (l : Ledger) (s : Tasks) (c : Call) : Prop := Heard l.up.isSome s ∧ Allowed enable l s c

/-! ## What the other tasks leave as it is -/

section Others

variable {s s' : Tasks} {up : Bool}

/-- What the task of a call says is about the call. -/
theorem hear_wake {stage stage' : Stage} {path : Str} {w : CallWake} {e : ModemEvent}
    (h : stage.wake path w = (stage', some e)) (id : Nat) {b aborted : Bool}
    (hb : aborted = false → b = true) : hear (some b) (.callTask id aborted, e) = some b := by
  have hkind : (∃ old new reason, e = .callState path old new reason) ∨ ∃ digit, e = .dtmf path digit := by
    unfold Stage.wake at h
    split at h <;> simp only [Prod.mk.injEq, reduceCtorEq, and_false, Option.some.injEq] at h
    · exact .inl ⟨_, _, _, h.2.symm⟩
    · exact .inr ⟨_, h.2.symm⟩
  cases aborted with
  | true => rcases hkind with ⟨_, _, _, rfl⟩ | ⟨_, rfl⟩ <;> cases b <;> rfl
  | false =>
      obtain rfl := hb rfl
      rcases hkind with ⟨_, _, _, rfl⟩ | ⟨_, rfl⟩ <;> rfl

theorem view_setStage {id : Nat} {task : CallTask} (h : s.calls[id]? = some task) (stage : Stage) :
    (s.setStage id task stage).view = s.view := by
  obtain ⟨hlt, -⟩ := List.getElem?_eq_some_iff.mp h
  funext j
  unfold Tasks.view Tasks.setStage
  by_cases hj : id = j
  · subst hj
    rw [List.getElem?_set_self hlt, h]
    rfl
  · rw [List.getElem?_set_ne hj]

@[simp] theorem view_send (s : Tasks) (who : Sender) (e : ModemEvent) : (s.send who e).view = s.view := by
  unfold Tasks.send
  split
  · rfl
  · rfl

theorem Others.view (h : Others s s') : s'.view = s.view := by
  cases h with
  | close => rfl
  | cancelled h _ => exact view_setStage h _
  | goOn h w =>
      unfold Tasks.goOn
      split
      · exact view_setStage h _
      · rw [view_send, view_setStage h]

/-- A message that is in order where the run is. -/
theorem Heard.send {who : Sender} {e : ModemEvent} {up' : Bool} (h : Heard up s)
    (he : hear (some up) (who, e) = some up') : Heard up' (s.send who e) := by
  obtain ⟨b, hb, hclosed⟩ := h
  unfold Tasks.send
  split
  · rename_i hc
    exact ⟨b, hb, fun h ↦ absurd (hc.symm.trans h) (by decide)⟩
  · rename_i hc
    refine ⟨up', ?_, fun _ ↦ rfl⟩
    obtain rfl := hclosed (Bool.eq_false_iff.mpr hc)
    rw [List.foldl_append, hb]
    exact he

theorem Heard.of_closed (h : Heard up s) (hclosed : s.closed = true) (up' : Bool) : Heard up' s := by
  obtain ⟨b, hb, -⟩ := h
  exact ⟨b, hb, fun h ↦ absurd (hclosed.symm.trans h) (by decide)⟩

theorem Others.heard (h : Others s s') (hlive : ∀ id call, Watches s id call → up = true)
    (hheard : Heard up s) : Heard up s' := by
  cases h with
  | close =>
      obtain ⟨b, hb, -⟩ := hheard
      exact ⟨b, hb, nofun⟩
  | cancelled h _ => exact hheard
  | @goOn id task h w =>
      have hsame (stage : Stage) : Heard up (s.setStage id task stage) := hheard
      unfold Tasks.goOn
      split
      · exact hsame _
      · rename_i stage e hwake
        refine (hsame stage).send (hear_wake hwake id ?_)
        intro haborted
        refine hlive id task.path ?_
        rw [Watches, Tasks.view, h, Option.map_some, haborted]

end Others

/-! ## The tasks of the calls -/

/-- The tasks of the map are those that run; or they are due to be aborted. -/
structure Inv (m : Map Str Nat) (due : List Nat) (up : Bool) (watched : List Str) (s : Tasks) : Prop where
  heard : Heard up s
  held : ∀ id call, Watches s id call → m.get? call = some id ∨ id ∈ due
  named : ∀ call id, m.get? call = some id → Watches s id call
  stale : ∀ id ∈ due, ∃ call aborted, s.view id = some (call, aborted) ∧
    ∀ later, m.get? call = some later → id < later
  watched : ∀ call, call ∈ watched ↔ (m.get? call).isSome = true
  down : up = false → m = Map.empty ∧ due = []

namespace Inv

variable {m : Map Str Nat} {due : List Nat} {up : Bool} {watched : List Str} {s s' : Tasks} {call : Str}
  {id : Nat}

theorem up_of_watches (h : Inv m due up watched s) (hw : Watches s id call) : up = true := by
  by_contra hdown
  obtain ⟨rfl, rfl⟩ := h.down (Bool.eq_false_iff.mpr hdown)
  rcases h.held id call hw with hget | hmem
  · rw [Map.get?_empty] at hget
    cases hget
  · cases hmem

/-- Nothing but the tasks matters, and what was heard. -/
theorem of_view (h : Inv m due up watched s) {up' : Bool} (hview : s'.view = s.view) (hheard : Heard up' s')
    (hup : up' = false → m = Map.empty ∧ due = []) : Inv m due up' watched s' where
  heard := hheard
  held id call hw := h.held id call (by rwa [Watches, hview] at hw)
  named call id hget := by
    have hw := h.named call id hget
    rwa [Watches, ← hview] at hw
  stale := by
    intro id hid
    rw [hview]
    exact h.stale id hid
  watched := h.watched
  down := hup

theorem others (h : Inv m due up watched s) (hrun : Relation.ReflTransGen Others s s') :
    Inv m due up watched s' := by
  induction hrun with
  | refl => exact h
  | tail _ hstep ih =>
      exact ih.of_view hstep.view (hstep.heard (fun _ _ ↦ ih.up_of_watches) ih.heard) ih.down

theorem watching (h : Inv m [] up watched s) : Watching watched s := by
  constructor
  · intro call hcall
    obtain ⟨id, hget⟩ := Option.isSome_iff_exists.mp ((h.watched call).mp hcall)
    refine ⟨id, h.named call id hget, ?_⟩
    intro other hother
    rcases h.held other call hother with hget' | hmem
    · exact Option.some.inj (hget'.symm.trans hget)
    · cases hmem
  · intro id call hw
    rcases h.held id call hw with hget | hmem
    · exact (h.watched call).mpr (Option.isSome_of_mem hget)
    · cases hmem

theorem dispensable (h : Inv m (id :: due) up watched s) : Dispensable watched s id := by
  obtain ⟨call, aborted, hview, hlater⟩ := h.stale id List.mem_cons_self
  refine ⟨call, aborted, hview, ?_⟩
  cases hget : m.get? call with
  | none =>
      left
      rw [h.watched, hget]
      exact Bool.false_ne_true
  | some later => exact .inr ⟨later, hlater later hget, h.named call later hget⟩

/-- A task that is due is not the one of its call. -/
theorem not_named (h : Inv m (id :: due) up watched s) (hget : m.get? call = some id) : False := by
  obtain ⟨call', aborted, hview, hlater⟩ := h.stale id List.mem_cons_self
  obtain ⟨rfl, -⟩ := Prod.mk.inj (Option.some.inj (hview.symm.trans (h.named call id hget)))
  exact lt_irrefl id (hlater id hget)

theorem view_abort (s : Tasks) (id j : Nat) :
    (s.abort id).view j = if id = j then (s.view j).map fun p ↦ (p.1, true) else s.view j := by
  unfold Tasks.view Tasks.abort
  rw [List.getElem?_modify]
  split
  · cases s.calls[j]? with
    | none => rfl
    | some task => rfl
  · cases s.calls[j]? with
    | none => rfl
    | some task => rfl

theorem abort (h : Inv m (id :: due) up watched s) (hup : up = true) : Inv m due up watched (s.abort id) where
  heard := h.heard
  held other call hw := by
    rw [Watches, view_abort] at hw
    split at hw
    · cases hother : s.view other with
      | none => rw [hother] at hw; cases hw
      | some p => rw [hother] at hw; cases hw
    · rename_i hne
      rcases h.held other call hw with hget | hmem
      · exact .inl hget
      · rcases List.mem_cons.mp hmem with heq | htail
        · exact absurd heq.symm hne
        · exact .inr htail
  named call other hget := by
    have hne : id ≠ other := by
      rintro rfl
      exact h.not_named hget
    rw [Watches, view_abort, if_neg hne]
    exact h.named call other hget
  stale := by
    intro other hother
    obtain ⟨call, aborted, hview, hlater⟩ := h.stale other (List.mem_cons_of_mem id hother)
    rw [view_abort]
    split
    · exact ⟨call, true, by rw [hview]; rfl, hlater⟩
    · exact ⟨call, aborted, hview, hlater⟩
  watched := h.watched
  down hdown := absurd (hup.symm.trans hdown) (by decide)

theorem view_spawn (s : Tasks) (call : Str) (j : Nat) :
    ({ s with calls := s.calls ++ [{ path := call }] } : Tasks).view j =
      if j = s.calls.length then some (call, false) else s.view j := by
  unfold Tasks.view
  split
  · rename_i hj
    subst hj
    rw [List.getElem?_concat_length]
    rfl
  · rename_i hne
    rcases Nat.lt_or_gt_of_ne hne with hlt | hgt
    · rw [List.getElem?_append_left hlt]
    · rw [List.getElem?_eq_none (by simp; omega), List.getElem?_eq_none hgt.le]

/-- The task that was there is due then. -/
theorem spawn (h : Inv m [] true watched s) (call : Str) :
    Inv (m.insert call s.calls.length) (m.get? call).toList true (call :: watched)
      { s with calls := s.calls ++ [{ path := call }] } where
  heard := h.heard
  held id call' hw := by
    rw [Watches, view_spawn] at hw
    rw [Map.get?_insert]
    split at hw
    · rename_i hid
      obtain ⟨rfl, -⟩ := Prod.mk.inj (Option.some.inj hw)
      left
      rw [if_pos rfl, hid]
    · have hget := (h.held id call' hw).resolve_right (List.not_mem_nil)
      by_cases hcall : call' = call
      · subst hcall
        exact .inr (Option.mem_toList.mpr hget)
      · rw [if_neg hcall]
        exact .inl hget
  named call' id hget := by
    rw [Watches, view_spawn]
    rw [Map.get?_insert] at hget
    split at hget
    · rename_i hcall
      rw [if_pos (Option.some.inj hget).symm, hcall]
    · have hw := h.named call' id hget
      rw [if_neg ?_]
      · exact hw
      · rintro rfl
        rw [Watches, Tasks.view, List.getElem?_eq_none le_rfl] at hw
        cases hw
  stale := by
    intro id hid
    have hw := h.named call id (Option.mem_toList.mp hid)
    have hlt : id < s.calls.length := by
      by_contra hge
      rw [Watches, Tasks.view, List.getElem?_eq_none (not_lt.mp hge)] at hw
      cases hw
    refine ⟨call, false, ?_, ?_⟩
    · rw [view_spawn, if_neg hlt.ne]
      exact hw
    · intro later hlater
      rw [Map.get?_insert_self] at hlater
      exact hlt.trans_eq (Option.some.inj hlater)
  watched call' := by
    rw [List.mem_cons, Map.get?_insert, h.watched]
    split
    · rename_i hcall
      exact iff_of_true (.inl hcall) rfl
    · rename_i hcall
      exact or_iff_right hcall
  down := nofun

/-- A call is gone. -/
theorem erase (h : Inv m [] true watched s) (call : Str) :
    Inv (m.erase call) (m.get? call).toList true (watched.filter (· ≠ call)) s where
  heard := h.heard
  held id call' hw := by
    have hget := (h.held id call' hw).resolve_right (List.not_mem_nil)
    rw [Map.get?_erase]
    split
    · rename_i hcall
      subst hcall
      exact .inr (Option.mem_toList.mpr hget)
    · exact .inl hget
  named call' id hget := by
    rw [Map.get?_erase] at hget
    split at hget
    · cases hget
    · exact h.named call' id hget
  stale := by
    intro id hid
    refine ⟨call, false, h.named call id (Option.mem_toList.mp hid), ?_⟩
    intro later hlater
    rw [Map.get?_erase, if_pos rfl] at hlater
    cases hlater
  watched call' := by
    rw [List.mem_filter, decide_eq_true_eq, Map.get?_erase, h.watched]
    split
    · rename_i hcall
      exact iff_of_false (fun hmem ↦ hmem.2 hcall) Bool.false_ne_true
    · rename_i hcall
      exact and_iff_left hcall
  down := nofun

/-- The modem is gone, and all its calls with it. -/
theorem leave (h : Inv m [] true watched s) : Inv Map.empty m.values true [] s where
  heard := h.heard
  held id call hw :=
    .inr ((m.mem_values_iff id).mpr ⟨call, (h.held id call hw).resolve_right (List.not_mem_nil)⟩)
  named call id hget := by
    rw [Map.get?_empty] at hget
    cases hget
  stale := by
    intro id hid
    obtain ⟨call, hget⟩ := (m.mem_values_iff id).mp hid
    refine ⟨call, false, h.named call id hget, ?_⟩
    intro later hlater
    rw [Map.get?_empty] at hlater
    cases hlater
  watched call := by
    rw [Map.get?_empty]
    exact iff_of_false (List.not_mem_nil) Bool.false_ne_true
  down := nofun

end Inv

/-! ## One call after the other -/

/-- From here on the task calls for what it may. -/
abbrev Sound {α : Type} (p : Task α) (l : Ledger) (s : Tasks) : Prop :=
  p.Obeys world (Ledger.record sel) (Conforms enable) l s

/-- There is a connection. -/
structure Linked (link : Link) (l : Ledger) : Prop where
  linked : l.linked = true
  backoff : l.backoff = link.backoff
  since : l.since = some link.connectedAt

/-- There is no modem. -/
structure Idle (l : Ledger) (s : Tasks) : Prop where
  inv : Inv Map.empty [] false [] s
  up : l.up = none
  ending : l.ending = false
  watched : l.watched = []

/-- There is one. -/
structure On (path : Str) (m : Map Str Nat) (l : Ledger) (s : Tasks) : Prop where
  inv : Inv m [] true l.watched s
  up : l.up = some path
  ending : l.ending = false

/-- It is lost, and some tasks have still to be aborted. -/
structure Leaving (due : List Nat) (l : Ledger) (s : Tasks) : Prop where
  inv : Inv Map.empty due true [] s
  up : l.up.isSome = true
  ending : l.ending = true
  watched : l.watched = []

/-- What holds at the heads of the loops. -/
def At : Main → Ledger → Tasks → Prop
  | .connecting backoff, l, s => Idle l s ∧ l.linked = false ∧ l.backoff = backoff
  | .discovering link, l, s => Idle l s ∧ Linked link l
  | .waiting link, l, s => Idle l s ∧ Linked link l
  | .activating link path deadline, l, s =>
    Idle l s ∧ Linked link l ∧ l.found = some path ∧ ∃ t, l.began = some t ∧ deadline = t + 120000
  | .supervising link path _ m, l, s => On path m l s ∧ Linked link l ∧ l.owed = []

theorem Idle.not_isSome {l : Ledger} {s : Tasks} (h : Idle l s) : l.up.isSome = false := by
  rw [h.up]
  rfl

section Steps

variable {sel enable} {α : Type} {l : Ledger} {s : Tasks} {m : Map Str Nat} {due : List Nat} {up : Bool}
  {watched : List Str} {link : Link} {path : Str}

/-- A call that only the bus answers. -/
theorem Sound.quiet {c : Call} {k : c.Answer → Task α} (hquiet : ∀ s r s', Does s c r s' → s' = s)
    (hinv : Inv m due up watched s) (hup : l.up.isSome = up) (hok : Allowed enable l s c)
    (hk : ∀ r s', Inv m due up watched s' → Sound sel enable (k r) (l.record sel ⟨c, r⟩) s') :
    Sound sel enable (.call c k) l s := by
  refine .call ⟨hup ▸ hinv.heard, hok⟩ ?_
  rintro r s' ⟨s₁, s₂, hbefore, hdoes, hafter⟩
  obtain rfl := hquiet s₁ r s₂ hdoes
  exact hk r s' (hinv.others (hbefore.trans hafter))

theorem Sound.send {e : ModemEvent} {k : Bool → Task α} (hinv : Inv m [] up watched s)
    (hup : l.up.isSome = up) (hok : Allowed enable l s (.send e)) (up' : Bool → Bool)
    (hhear : hear (some up) (.main, e) = some (up' true)) (hdown : ∀ b, up' b = false → m = Map.empty)
    (hk : ∀ delivered s', Inv m [] (up' delivered) watched s' →
      Sound sel enable (k delivered) (l.record sel ⟨.send e, delivered⟩) s') :
    Sound sel enable (.call (.send e) k) l s := by
  refine .call ⟨hup ▸ hinv.heard, hok⟩ ?_
  rintro delivered s' ⟨s₁, s₂, hbefore, ⟨rfl, rfl⟩, hafter⟩
  have hinv₁ := hinv.others hbefore
  refine hk _ s' (Inv.others (hinv₁.of_view (view_send s₁ _ _) ?_ ?_) hafter)
  · cases hclosed : s₁.closed with
    | false => exact hinv₁.heard.send hhear
    | true =>
        rw [Tasks.send, if_pos hclosed]
        exact hinv₁.heard.of_closed hclosed _
  · exact fun h ↦ ⟨hdown _ h, rfl⟩

theorem Sound.spawn {call : Str} {k : Nat → Task α} (hinv : Inv m [] true watched s)
    (hup : l.up.isSome = true) (hok : Allowed enable l s (.spawn call))
    (hk : ∀ id s', Inv (m.insert call id) (m.get? call).toList true (call :: watched) s' →
      Sound sel enable (k id) l s') :
    Sound sel enable (.call (.spawn call) k) l s := by
  refine .call ⟨hup ▸ hinv.heard, hok⟩ ?_
  rintro id s' ⟨s₁, s₂, hbefore, ⟨rfl, rfl⟩, hafter⟩
  exact hk _ s' (((hinv.others hbefore).spawn call).others hafter)

theorem Sound.abort {id : Nat} {k : Unit → Task α} (hinv : Inv m (id :: due) true watched s)
    (hup : l.up.isSome = true) (hwatched : l.watched = watched)
    (hk : ∀ s', Inv m due true watched s' → Sound sel enable (k ()) l s') :
    Sound sel enable (.call (.abort id) k) l s := by
  subst hwatched
  refine .call ⟨hup ▸ hinv.heard, hinv.dispensable⟩ ?_
  rintro ⟨⟩ s' ⟨s₁, s₂, hbefore, rfl, hafter⟩
  exact hk s' (((hinv.others hbefore).abort rfl).others hafter)

/-! ### Up to the next head of a loop -/

variable {g : Main → Task Unit}

theorem sound_pause (hg : ∀ main l s, At main l s → Sound sel enable (g main) l s) {backoff : Nat}
    (h : Idle l s) (hlinked : l.linked = false) (hbackoff : l.backoff = backoff) :
    Sound sel enable ((pause backoff).bind g) l s := by
  refine .quiet (fun _ _ _ h ↦ h) h.inv h.not_isSome
    ⟨h.up, h.inv.watching, .inl ⟨hlinked, hbackoff.symm⟩⟩ ?_
  intro r s' hinv
  refine hg (.connecting _) _ s' ?_
  have hrecord : l.record sel ⟨.sleep backoff, r⟩ = { l with backoff := min (l.backoff * 2) 30000 } :=
    if_neg (by rw [hlinked]; exact Bool.false_ne_true)
  rw [hrecord]
  exact ⟨⟨hinv, h.up, h.ending, h.watched⟩, hlinked, by rw [hbackoff]⟩

theorem sound_sessionEnded (hg : ∀ main l s, At main l s → Sound sel enable (g main) l s)
    (h : Idle l s) (hlink : Linked link l) : Sound sel enable ((sessionEnded link).bind g) l s := by
  refine .send h.inv h.not_isSome ⟨by rw [h.up]; nofun, h.inv.watching⟩
    (fun _ ↦ false) rfl (fun _ _ ↦ rfl) ?_
  intro _ s₁ hinv₁
  refine .quiet (fun _ _ _ h ↦ h) hinv₁ rfl ⟨rfl, hlink.linked, hlink.since⟩ ?_
  intro ms s₂ hinv₂
  exact sound_pause hg ⟨hinv₂, rfl, rfl, rfl⟩ rfl (by rw [← hlink.backoff]; rfl)

theorem sound_activationFailed (hg : ∀ main l s, At main l s → Sound sel enable (g main) l s)
    (h : Idle l s) (hlink : Linked link l) : Sound sel enable ((activationFailed link).bind g) l s := by
  refine .quiet (fun _ _ _ h ↦ h) h.inv h.not_isSome
    ⟨h.up, h.inv.watching, .inr ⟨hlink.linked, .inl rfl⟩⟩ ?_
  intro r s' hinv
  have hrecord : l.record sel ⟨.sleep 3000, r⟩ = l := if_pos hlink.linked
  rw [hrecord]
  exact hg (.discovering link) l s' ⟨⟨hinv, h.up, h.ending, h.watched⟩, hlink⟩

theorem sound_leave (hg : ∀ main l s, At main l s → Sound sel enable (g main) l s) (reason : Str)
    (h : Leaving due l s) (hlink : Linked link l) :
    Sound sel enable ((leave link reason due).bind g) l s := by
  induction due generalizing s with
  | nil =>
      refine .send h.inv h.up ⟨fun _ ↦ h.ending, h.inv.watching⟩ (fun _ ↦ false) rfl
        (fun _ _ ↦ rfl) ?_
      intro delivered s' hinv
      have hidle : Idle (l.record sel ⟨.send (.down reason), delivered⟩) s' := ⟨hinv, rfl, rfl, rfl⟩
      have hlink' : Linked link (l.record sel ⟨.send (.down reason), delivered⟩) :=
        ⟨hlink.linked, hlink.backoff, hlink.since⟩
      cases delivered with
      | true => exact hg (.discovering link) _ s' ⟨hidle, hlink'⟩
      | false => exact sound_sessionEnded hg hidle hlink'
  | cons id ids ih =>
      refine .abort h.inv h.up h.watched ?_
      intro s' hinv
      exact ih ⟨hinv, h.up, h.ending, h.watched⟩

/-- The modem is lost. -/
theorem On.ended (h : On path m l s) : Leaving m.values l.ended s where
  inv := h.inv.leave
  up := by
    change l.up.isSome = true
    rw [h.up]
    rfl
  ending := rfl
  watched := rfl

theorem On.isSome (h : On path m l s) : l.up.isSome = true := by
  rw [h.up]
  rfl

theorem Linked.ended (h : Linked link l) : Linked link l.ended := ⟨h.linked, h.backoff, h.since⟩

theorem sound_spawnCallWatch {call : Str} {k : Map Str Nat → Task Main} (h : On path m l s)
    (hlink : Linked link l) (howed : l.owed.head? = some (.callAdded call))
    (hk : ∀ m' l' s', On path m' l' s' → Linked link l' → l'.owed = l.owed →
      Sound sel enable ((k m').bind g) l' s') :
    Sound sel enable ((spawnCallWatch call m k).bind g) l s := by
  refine .quiet (fun _ _ _ h ↦ h) h.inv h.isSome ⟨h.isSome, h.ending, howed, h.inv.watching⟩ ?_
  rintro (e | ⟨⟩) s' hinv
  · exact hk m l s' ⟨hinv, h.up, h.ending⟩ hlink rfl
  · refine .spawn hinv h.isSome ⟨h.isSome, h.ending, howed⟩ ?_
    intro id s₁ hinv₁
    have hend (s₂ : Tasks) (hinv₂ : Inv (m.insert call id) [] true (call :: l.watched) s₂) :
        Sound sel enable ((k (m.insert call id)).bind g) (l.record sel ⟨.callProxy call, .ok ()⟩) s₂ :=
      hk _ _ s₂ ⟨hinv₂, h.up, h.ending⟩ ⟨hlink.linked, hlink.backoff, hlink.since⟩ rfl
    dsimp only
    cases hget : m.get? call with
    | none =>
        rw [hget] at hinv₁
        exact hend s₁ hinv₁
    | some previous =>
        rw [hget] at hinv₁
        exact .abort hinv₁ h.isSome rfl hend

/-- The gateway is told of something about the modem that it was told of. -/
theorem Sound.report {e : ModemEvent} {rest : List ModemEvent} {k : Bool → Task α} (h : On path m l s)
    (howed : l.owed = e :: rest) (hok : Allowed enable l s (.send e) ↔ l.up.isSome = true ∧
      l.ending = false ∧ l.owed.head? = some e ∧ Watching l.watched s)
    (hhear : hear (some true) (.main, e) = some true)
    (hk : ∀ delivered s', On path m { l with owed := rest } s' →
      Sound sel enable (k delivered) { l with owed := rest } s')
    (hrecord : ∀ delivered, l.record sel ⟨.send e, delivered⟩ = { l with owed := l.owed.tail }) :
    Sound sel enable (.call (.send e) k) l s := by
  refine .send h.inv h.isSome (hok.mpr ⟨h.isSome, h.ending, by rw [howed]; rfl, h.inv.watching⟩)
    (fun _ ↦ true) hhear nofun ?_
  intro delivered s' hinv
  rw [hrecord, howed]
  exact hk delivered s' ⟨hinv, h.up, h.ending⟩

theorem sound_adoptCalls {k : Map Str Nat → Task Main} (cs : List Str) (h : On path m l s)
    (hlink : Linked link l) (howed : l.owed = cs.map .callAdded)
    (hk : ∀ m' l' s', On path m' l' s' → Linked link l' → l'.owed = [] →
      Sound sel enable ((k m').bind g) l' s') :
    Sound sel enable ((adoptCalls k cs m).bind g) l s := by
  induction cs generalizing m l s with
  | nil => exact hk m l s h hlink howed
  | cons c cs ih =>
      refine sound_spawnCallWatch h hlink (by rw [howed]; rfl) ?_
      intro m' l' s' h' hlink' howed'
      refine .report h' (howed'.trans howed) Iff.rfl rfl ?_ (fun _ ↦ rfl)
      intro _ s₁ h₁
      exact ih h₁ ⟨hlink'.linked, hlink'.backoff, hlink'.since⟩ rfl

theorem sound_adoptSms {k : Task Main} (ms : List Str) (h : On path m l s) (hlink : Linked link l)
    (howed : l.owed = ms.map (.smsAdded · false))
    (hk : ∀ l' s', On path m l' s' → Linked link l' → l'.owed = [] → Sound sel enable (k.bind g) l' s') :
    Sound sel enable ((adoptSms k ms).bind g) l s := by
  induction ms generalizing l s with
  | nil => exact hk l s h hlink howed
  | cons message ms ih =>
      refine .report h howed Iff.rfl rfl ?_ (fun _ ↦ rfl)
      intro _ s₁ h₁
      exact ih h₁ ⟨hlink.linked, hlink.backoff, hlink.since⟩ rfl

theorem sound_adopt (hg : ∀ main l s, At main l s → Sound sel enable (g main) l s) (names : Bool)
    (h : On path Map.empty l s) (hwatched : l.watched = []) (hlink : Linked link l) :
    Sound sel enable ((adopt link path names).bind g) l s := by
  refine .quiet (fun _ _ _ h ↦ h) h.inv h.isSome ⟨h.up, h.ending, hwatched ▸ h.inv.watching⟩ ?_
  intro calls s₁ hinv₁
  refine sound_adoptCalls _ ⟨hinv₁, h.up, h.ending⟩ ⟨hlink.linked, hlink.backoff, hlink.since⟩ rfl ?_
  intro m' l' s' h' hlink' howed'
  refine .quiet (fun _ _ _ h ↦ h) h'.inv h'.isSome ⟨h'.up, h'.ending, howed', h'.inv.watching⟩ ?_
  intro messages s₂ hinv₂
  refine sound_adoptSms _ ⟨hinv₂, h'.up, h'.ending⟩ ⟨hlink'.linked, hlink'.backoff, hlink'.since⟩ rfl ?_
  exact fun l₃ s₃ h₃ hlink₃ howed₃ ↦ hg (.supervising link path names m') l₃ s₃ ⟨h₃, hlink₃, howed₃⟩

/-- There is a modem, and none of its calls is watched yet. -/
structure Fresh (link : Link) (path : Str) (l : Ledger) (s : Tasks) : Prop where
  on : On path Map.empty l s
  watched : l.watched = []
  linked : Linked link l

theorem sound_subscribe (hg : ∀ main l s, At main l s → Sound sel enable (g main) l s) (stream : Stream)
    {k : Task Main} (h : Fresh link path l s)
    (hk : ∀ s', Fresh link path l s' → Sound sel enable (k.bind g) l s') :
    Sound sel enable ((subscribe link path stream k).bind g) l s := by
  refine .quiet (fun _ _ _ h ↦ h) h.on.inv h.on.isSome ⟨h.on.up, h.on.ending⟩ ?_
  have hon (s' : Tasks) (hinv : Inv Map.empty [] true l.watched s') : On path Map.empty l s' :=
    ⟨hinv, h.on.up, h.on.ending⟩
  rintro (e | ⟨⟩) s' hinv
  · exact sound_leave hg _ (hon s' hinv).ended h.linked.ended
  · exact hk s' ⟨hon s' hinv, h.watched, h.linked⟩

theorem sound_subscribeModem (hg : ∀ main l s, At main l s → Sound sel enable (g main) l s)
    (names : Bool) (h : Fresh link path l s) :
    Sound sel enable ((subscribeModem link path names).bind g) l s := by
  refine sound_subscribe hg .stateChanged h fun s₁ h₁ ↦ ?_
  refine sound_subscribe hg .callAdded h₁ fun s₂ h₂ ↦ ?_
  refine sound_subscribe hg .callDeleted h₂ fun s₃ h₃ ↦ ?_
  refine sound_subscribe hg .smsAdded h₃ fun s₄ h₄ ↦ ?_
  exact sound_adopt hg names h₄.on h₄.watched h₄.linked

theorem sound_supervise (hg : ∀ main l s, At main l s → Sound sel enable (g main) l s)
    (h : Fresh link path l s) : Sound sel enable ((supervise link path).bind g) l s := by
  refine sound_subscribe hg .interfacesRemoved h fun s₁ h₁ ↦ ?_
  have hfresh (s' : Tasks) (hinv : Inv Map.empty [] true l.watched s') : Fresh link path l s' :=
    ⟨⟨hinv, h.on.up, h.on.ending⟩, h.watched, h.linked⟩
  refine .quiet (fun _ _ _ h ↦ h) h₁.on.inv h.on.isSome trivial ?_
  rintro (e | ⟨⟩) s₂ hinv₂
  · exact sound_subscribeModem hg false (hfresh s₂ hinv₂)
  · refine .quiet (fun _ _ _ h ↦ h) hinv₂ h.on.isSome trivial ?_
    intro r s₃ hinv₃
    exact sound_subscribeModem hg r.isOk (hfresh s₃ hinv₃)

/-! ### Bringing a modem up -/

/-- A modem was found. -/
structure Found (link : Link) (path : Str) (l : Ledger) (s : Tasks) : Prop where
  idle : Idle l s
  linked : Linked link l
  found : l.found = some path

theorem Found.failed (hg : ∀ main l s, At main l s → Sound sel enable (g main) l s)
    (h : Found link path l s) : Sound sel enable ((activationFailed link).bind g) l s :=
  sound_activationFailed hg h.idle h.linked

theorem Idle.asked (h : Idle l s) (state : Option Int) : l.asked state = { l with state } := by
  refine if_neg ?_
  rintro ⟨hup, -⟩
  change l.up.isSome = true at hup
  rw [h.up] at hup
  cases hup

theorem Found.asked (h : Found link path l s) (state : Option Int) : Found link path (l.asked state) s := by
  rw [h.idle.asked]
  exact ⟨⟨h.idle.inv, h.idle.up, h.idle.ending, h.idle.watched⟩,
    ⟨h.linked.linked, h.linked.backoff, h.linked.since⟩, h.found⟩

/-- A call about a modem that was found. -/
theorem Sound.ofFound {c : Call} {k : c.Answer → Task α} (h : Found link path l s)
    (hquiet : ∀ s r s', Does s c r s' → s' = s)
    (hok : l.up = none → l.linked = true → l.found = some path → Watching [] s → Allowed enable l s c)
    (hk : ∀ r s', Found link path l s' → Sound sel enable (k r) (l.record sel ⟨c, r⟩) s') :
    Sound sel enable (.call c k) l s := by
  refine .quiet hquiet h.idle.inv h.idle.not_isSome
    (hok h.idle.up h.linked.linked h.found h.idle.inv.watching) ?_
  exact fun r s' hinv ↦ hk r s' ⟨⟨hinv, h.idle.up, h.idle.ending, h.idle.watched⟩, h.linked, h.found⟩

theorem sound_again (hg : ∀ main l s, At main l s → Sound sel enable (g main) l s) {began deadline : Nat}
    (h : Found link path l s) (hbegan : l.began = some began) (hdeadline : deadline = began + 120000) :
    Sound sel enable (Prog.bind (.call .now fun t ↦
      if deadline < t then .call (.modemState path) fun _ ↦ activationFailed link
      else .call (.sleep 2000) fun _ ↦ .done (.activating link path deadline)) g) l s := by
  refine .ofFound h (fun _ _ _ h ↦ h) (fun _ _ _ _ ↦ trivial) ?_
  intro t s₁ h₁
  have hlink : Linked link (l.record sel ⟨.now, t⟩) :=
    ⟨h.linked.linked, h.linked.backoff, by
      change (l.since <|> some t) = _
      rw [h.linked.since]
      rfl⟩
  have hbegan' : (l.record sel ⟨.now, t⟩).began = some began := by
    change (l.began <|> some t) = _
    rw [hbegan]
    rfl
  have h' : Found link path (l.record sel ⟨.now, t⟩) s₁ :=
    ⟨⟨h₁.idle.inv, h₁.idle.up, h₁.idle.ending, h₁.idle.watched⟩, hlink, h.found⟩
  dsimp only
  split
  · refine .ofFound h' (fun _ _ _ h ↦ h) (fun hup _ hfound _ ↦ .inr ⟨hup, hfound⟩) ?_
    exact fun r s₂ h₂ ↦ (h₂.asked r.toOption).failed hg
  · rename_i hle
    refine .ofFound h' (fun _ _ _ h ↦ h) (fun hup hlinked _ hw ↦ ⟨hup, hw, .inr ⟨hlinked, .inr ⟨rfl,
      began, hbegan', hdeadline ▸ not_lt.mp hle⟩⟩⟩) ?_
    intro r s₂ h₂
    refine hg (.activating link path deadline) _ s₂ ?_
    have hrecord : (l.record sel ⟨.now, t⟩).record sel ⟨.sleep 2000, r⟩ = l.record sel ⟨.now, t⟩ :=
      if_pos hlink.linked
    rw [hrecord]
    exact ⟨h₂.idle, hlink, h₂.found, began, hbegan', hdeadline⟩

theorem sound_activate (hg : ∀ main l s, At main l s → Sound sel enable (g main) l s)
    {began deadline : Nat} (h : Found link path l s) (hbegan : l.began = some began)
    (hdeadline : deadline = began + 120000) :
    Sound sel enable ((activate enable link path deadline).bind g) l s := by
  refine .ofFound h (fun _ _ _ h ↦ h) (fun hup _ hfound _ ↦ .inr ⟨hup, hfound⟩) ?_
  intro r s₁ h₁
  have h₁' := h₁.asked r.toOption
  have hbegan' : (l.asked r.toOption).began = some began := by
    rw [h₁.idle.asked]
    exact hbegan
  have hstate : (l.asked r.toOption).state = r.toOption := by
    rw [h₁.idle.asked]
  rcases r with e | state
  · exact h₁'.failed hg
  dsimp only
  split
  · rename_i henabled
    refine .ofFound h₁' (fun _ _ _ h ↦ h) (fun hup hlinked _ hw ↦ ⟨hup, hlinked, hw⟩) ?_
    rintro (e | ⟨⟩) s₂ h₂
    · exact h₂.failed hg
    refine .send h₂.idle.inv h₂.idle.not_isSome ⟨h₂.idle.up, h₂.idle.inv.watching, h₂.found, state,
      hstate, henabled⟩ id rfl (fun _ _ ↦ rfl) ?_
    intro delivered s₃ hinv₃
    cases delivered with
    | false =>
        exact sound_sessionEnded hg ⟨hinv₃, h₂.idle.up, h₂.idle.ending, h₂.idle.watched⟩ h₂.linked
    | true =>
        refine sound_supervise hg ⟨⟨?_, rfl, h₂.idle.ending⟩, h₂.idle.watched,
          ⟨h₂.linked.linked, h₂.linked.backoff, h₂.linked.since⟩⟩
        exact h₂.idle.watched.symm ▸ hinv₃
  split
  · refine .ofFound h₁' (fun _ _ _ h ↦ h) (fun hup hlinked _ hw ↦ ⟨hup, hlinked, hw⟩) ?_
    exact fun r s₂ h₂ ↦ h₂.failed hg
  split
  · exact h₁'.failed hg
  split
  · rename_i hdisabled
    refine .ofFound h₁' (fun _ _ _ h ↦ h) (fun hup _ hfound _ ↦ ⟨hup, hdisabled.2, hfound, ?_⟩) ?_
    · exact hstate.trans (congrArg some hdisabled.1)
    · exact fun r s₂ h₂ ↦ sound_again hg h₂ hbegan' hdeadline
  · exact sound_again hg h₁' hbegan' hdeadline

theorem sound_waitForModem (hg : ∀ main l s, At main l s → Sound sel enable (g main) l s)
    (h : Idle l s) (hlink : Linked link l) : Sound sel enable ((waitForModem sel link).bind g) l s := by
  refine .quiet (fun _ _ _ h ↦ h) h.inv h.not_isSome ⟨h.up, hlink.linked, h.inv.watching⟩ ?_
  rintro (e | objects) s₁ hinv₁
  · exact sound_sessionEnded hg ⟨hinv₁, h.up, h.ending, h.watched⟩ hlink
  have h₁ : Idle { l with found := findModem objects sel, state := none } s₁ :=
    ⟨hinv₁, h.up, h.ending, h.watched⟩
  have hlink₁ : Linked link { l with found := findModem objects sel, state := none } :=
    ⟨hlink.linked, hlink.backoff, hlink.since⟩
  dsimp only
  cases hfind : findModem objects sel with
  | none =>
      refine .quiet (fun _ _ _ h ↦ h) hinv₁ h₁.not_isSome ⟨h.up, hlink.linked, h₁.inv.watching⟩ ?_
      intro goesOn s₂ hinv₂
      have h₂ : Idle { l with found := findModem objects sel, state := none } s₂ :=
        ⟨hinv₂, h.up, h.ending, h.watched⟩
      cases goesOn with
      | false => exact sound_sessionEnded hg h₂ hlink₁
      | true => exact hg (.waiting link) _ s₂ ⟨h₂, hlink₁⟩
  | some path =>
      refine .ofFound ⟨h₁, hlink₁, hfind⟩ (fun _ _ _ h ↦ h) (fun hup hlinked _ hw ↦ ⟨hup, hlinked, hw⟩) ?_
      rintro (e | ⟨⟩) s₂ h₂
      · exact sound_activationFailed hg ⟨h₂.idle.inv, h.up, h.ending, h.watched⟩
          ⟨hlink.linked, hlink.backoff, hlink.since⟩
      refine .quiet (fun _ _ _ h ↦ h) h₂.idle.inv h₁.not_isSome trivial ?_
      intro t s₃ hinv₃
      refine hg (.activating link path (t + 120000)) _ s₃
        ⟨⟨hinv₃, h.up, h.ending, h.watched⟩, ⟨hlink.linked, hlink.backoff, ?_⟩, hfind, t, rfl, rfl⟩
      change (l.since <|> some t) = _
      rw [hlink.since]
      rfl

/-! ### While there is a modem -/

theorem On.wake_over (h : On path m l s) {w : Wake} {reason : Str} (hw : w.reason path = some reason) :
    l.wake w = l.ended := by
  unfold Ledger.wake
  rw [h.up, Option.getD_some, hw]

theorem On.wake_signalled (h : On path m l s) {w : Wake} (hw : w.reason path = none) :
    l.wake w = l.signalled w := by
  unfold Ledger.wake
  rw [h.up, Option.getD_some, hw]

/-- The modem is still there, as far as one can tell. -/
theorem asked_of_enabled {state : Int} (hstate : ¬ state < ModemState.enabled) :
    l.asked (some state) = { l with state := some state } := by
  refine if_neg ?_
  rintro ⟨-, hlow⟩
  exact hstate (of_decide_eq_true hlow)

theorem On.asked_over (h : On path m l s) (state : Option Int)
    (hstate : state.all (· < ModemState.enabled) = true) : l.asked state = ({ l with state } : Ledger).ended :=
  if_pos ⟨h.isSome, hstate⟩

theorem sound_health (hg : ∀ main l s, At main l s → Sound sel enable (g main) l s) (names : Bool)
    (h : On path m l s) (hlink : Linked link l) (howed : l.owed = []) :
    Sound sel enable ((health link path names m).bind g) l s := by
  refine .quiet (fun _ _ _ h ↦ h) h.inv h.isSome (.inl ⟨h.up, h.ending⟩) ?_
  intro r s₁ hinv₁
  have h₁ (state : Option Int) : On path m { l with state } s₁ := ⟨hinv₁, h.up, h.ending⟩
  have hlink₁ (state : Option Int) : Linked link { l with state } :=
    ⟨hlink.linked, hlink.backoff, hlink.since⟩
  rcases r with e | state
  · change Sound sel enable _ (l.asked none) s₁
    rw [h.asked_over none rfl]
    exact sound_leave hg _ (h₁ none).ended (hlink₁ none).ended
  change Sound sel enable _ (l.asked (some state)) s₁
  dsimp only
  split
  · rename_i hlow
    rw [h.asked_over (some state) (decide_eq_true hlow)]
    exact sound_leave hg _ (h₁ (some state)).ended (hlink₁ (some state)).ended
  · rename_i henabled
    rw [asked_of_enabled henabled]
    exact hg (.supervising link path names m) _ s₁ ⟨h₁ (some state), hlink₁ (some state), howed⟩

theorem sound_callAdded (hg : ∀ main l s, At main l s → Sound sel enable (g main) l s) (names : Bool)
    (call : Str) (h : On path m l s) (hlink : Linked link l) :
    Sound sel enable ((callAdded link path names m call).bind g)
      { l with owed := [.callAdded call] } s := by
  have h' : On path m { l with owed := [.callAdded call] } s := ⟨h.inv, h.up, h.ending⟩
  refine sound_spawnCallWatch h' ⟨hlink.linked, hlink.backoff, hlink.since⟩ rfl ?_
  intro m' l' s' hon hlink' howed'
  refine .report hon howed' Iff.rfl rfl ?_ (fun _ ↦ rfl)
  intro _ s₁ h₁
  exact hg (.supervising link path names m') _ s₁
    ⟨h₁, ⟨hlink'.linked, hlink'.backoff, hlink'.since⟩, rfl⟩

theorem sound_callDeleted (hg : ∀ main l s, At main l s → Sound sel enable (g main) l s) (names : Bool)
    (call : Str) (h : On path m l s) (hlink : Linked link l) :
    Sound sel enable ((callDeleted link path names m call).bind g)
      { l with owed := [.callDeleted call], watched := l.watched.filter (· ≠ call) } s := by
  have htold (s' : Tasks) (hinv : Inv (m.erase call) [] true (l.watched.filter (· ≠ call)) s') :
      Sound sel enable ((callDeletedTold link path names m call).bind g)
        { l with owed := [.callDeleted call], watched := l.watched.filter (· ≠ call) } s' := by
    have hon : On path (m.erase call)
        { l with owed := [.callDeleted call], watched := l.watched.filter (· ≠ call) } s' :=
      ⟨hinv, h.up, h.ending⟩
    refine .report hon rfl Iff.rfl rfl ?_ (fun _ ↦ rfl)
    intro _ s₁ h₁
    exact hg (.supervising link path names (m.erase call)) _ s₁
      ⟨h₁, ⟨hlink.linked, hlink.backoff, hlink.since⟩, rfl⟩
  have hinv := h.inv.erase call
  unfold callDeleted
  cases hget : m.get? call with
  | none =>
      rw [hget] at hinv
      exact htold s hinv
  | some id =>
      rw [hget] at hinv
      exact .abort hinv h.isSome rfl htold

theorem sound_handle (hg : ∀ main l s, At main l s → Sound sel enable (g main) l s) (names : Bool)
    (h : On path m l s) (hlink : Linked link l) (howed : l.owed = []) (w : Wake) :
    Sound sel enable ((handle link path names m w).bind g) (l.signalled w) s := by
  have hstay (names : Bool) : Sound sel enable (g (.supervising link path names m)) l s :=
    hg _ l s ⟨h, hlink, howed⟩
  cases w with
  | removed sig => exact hstay names
  | stateChanged sig => exact hstay names
  | callAdded sig =>
      cases sig with
      | closed => exact hstay names
      | unreadable => exact hstay names
      | args call => exact sound_callAdded hg names call h hlink
  | callDeleted sig =>
      cases sig with
      | closed => exact hstay names
      | unreadable => exact hstay names
      | args call => exact sound_callDeleted hg names call h hlink
  | smsAdded sig =>
      cases sig with
      | closed => exact hstay names
      | unreadable => exact hstay names
      | args message =>
          have h' : On path m (l.signalled (.smsAdded (.args message))) s := ⟨h.inv, h.up, h.ending⟩
          refine .report h' rfl Iff.rfl rfl ?_ (fun _ ↦ rfl)
          intro _ s₁ h₁
          exact hg (.supervising link path names m) _ s₁
            ⟨h₁, ⟨hlink.linked, hlink.backoff, hlink.since⟩, rfl⟩
  | nameOwnerChanged sig =>
      cases sig with
      | closed => exact hstay false
      | unreadable => exact hstay names
      | args owner => exact hstay names
  | tick => exact sound_health hg names h hlink howed

theorem sound_turn (hg : ∀ main l s, At main l s → Sound sel enable (g main) l s) {main : Main}
    (h : At main l s) : Sound sel enable ((turn sel enable main).bind g) l s := by
  cases main with
  | connecting backoff =>
      obtain ⟨hidle, hlinked, hbackoff⟩ := h
      refine .quiet (fun _ _ _ h ↦ h) hidle.inv hidle.not_isSome
        ⟨hidle.up, hlinked, hidle.inv.watching⟩ ?_
      rintro (e | ⟨⟩) s₁ hinv₁
      · exact sound_pause hg ⟨hinv₁, hidle.up, hidle.ending, hidle.watched⟩ hlinked hbackoff
      refine .quiet (fun _ _ _ h ↦ h) hinv₁ hidle.not_isSome trivial ?_
      intro t s₂ hinv₂
      refine .quiet (fun _ _ _ h ↦ h) hinv₂ hidle.not_isSome ⟨hidle.up, rfl⟩ ?_
      rintro (e | ⟨⟩) s₃ hinv₃
      · exact sound_sessionEnded hg ⟨hinv₃, hidle.up, hidle.ending, hidle.watched⟩ ⟨rfl, hbackoff, rfl⟩
      · exact hg (.discovering ⟨backoff, t⟩) _ s₃
          ⟨⟨hinv₃, hidle.up, hidle.ending, hidle.watched⟩, ⟨rfl, hbackoff, rfl⟩⟩
  | discovering link =>
      obtain ⟨hidle, hlink⟩ := h
      refine .quiet (fun _ _ _ h ↦ h) hidle.inv hidle.not_isSome
        ⟨hidle.up, hlink.linked, hidle.inv.watching⟩ ?_
      rintro (e | ⟨⟩) s₁ hinv₁
      · exact sound_sessionEnded hg ⟨hinv₁, hidle.up, hidle.ending, hidle.watched⟩ hlink
      · exact hg (.waiting link) l s₁ ⟨⟨hinv₁, hidle.up, hidle.ending, hidle.watched⟩, hlink⟩
  | waiting link => exact sound_waitForModem hg h.1 h.2
  | activating link path deadline =>
      obtain ⟨hidle, hlink, hfound, began, hbegan, hdeadline⟩ := h
      exact sound_activate hg ⟨hidle, hlink, hfound⟩ hbegan hdeadline
  | supervising link path names m =>
      obtain ⟨hon, hlink, howed⟩ := h
      refine .quiet ?_ hon.inv hon.isSome ⟨hon.isSome, hon.ending, howed, hon.inv.watching⟩ ?_
      · intro s w s' hdoes
        cases names with
        | true => exact hdoes
        | false =>
            cases w with
            | nameOwnerChanged sig => exact hdoes.elim
            | _ => exact hdoes
      intro w s₁ hinv₁
      change Sound sel enable _ (l.wake w) s₁
      have hon₁ : On path m l s₁ := ⟨hinv₁, hon.up, hon.ending⟩
      dsimp only
      cases hw : w.reason path with
      | some reason =>
          rw [hon₁.wake_over hw]
          exact sound_leave hg reason hon₁.ended hlink.ended
      | none =>
          rw [hon₁.wake_signalled hw]
          exact sound_handle hg names hon₁ hlink howed w

theorem sound_turns (n : Nat) {main : Main} (h : At main l s) :
    Sound sel enable (turns sel enable n main) l s := by
  induction n generalizing main l s with
  | zero => exact .done
  | succ n ih => exact sound_turn (fun _ _ _ h ↦ ih h) h

end Steps

/-- Whatever the bus answers and whenever the other tasks run, the gateway is told of one modem at a time,
which meets the configuration and is usable, and of each of its calls and messages once and in order; there
is one task for every call that can be watched, and none when there is no modem. -/
theorem supervision_conforms (n : Nat) : Sound sel enable (run sel enable n) {} ⟨[], [], false⟩ := by
  refine sound_turns n ⟨⟨?_, rfl, rfl, rfl⟩, rfl, rfl⟩
  have hget (call : Str) : (Map.empty : Map Str Nat).get? call = none := Map.get?_empty call
  refine ⟨⟨false, rfl, fun _ ↦ rfl⟩, nofun, ?_, List.forall_mem_nil _, ?_, fun _ ↦ ⟨rfl, rfl⟩⟩
  · intro call id h
    exact absurd ((hget call).symm.trans h) nofun
  · intro call
    rw [hget]
    exact iff_of_false List.not_mem_nil Bool.false_ne_true

end Modem2Sip.Mm
