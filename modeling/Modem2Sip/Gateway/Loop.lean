import Modem2Sip.Lib.Run
import Modem2Sip.Gateway.Handlers

/-!
# The event loop

`gateway::run` picks one event after the other, in any order: SIP requests, what
ModemManager reports, its own internal events, the tick of the watchdog, the
shutdown.  Beside it run the tasks of the call and of the SIP core, whose steps are
events here too: a response that arrives, a task that reads its channel, a timer
that runs out.
-/

namespace Modem2Sip.Gateway

open Text Net Sip

inductive Event where
  /-- A request that the SIP core passes on. -/
  | request (req : Request) (src : SocketAddr)
  | modemUp (modem : Modem)
  | modemDown
  | callAdded (path : Path)
  | callDeleted (path : Path)
  | callState (path : Path) (new : Int) (reason : Nat)
  | modemDtmf (path : Path) (digit : Str)
  | smsAdded (path : Path) (received : Bool)
  /-- The oldest internal event is handled. -/
  | internal
  | tick
  | shutdown
  /-- A response arrives. -/
  | response (resp : Response)
  /-- An RTP packet arrives. -/
  | rtp (src : SocketAddr)
  /-- The task at this place of the call's list reads a response from its channel. -/
  | inviteTask (i : Nat)
  /-- The ring timeout of the task at this place runs out. -/
  | inviteTimeout (i : Nat)
  /-- The network starts to send audio while the call is ringing. -/
  | audioHeard (level : Nat)
  /-- A digit in the RTP stream, and one in the audio from the mobile side. -/
  | rtpDigit (digit : Char)
  | inbandDigit (digit : Char)
  /-- Another part of the program starts a transaction: a registration, a message. -/
  | transact (req : Request) (dest : SocketAddr)
  /-- A transaction that no call owns is over. -/
  | backgroundDone (i : Nat)
  | advance (ms : Nat)
deriving Repr

variable (md5Hex : List UInt8 → Str) (cfg : Config)

namespace State

/-- A task sends an internal event; the channel holds 64. -/
def enqueue (g : State) (ev : Internal) : State := { g with internal := g.internal ++ [ev] }

def internalFull (g : State) : Bool := decide (64 ≤ g.internal.length)

/-- `SipCore::on_response`. -/
def onResponse (g : State) (resp : Response) : State :=
  let g := g.emit (.heard resp)
  match resp.headers.topVia.bind Via.branch, resp.headers.cseq with
  | some branch, some (_, method) =>
    match g.clientTxns.get? branch with
    | some entry =>
      if entry.method ≠ method then g
      else
        let stop := entry.stopRetransmit || decide (200 ≤ resp.code) || entry.method == .invite
        { g with
          clientTxns := g.clientTxns.insert branch { entry with stopRetransmit := stop }
          chans :=
            match g.chans.get? entry.chan with
            | some queue => g.chans.insert entry.chan (queue ++ [resp])
            | none => g.chans }
    | none => g
  | _, _ => g

/-- Take the task at place `i` off the call's list; the transaction it holds is dropped. -/
def endTask (g : State) (i : Nat) : State :=
  match g.call.bind fun c ↦ c.tasks[i]? with
  | none => g
  | some task =>
    let g := g.updateCall fun c ↦ { c with tasks := c.tasks.eraseIdx i }
    match task with
    | .inviteResponse txn _ => g.dropTxn txn
    | _ => g

/-- Does anything still send into this channel? -/
def hasSender (g : State) (chan : Nat) : Bool :=
  g.clientTxns.entries.any fun e ↦ e.2.chan == chan

/-- `invite_response_task` when its channel has something to say: a response, or that there will
not be one. -/
def inviteTask (g : State) (i : Nat) : State :=
  match g.call, g.call.bind fun c ↦ c.tasks[i]? with
  | some c, some (.inviteResponse txn _) =>
    if g.internalFull then g
    else
      match g.chans.get? txn.chan with
      | some (resp :: rest) =>
        let g := { g with chans := g.chans.insert txn.chan rest }
        if resp.isProvisional then
          if 100 < resp.code then g.enqueue (.sipProgress c.callId resp.code) else g
        else if resp.isSuccess then (g.endTask i).enqueue (.sipAnswered c.callId resp)
        else (g.endTask i).enqueue (.sipFailed c.callId resp)
      | _ => if g.hasSender txn.chan then g else (g.endTask i).enqueue (.ringTimeout c.callId)
  | _, _ => g

/-- `invite_response_task` when its time is up. -/
def inviteTimeout (g : State) (i : Nat) : State :=
  match g.call, g.call.bind fun c ↦ c.tasks[i]? with
  | some c, some (.inviteResponse _ deadline) =>
    if g.internalFull || decide (g.now < deadline) then g
    else (g.endTask i).enqueue (.ringTimeout c.callId)
  | _, _ => g

/-- `watch_for_early_media` reports once and ends. -/
def audioHeard (g : State) (level : Nat) : State :=
  match g.call with
  | none => g
  | some c =>
    match c.tasks.idxOf? .watchEarlyMedia with
    | some i => if g.internalFull then g else (g.endTask i).enqueue (.earlyMediaAudio c.callId level)
    | none => g

/-- A task of the call passes a digit on. -/
def relayDigit (g : State) (task : Task) (ev : Str → Internal) : State :=
  match g.call with
  | none => g
  | some c => if c.tasks.contains task && !g.internalFull then g.enqueue (ev c.callId) else g

/-- `receiver_loop`, for a datagram that is an RTP packet. -/
def onRtp (g : State) (src : SocketAddr) : State :=
  match g.call with
  | none => g
  | some c =>
    match c.media with
    | none => g
    | some m =>
      if m.accepts src then
        ({ g with call := some { c with media := some (m.receive cfg.symmetric g.now src) } }).emit
          (.rtp src)
      else g

/-- The mobile path of the call, if there is one. -/
def mmPath (g : State) : Option Path := g.call.bind ActiveCall.mmPath

/-- One event, with the answers of the world to it. -/
def step (g : State) (e : Event × Env) : State :=
  let env := e.2
  if g.stopped then g
  else
    match e.1 with
    | .request req src =>
      ({ g with nextTxn := g.nextTxn + 1 }.onSipRequest cfg env g.nextTxn req src).1
    | .modemUp modem => { g with modem := some modem }
    | .modemDown => ({ g with modem := none }).teardownCall cfg env "modem disappeared" 503
    | .callAdded path => g.onMmCallAdded cfg env path
    | .callDeleted path =>
      if g.mmPath = some path then g.teardownCall cfg env "modem call object deleted" 200 else g
    | .callState path new reason => g.onMmCallState cfg env path new reason
    | .modemDtmf path digit => if g.mmPath = some path then g.sendDtmfInfo cfg env digit else g
    | .smsAdded path received => g.emit (.sms path received 0)
    | .internal =>
      match g.internal with
      | [] => g
      | ev :: rest => { g with internal := rest }.onInternal md5Hex cfg env ev
    | .tick => g.checkMedia cfg env
    | .shutdown =>
      { g.teardownCall cfg env "modem2sip is shutting down" 200 with stopped := true }
    | .response resp => g.onResponse resp
    | .rtp src => g.onRtp cfg src
    | .inviteTask i => g.inviteTask i
    | .inviteTimeout i => g.inviteTimeout i
    | .audioHeard level => g.audioHeard level
    | .rtpDigit digit => g.relayDigit .relayDtmf fun callId ↦ .dtmf callId digit
    | .inbandDigit digit => g.relayDigit .relayInband fun callId ↦ .dtmfFromModem callId digit
    | .transact req dest => if req.method = .invite then g else g.sendInBackground env req dest
    | .backgroundDone i =>
      match g.background[i]? with
      | none => g
      | some txn => { g with background := g.background.eraseIdx i }.dropTxn txn
    | .advance ms => { g with now := g.now + ms }

/-- The state after a list of events. -/
def run (g : State) (es : List (Event × Env)) : State := Run.run (step md5Hex cfg) g es

end State

/-! ## A gateway to try things on -/

namespace Sample

def config (earlyMedia : Bool) : Config where
  core :=
    { auth := none
      domain := some "gw.local"
      userAgent := "modem2sip"
      transport :=
        { bound := { ip := .v4 (ofOctets 10 0 0 1), port := 5060 }
          publicIp := none
          localIpFor := fun _ ↦ none }
      secret := "5ec7e7" }
  callTarget := some "sip:desk@10.0.0.5"
  register := none
  earlyMedia := earlyMedia
  ringTimeoutSecs := 60
  retryAfterSecs := 30
  rtpBind := none
  rtpPublicIp := none
  dtmfPayloadType := 101
  symmetric := true
  dtmfMethod := .auto
  dtmfToneMs := 200
  dtmfGapMs := 100
  timeoutSecs := 60
  periodMs := 20
  ownNumber := none
  countryCode := none
  nationalPrefix := "0"

/-- A world in which everything works. -/
def env : Env where
  random _ n := 'r' :: dec n
  sendOk _ := true
  bindPort := some 40000
  dial := some "/call/1"
  callInfo := some { number := "01012345678", direction := 1, state := 3 }
  acceptOk := true
  audioOk := true
  audioFailed := false
  lookupHost _ := none
  newestBinding := none
  startCall := some 1
  sendDtmfOk _ := true
  tonesQueued ds := ds.length

def peer : SocketAddr where
  ip := .v4 (ofOctets 10 0 0 5)
  port := 5060

/-- A request of the peer in the dialog that its INVITE `c1` opens. -/
def request (method : Method) (cseq : Nat) (toTag : Str) (body : String) : Request where
  method := method
  uri := .new (some "01098765432") "gw.local" none
  headers := ⟨[ ("via", "SIP/2.0/UDP 10.0.0.5;branch=z9hG4bKp" ++ dec cseq),
    ("from", "<sip:desk@10.0.0.5>;tag=desk"),
    ("to", "<sip:01098765432@gw.local>" ++ toTag),
    ("call-id", "c1"),
    ("cseq", dec cseq ++ ' ' :: method.asStr) ]⟩
  body := utf8 body

/-- A description of audio at the peer. -/
def offer : String := "v=0\r\nc=IN IP4 10.0.0.5\r\nm=audio 30000 RTP/AVP 0\r\n"

/-- What the gateway knows once a modem is there. -/
def idle : State := { State.init 1700000000000 with modem := some { ownNumber := none } }

end Sample

end Modem2Sip.Gateway
