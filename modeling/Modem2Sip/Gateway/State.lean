import Modem2Sip.Lib.Map
import Modem2Sip.Gateway.Config

/-!
# The state of the gateway

One modem, one SIP endpoint, one call at a time.  Every event is handled by a
single task, so a handler is a function on this state; what it does to the world
outside is appended to `log`, with the time, in the order in which it is done.
What the world answers - a dial that succeeds, a socket that takes a datagram,
the random identifiers - comes from an `Env`, one for each event.
-/

namespace Modem2Sip.Gateway

open Text Net Sip

inductive Role where
  /-- SIP to modem: we are the UAS. -/
  | fromSip
  /-- Modem to SIP: we are the UAC. -/
  | toSip
deriving DecidableEq, Repr

/-- A ModemManager object path. -/
abbrev Path := Str

/-! ## Media -/

/-- `MediaSession`: where RTP goes, where the signalling says the peer is, and the clock of the
inactivity check, which counts milliseconds from `started` and saturates at 32 bits. -/
structure MediaSession where
  remote : SocketAddr
  signalled : SocketAddr
  latched : Bool
  started : Nat
  lastRtpMs : Nat
deriving DecidableEq, Repr

namespace MediaSession

def start (now : Nat) (remote : SocketAddr) : MediaSession where
  remote := remote
  signalled := remote
  latched := false
  started := now
  lastRtpMs := 0

/-- `Clock::elapsed_ms`. -/
def elapsedMs (m : MediaSession) (now : Nat) : Nat := min (now - m.started) (2 ^ 32 - 1)

/-- `Clock::stamp`, which is also `reset_silence`. -/
def stamp (m : MediaSession) (now : Nat) : MediaSession := { m with lastRtpMs := m.elapsedMs now }

/-- `silence`, in milliseconds. -/
def silence (m : MediaSession) (now : Nat) : Nat := m.elapsedMs now - m.lastRtpMs

def setRemote (m : MediaSession) (addr : SocketAddr) : MediaSession :=
  { m with
    latched := m.latched && m.signalled.ip == addr.ip
    signalled := addr
    remote := addr }

/-- Is a packet from there listened to? -/
def accepts (m : MediaSession) (src : SocketAddr) : Bool :=
  m.signalled.ip.isUnspecified || src.ip == m.signalled.ip

/-- The receiver sees an RTP packet: it shows that the peer is alive, and with symmetric RTP
the first one says where to send to. -/
def receive (symmetric : Bool) (m : MediaSession) (now : Nat) (src : SocketAddr) : MediaSession :=
  let m := m.stamp now
  if symmetric && !m.latched then
    { m with latched := true, remote := if src ≠ m.signalled then src else m.remote }
  else m

end MediaSession

/-! ## The call -/

/-- `ClientTxn`: the handle of a request that was sent, and the channel of its responses. -/
structure ClientTxn where
  branch : Str
  chan : Nat
deriving DecidableEq, Repr

/-- The tasks that a call has running. -/
inductive Task where
  | inviteResponse (txn : ClientTxn) (deadline : Nat)
  | watchEarlyMedia
  | relayInband
  | relayDtmf
deriving DecidableEq, Repr

structure ActiveCall where
  role : Role
  mmPath : Option Path
  peerNumber : Str
  callId : Str
  /-- `local` and `remote`: our end of the dialog and the peer's. -/
  localEnd : NameAddr
  remoteEnd : NameAddr
  remoteTarget : Uri
  remoteAddr : SocketAddr
  localCseq : Nat
  /-- The INVITE we received or sent. -/
  invite : Request
  inviteSrc : Option SocketAddr
  /-- Which of the delivered requests the INVITE was; not a field of the source. -/
  inviteTxn : Option Nat
  media : Option MediaSession
  rtpSocket : Bool
  localRtpPort : Nat
  codec : Codec
  remoteSdp : Option Sdp
  mediaDtmfPt : Option Nat
  answered : Bool
  authRetried : Bool
  ringingSent : Bool
  earlyMedia : Bool
  dtmfViaModemFailed : Bool
  cdrId : Option Nat
  tasks : List Task
deriving DecidableEq, Repr

/-- Where responses to the INVITE go. -/
def ActiveCall.inviteDest (c : ActiveCall) : SocketAddr := c.inviteSrc.getD c.remoteAddr

/-- Does `req` belong to the dialog of this call?  The Call-ID and both tags have to agree. -/
def inDialogOf (c : ActiveCall) (req : Request) : Bool :=
  req.headers.callId == some c.callId &&
    (c.localEnd.tag.isNone || (req.headers.toAddr.bind NameAddr.tag) == c.localEnd.tag) &&
    (match c.remoteEnd.tag with
      | some remote => (req.headers.fromAddr.bind NameAddr.tag) == some remote
      | none => true)

/-- The events that the gateway generates for itself. -/
inductive Internal where
  | sipProgress (callId : Str) (code : Nat)
  | sipAnswered (callId : Str) (resp : Response)
  | sipFailed (callId : Str) (resp : Response)
  | ringTimeout (callId : Str)
  | earlyMediaAudio (callId : Str) (level : Nat)
  | dtmf (callId : Str) (digit : Char)
  | dtmfFromModem (callId : Str) (digit : Char)
  | smsRetry (path : Path) (attempt : Nat)
deriving DecidableEq, Repr

/-! ## What is observed -/

inductive Entry where
  /-- A response is handed to the socket.  `txn` says which of the delivered requests it
  answers; it is absent for one of our own. -/
  | respond (txn : Option Nat) (req : Request) (resp : Response) (dest : SocketAddr)
  /-- A request is handed to the socket. -/
  | send (req : Request) (dest : SocketAddr)
  /-- A response arrives from the network. -/
  | heard (resp : Response)
  /-- An RTP packet is accepted. -/
  | rtp (src : SocketAddr)
  | dial (number : Str)
  | hangup (path : Path)
  | accept (path : Path)
  | deleteCall (path : Path)
  /-- `Call.SendDtmf` for one digit, and whether it succeeded. -/
  | sendDtmf (path : Path) (digit : Char) (ok : Bool)
  /-- Digits are offered to the tone queue, which takes that many. -/
  | playTones (digits : Str) (queued : Nat)
  /-- The media session opens. -/
  | mediaStarted (remote : SocketAddr)
  | cdrStarted (number : Str)
  | cdrAnswered (id : Nat)
  /-- The call leaves its slot. -/
  | finished (callId disposition : Str) (cdrId : Option Nat)
  /-- A task is started that submits a message and then answers the request. -/
  | submitSms (txn : Nat) (number text : Str)
  | submitMms (txn : Nat) (number : Str) (body : List UInt8)
  /-- An SMS object is handed to the messaging side. -/
  | sms (path : Path) (received : Bool) (attempt : Nat)
deriving DecidableEq, Repr

/-- What `random_hex` is called for. -/
inductive Purpose where
  | tag
  | dialogTag
  | callId
  | branch
  | cnonce
deriving DecidableEq, Repr

structure CallInfo where
  number : Str
  direction : Int
  state : Int
deriving DecidableEq, Repr

/-- What the world answers while one event is handled. -/
structure Env where
  /-- The random identifiers, by purpose and by the number of entries in the log. -/
  random : Purpose → Nat → Str
  /-- Does the socket take the datagram? -/
  sendOk : Nat → Bool
  bindPort : Option Nat
  dial : Option Path
  callInfo : Option CallInfo
  acceptOk : Bool
  /-- Do the sound devices open? -/
  audioOk : Bool
  /-- Have the audio threads given up? -/
  audioFailed : Bool
  lookupHost : Str → Option IpAddr
  /-- The newest registration: its contact and where it came from. -/
  newestBinding : Option (Uri × SocketAddr)
  startCall : Option Nat
  sendDtmfOk : Nat → Bool
  /-- How many of the digits the tone queue takes. -/
  tonesQueued : Str → Nat

/-- What `info` of the modem is read for here. -/
structure Modem where
  ownNumber : Option Str
deriving DecidableEq, Repr

structure ClientTxnEntry where
  method : Method
  chan : Nat
  stopRetransmit : Bool
deriving DecidableEq, Repr

structure State where
  now : Nat
  modem : Option Modem
  call : Option ActiveCall
  /-- The channel of internal events, the oldest first. -/
  internal : List Internal
  clientTxns : StrMap ClientTxnEntry
  /-- The responses that wait in the channel of each client transaction. -/
  chans : Map Nat (List Response)
  /-- The client transactions of tasks that no call owns. -/
  background : List ClientTxn
  cseq : Nat
  /-- How many channels and how many requests there have been; not fields of the source. -/
  nextChan : Nat
  nextTxn : Nat
  stopped : Bool
  log : List (Nat × Entry)

def State.init (now : Nat) : State where
  now := now
  modem := none
  call := none
  internal := []
  clientTxns := .empty
  chans := .empty
  background := []
  cseq := 1
  nextChan := 0
  nextTxn := 0
  stopped := false
  log := []

namespace State

/-- Something happens that can be observed. -/
def emit (g : State) (e : Entry) : State := { g with log := g.log ++ [(g.now, e)] }

/-- Change the call, if there is one. -/
def updateCall (g : State) (f : ActiveCall → ActiveCall) : State := { g with call := g.call.map f }

@[simp] theorem emit_call (g : State) (e : Entry) : (g.emit e).call = g.call := rfl
@[simp] theorem emit_now (g : State) (e : Entry) : (g.emit e).now = g.now := rfl
@[simp] theorem emit_nextTxn (g : State) (e : Entry) : (g.emit e).nextTxn = g.nextTxn := rfl
@[simp] theorem emit_log (g : State) (e : Entry) : (g.emit e).log = g.log ++ [(g.now, e)] := rfl
@[simp] theorem emit_modem (g : State) (e : Entry) : (g.emit e).modem = g.modem := rfl

@[simp] theorem updateCall_log (g : State) (f : ActiveCall → ActiveCall) :
    (g.updateCall f).log = g.log := rfl
@[simp] theorem updateCall_call (g : State) (f : ActiveCall → ActiveCall) :
    (g.updateCall f).call = g.call.map f := rfl

end State

end Modem2Sip.Gateway
