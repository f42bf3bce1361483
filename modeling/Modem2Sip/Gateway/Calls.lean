import Modem2Sip.Gateway.State

/-!
# Call handling

The functions of `gateway.rs` that handle a call, in the order of their
dependence: what goes out through `SipCore`, the media session, the end of a
call, and the handlers of SIP requests, of modem events and of internal events.
A handler that can fail returns whether it succeeded; the event loop only logs a
failure, so the state it leaves is what counts.
-/

namespace Modem2Sip.Gateway

open Text Net Sip

variable (md5Hex : List UInt8 → Str) (cfg : Config) (env : Env)

namespace State

/-! ## Output through the SIP core -/

/-- `next_cseq`. -/
def takeCseq (g : State) : Nat × State := (g.cseq, { g with cseq := (g.cseq + 1) % 2 ^ 32 })

/-- `SipCore::respond`. -/
def respond (g : State) (txn : Option Nat) (req : Request) (resp : Response)
    (dest : SocketAddr) : State × Bool :=
  (g.emit (.respond txn req resp dest), env.sendOk g.log.length)

/-- `send_raw`: a request without a transaction. -/
def sendRaw (g : State) (req : Request) (dest : SocketAddr) : State × Bool :=
  (g.emit (.send req dest), env.sendOk g.log.length)

/-- `send_request`: the transaction is registered before the request goes out, and stays
registered when that fails. -/
def sendRequest (g : State) (req : Request) (dest : SocketAddr) : State × Option ClientTxn :=
  match req.headers.topVia.bind Via.branch with
  | none => (g, none)
  | some branch =>
    let chan := g.nextChan
    let entry : ClientTxnEntry := { method := req.method, chan, stopRetransmit := false }
    let g := { g with
      nextChan := chan + 1
      clientTxns := g.clientTxns.insert branch entry
      chans := g.chans.insert chan [] }
    let (g, ok) := g.sendRaw env req dest
    (g, if ok then some { branch, chan } else none)

/-- The handle of a client transaction is dropped. -/
def dropTxn (g : State) (txn : ClientTxn) : State :=
  { g with clientTxns := g.clientTxns.erase txn.branch, chans := g.chans.erase txn.chan }

/-- `SipCore::make_response`, with a random tag. -/
def response (g : State) (req : Request) (code : Nat) : Response :=
  makeResponse cfg.core (env.random .tag g.log.length) req code none

/-- `SipCore::build_request` with a random branch, and with our address to come back to. -/
def buildRequest (g : State) (method : Method) (requestUri : Uri) (sender recipient : NameAddr)
    (callId : Str) (cseq : Nat) (dest : SocketAddr) : Request :=
  Sip.buildRequest cfg.core (env.random .branch g.log.length) method requestUri sender recipient callId
    cseq dest true

@[simp] theorem buildRequest_method (g : State) (method : Method) (requestUri : Uri)
    (sender recipient : NameAddr) (callId : Str) (cseq : Nat) (dest : SocketAddr) :
    (g.buildRequest cfg env method requestUri sender recipient callId cseq dest).method = method :=
  rfl

/-- The identity that a request is built with is what its headers say. -/
theorem buildRequest_get (g : State) (method : Method) (requestUri : Uri)
    (sender recipient : NameAddr) (callId : Str) (cseq : Nat) (dest : SocketAddr) :
    let headers :=
      (g.buildRequest cfg env method requestUri sender recipient callId cseq dest).headers
    headers.get "call-id" = some callId ∧
      headers.get "cseq" = some (dec cseq ++ ' ' :: method.asStr) := by
  constructor <;> simp +decide only [buildRequest, Sip.buildRequest, Headers.get_set, if_true, if_false]

/-- `build_in_dialog_request`. -/
def buildInDialogRequest (g : State) (c : ActiveCall) (method : Method) : Request × State :=
  let (cseq, g) := g.takeCseq
  (g.buildRequest cfg env method c.remoteTarget c.localEnd c.remoteEnd c.callId cseq c.remoteAddr, g)

/-- `build_ack`: the ACK of a 2xx keeps the sequence number of the INVITE. -/
def buildAck (g : State) (c : ActiveCall) : Request :=
  let ack := g.buildRequest cfg env .ack c.remoteTarget c.localEnd c.remoteEnd c.callId
    c.localCseq c.remoteAddr
  { ack with headers := ack.headers.set "cseq" (dec c.localCseq ++ " ACK") }

/-- A request of a transaction that a task of its own waits for. -/
def sendInBackground (g : State) (req : Request) (dest : SocketAddr) : State :=
  match g.sendRequest env req dest with
  | (g, some txn) => { g with background := g.background ++ [txn] }
  | (g, none) => g

/-- `Gateway::reply`: a plain answer to the request being handled. -/
def reply (g : State) (txn : Nat) (req : Request) (src : SocketAddr) (code : Nat) : State × Bool :=
  let resp := g.response cfg env req code
  let headers :=
    if code = 503 then
      (resp.headers.set "retry-after" (dec cfg.retryAfterSecs)).set "warning"
        "399 modem2sip \"modem not available\""
    else resp.headers
  g.respond env (some txn) req { resp with headers } src

/-- `resolve_uri`: a literal address, or the first one that the name has. -/
def resolveUri (uri : Uri) : Option SocketAddr :=
  let port := uri.port.getD 5060
  let bracket (c : Char) : Bool := c == '[' || c == ']'
  let host := (uri.host.dropWhile bracket).rdropWhile bracket
  ((IpAddr.parse host).or (env.lookupHost host)).map fun ip ↦ { ip, port }

/-- `resolve_target`. -/
def resolveTarget : Option (Uri × SocketAddr) :=
  match cfg.callTarget with
  | some t => do
    let uri ← Uri.parse t
    let addr ← resolveUri env uri
    some (uri, addr)
  | none => env.newestBinding

/-! ## The end of a call -/

/-- The tasks of a call are aborted, which drops the transactions they hold. -/
def dropTasks (g : State) : List Task → State
  | [] => g
  | .inviteResponse txn _ :: ts => (g.dropTxn txn).dropTasks ts
  | _ :: ts => g.dropTasks ts

/-- `finish_call`. -/
def finishCall (g : State) (disposition : Str) : State :=
  match g.call with
  | none => g
  | some c =>
    ({ g with call := none }.dropTasks c.tasks).emit (.finished c.callId disposition c.cdrId)

/-- `modem.hangup` of the call's path, if there are a modem and a path. -/
def hangupMobile (g : State) : State :=
  match g.modem, g.call.bind ActiveCall.mmPath with
  | some _, some path => g.emit (.hangup path)
  | _, _ => g

/-- The fields that `ack_failure` and `cancel_outgoing_invite` change in a copy of the INVITE. -/
def inviteAs (c : ActiveCall) (method : Method) : Request :=
  { c.invite with
    method
    body := []
    headers := (c.invite.headers.remove "content-type").set "cseq"
      (dec c.localCseq ++ ' ' :: method.asStr) }

/-- `cancel_outgoing_invite`. -/
def cancelOutgoingInvite (g : State) : State :=
  match g.call with
  | none => g
  | some c =>
    if c.role ≠ .toSip || c.answered then g
    else (g.sendRaw env (inviteAs c .cancel) c.remoteAddr).1

/-- `teardown_call`: a BYE in a confirmed dialog, else a failure for the caller or a CANCEL. -/
def teardownCall (g : State) (reason : Str) (code : Nat) : State :=
  match g.call with
  | none => g
  | some c =>
    let g :=
      if c.answered then
        let (bye, g) := g.buildInDialogRequest cfg env c .bye
        g.sendInBackground env bye c.remoteAddr
      else
        match c.role with
        | .fromSip =>
          let code := if code < 400 then 480 else code
          let resp := g.response cfg env c.invite code
          let headers := resp.headers.set "to" c.localEnd.show
          let headers :=
            if code = 503 then headers.set "retry-after" (dec cfg.retryAfterSecs) else headers
          (g.respond env c.inviteTxn c.invite { resp with headers } c.inviteDest).1
        | .toSip => g.cancelOutgoingInvite env
    g.hangupMobile.finishCall reason

/-! ## Media -/

/-- `start_media`. -/
def startMedia (g : State) (remote : SocketAddr) : State × Bool :=
  match g.modem, g.call with
  | some _, some c =>
    if !env.audioOk || !c.rtpSocket then (g, false)
    else
      let c := { c with
        rtpSocket := false
        mediaDtmfPt := c.remoteSdp.bind Sdp.telephoneEvent
        media := some (.start g.now remote)
        tasks := c.tasks ++ [.relayInband, .relayDtmf] }
      ({ g with call := some c }.emit (.mediaStarted remote), true)
  | _, _ => (g, false)

/-- Where a session description says that RTP goes. -/
def mediaAddr (sdp : Sdp) : SocketAddr := { ip := sdp.address, port := sdp.port }

/-- `open_media_for_early_media`. -/
def openMediaForEarlyMedia (g : State) : State × Bool :=
  match g.call with
  | none => (g, true)
  | some c =>
    if c.media.isSome then (g, true)
    else
      match c.remoteSdp with
      | none => (g, false)
      | some sdp => g.startMedia env (mediaAddr sdp)

/-- `send_provisional`. -/
def sendProvisional (g : State) (code : Nat) : State :=
  match g.call with
  | none => g
  | some c =>
    let g := if code = 180 then g.updateCall fun c ↦ { c with ringingSent := true } else g
    let resp := g.response cfg env c.invite code
    let headers := resp.headers.set "to" c.localEnd.show
    (g.respond env c.inviteTxn c.invite { resp with headers } c.inviteDest).1

/-- `start_early_media`: open the audio path, answer 180, and watch for audio. -/
def startEarlyMedia (g : State) : State × Bool :=
  let (g, ok) := g.openMediaForEarlyMedia env
  if !ok then (g, false)
  else
    let g := g.sendProvisional cfg env 180
    if (g.call.bind ActiveCall.media).isSome then
      (g.updateCall fun c ↦ { c with tasks := c.tasks ++ [.watchEarlyMedia] }, true)
    else (g, true)

/-- The `allow` field of an answer. -/
def allowValue : Str := "INVITE, ACK, CANCEL, BYE, OPTIONS, INFO, MESSAGE"

/-- The response of `respond_with_media`. -/
def mediaResponse (g : State) (c : ActiveCall) (sdp : Sdp) (code : Nat) : Response :=
  let answer := sdp.answer (g.now / 1000) (cfg.rtpAdvertisedIp c.remoteAddr) c.localRtpPort c.codec
    (some cfg.dtmfPayloadType) cfg.periodMs
  let resp := g.response cfg env c.invite code
  { resp with
    headers := ((resp.headers.set "content-type" "application/sdp").set "to" c.localEnd.show).set
      "allow" allowValue
    body := utf8 answer.render }

/-- `respond_with_media`: answer the pending INVITE with a description of our media, which is
opened first if it is not yet. -/
def respondWithMedia (g : State) (code : Nat) : State × Bool :=
  match g.call with
  | none => (g, true)
  | some c =>
    match c.remoteSdp with
    | none => (g, false)
    | some sdp =>
      let (g, ok) := if c.media.isNone then g.startMedia env (mediaAddr sdp) else (g, true)
      if !ok then (g, false)
      else
        g.respond env c.inviteTxn c.invite (g.mediaResponse cfg env c sdp code) c.inviteDest

/-- `upgrade_to_early_media`. -/
def upgradeToEarlyMedia (g : State) : State × Bool :=
  match g.call with
  | none => (g, true)
  | some c =>
    if c.earlyMedia || c.answered then (g, true)
    else
      let (g, ok) := g.respondWithMedia cfg env 183
      if !ok then (g, false) else (g.updateCall fun c ↦ { c with earlyMedia := true }, true)

/-! ## Digits -/

/-- `send_dtmf_info`. -/
def sendDtmfInfo (g : State) (digit : Str) : State :=
  match g.call with
  | none => g
  | some c =>
    let (req, g) := g.buildInDialogRequest cfg env c .info
    let req := { req with
      headers := req.headers.set "content-type" "application/dtmf-relay"
      body := utf8 ("Signal=" ++ digit ++ "\r\nDuration=250\r\n") }
    g.sendInBackground env req c.remoteAddr

/-- `ModemHandle::send_dtmf`: digit by digit, up to the first that is refused. -/
def sendDtmf (g : State) (path : Path) : List Char → State × Bool
  | [] => (g, true)
  | d :: ds =>
    let ok := env.sendDtmfOk g.log.length
    let g := g.emit (.sendDtmf path d ok)
    if ok then g.sendDtmf path ds else (g, false)

theorem sendDtmf_call (g : State) (path : Path) (ds : List Char) :
    (g.sendDtmf env path ds).1.call = g.call := by
  induction ds generalizing g with
  | nil => rfl
  | cons d ds ih =>
      rw [sendDtmf]
      split
      · exact ih _
      · rfl

/-- The part of `deliver_dtmf` that plays tones. -/
def playTones (g : State) (digits : Str) : State × Bool :=
  if cfg.dtmfMethod = .inband ∨ cfg.dtmfMethod = .auto then
    if (g.call.bind ActiveCall.media).isSome then
      let queued := env.tonesQueued digits
      (g.emit (.playTones digits queued), decide (0 < queued))
    else (g, false)
  else (g, false)

/-- `deliver_dtmf`: ModemManager first, and tones for the rest of a call whose codec cannot
signal digits. -/
def deliverDtmf (g : State) (digits : Str) : State × Bool :=
  if cfg.dtmfMethod = .none ∨ digits = [] then (g, true)
  else
    let failedHere := g.call.any ActiveCall.dtmfViaModemFailed
    let tryModem := cfg.dtmfMethod = .modem ∨ (cfg.dtmfMethod = .auto ∧ !failedHere)
    if tryModem then
      match g.call.bind ActiveCall.mmPath, g.modem with
      | some path, some _ =>
        let (g, ok) := g.sendDtmf env path (digits.filter fun c ↦ !isWhitespace c)
        if ok then (g, true)
        else if cfg.dtmfMethod = .modem then (g, false)
        else (g.updateCall fun c ↦ { c with dtmfViaModemFailed := true }).playTones cfg env digits
      | _, _ => if cfg.dtmfMethod = .modem then (g, false) else g.playTones cfg env digits
    else g.playTones cfg env digits

end State

end Modem2Sip.Gateway
