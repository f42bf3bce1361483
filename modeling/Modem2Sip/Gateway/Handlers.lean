import Modem2Sip.Gateway.Calls

/-!
# The handlers of the event loop

`on_sip_request` and what it dispatches to, `on_modem_event`, `on_internal` and
`check_media`.
-/

namespace Modem2Sip.Gateway

open Text Net Sip

/-- The call states of ModemManager that the gateway acts on. -/
def stateDialing : Int := 1
def stateRingingOut : Int := 2
def stateActive : Int := 4
def stateTerminated : Int := 7
def directionIncoming : Int := 1
def reasonRefusedOrBusy : Nat := 5
def reasonError : Nat := 6
def reasonAudioSetupFailed : Nat := 7

variable (md5Hex : List UInt8 → Str) (cfg : Config) (env : Env)

namespace State

/-! ## SIP requests

`txn` is the number of the delivered request that is being handled. -/

/-- The sequence number of a message. -/
def cseqNumber (h : Headers) : Option Nat := h.cseq.map Prod.fst

/-- `in_dialog`. -/
def inDialog (g : State) (req : Request) : Bool := g.call.any fun c ↦ inDialogOf c req

/-- An offer that says where its media is. -/
def usableOffer (req : Request) : Option Sdp := (Sdp.parse req.bodyStr).filter Sdp.hasMedia

/-- The 200 of a re-INVITE: an answer to the offer, or else to the one before. -/
def reinviteResponse (g : State) (c : ActiveCall) (req : Request) (src : SocketAddr)
    (offer : Option Sdp) : Response :=
  let resp := g.response cfg env req 200
  let headers := resp.headers.set "to" c.localEnd.show
  match offer.or c.remoteSdp with
  | none => { resp with headers }
  | some sdp =>
    let dtmfPt := c.mediaDtmfPt.filter fun pt ↦ sdp.telephoneEvent == some pt
    let answer := sdp.answer (g.now / 1000) (cfg.rtpAdvertisedIp src) c.localRtpPort c.codec dtmfPt
      cfg.periodMs
    { resp with
      headers := headers.set "content-type" "application/sdp"
      body := utf8 answer.render }

/-- What a re-INVITE with an offer does to the call: the media moves, the silence clock starts
again, and the offer is the description from now on. -/
def renegotiate (now : Nat) (c : ActiveCall) (offer : Option Sdp) : ActiveCall :=
  match offer with
  | none => c
  | some sdp =>
    { c with
      media := c.media.map fun m ↦ (m.setRemote (mediaAddr sdp)).stamp now
      remoteSdp := some sdp }

/-- `None <= x` holds for every `x`. -/
def optionLe : Option Nat → Option Nat → Bool
  | none, _ => true
  | some _, none => false
  | some a, some b => decide (a ≤ b)

/-- `on_sip_reinvite`. -/
def onSipReinvite (g : State) (txn : Nat) (req : Request) (src : SocketAddr) : State × Bool :=
  match g.call with
  | none => (g, true)
  | some c =>
    let pending := !c.answered || (c.role == .fromSip &&
      optionLe (cseqNumber req.headers) (cseqNumber c.invite.headers))
    if pending then g.reply cfg env txn req src 491
    else if !g.inDialog req then g.reply cfg env txn req src 481
    else
      let offer := usableOffer req
      if offer.any fun o ↦ !o.payloadTypes.contains c.codec.payloadType then
        g.reply cfg env txn req src 488
      else
        let resp := g.reinviteResponse cfg env c req src offer
        ({ g with call := some (renegotiate g.now c offer) }).respond env (some txn) req resp src

/-- The part of `on_sip_invite` after the 100: a port, the modem, and the call is in its slot. -/
def placeCall (g : State) (txn : Nat) (req : Request) (src : SocketAddr) (number : Str)
    (sdp : Sdp) (codec : Codec) (recipient sender : NameAddr) (callId : Str) : State × Bool :=
  match env.bindPort with
  | none => g.reply cfg env txn req src 500
  | some port =>
    let g := g.emit (.dial number)
    match env.dial with
    | none => g.reply cfg env txn req src 503
    | some mmPath =>
      let g := g.emit (.cdrStarted number)
      let (localCseq, g) := g.takeCseq
      let call : ActiveCall :=
        { role := .fromSip
          mmPath := some mmPath
          peerNumber := number
          callId
          localEnd := recipient
          remoteEnd := sender
          remoteTarget := (req.headers.contact.map NameAddr.uri).getD sender.uri
          remoteAddr := src
          localCseq
          invite := req
          inviteSrc := some src
          inviteTxn := some txn
          media := none
          rtpSocket := true
          localRtpPort := port
          codec
          remoteSdp := some sdp
          mediaDtmfPt := none
          answered := false
          authRetried := false
          ringingSent := false
          earlyMedia := false
          dtmfViaModemFailed := false
          cdrId := env.startCall
          tasks := [] }
      ({ g with call := some call }, true)

/-- The part of `on_sip_invite` for an INVITE that arrives while there is no call. -/
def onNewInvite (g : State) (txn : Nat) (req : Request) (src : SocketAddr) : State × Bool :=
  match g.modem with
  | none => g.reply cfg env txn req src 503
  | some _ =>
    let number := sanitizeNumber (req.uri.user.getD [])
    if number = [] then g.reply cfg env txn req src 484
    else
      match Sdp.parse req.bodyStr with
      | none => g.reply cfg env txn req src 488
      | some sdp =>
        match sdp.negotiate with
        | none => g.reply cfg env txn req src 488
        | some codec =>
          if !sdp.hasMedia then g.reply cfg env txn req src 488
          else
            match req.headers.toAddr, req.headers.fromAddr, req.headers.callId with
            | some recipient, some sender, some callId =>
              let recipient := recipient.withTag (env.random .dialogTag g.log.length)
              let (g, ok) := g.reply cfg env txn req src 100
              if !ok then (g, false)
              else g.placeCall cfg env txn req src number sdp codec recipient sender callId
            | _, _, _ => g.reply cfg env txn req src 400

/-- `on_sip_invite`. -/
def onSipInvite (g : State) (txn : Nat) (req : Request) (src : SocketAddr) : State × Bool :=
  match g.call with
  | some c =>
    if req.headers.callId = some c.callId then
      if !c.answered then
        -- Taken for a repeat of the INVITE that is being set up.
        if c.earlyMedia then g.respondWithMedia cfg env 183
        else (g.sendProvisional cfg env 180, true)
      else g.onSipReinvite cfg env txn req src
    else g.reply cfg env txn req src 486
  | none => g.onNewInvite cfg env txn req src

/-- `on_sip_bye`. -/
def onSipBye (g : State) (txn : Nat) (req : Request) (src : SocketAddr) : State × Bool :=
  let inside := g.inDialog req
  let (g, ok) := g.respond env (some txn) req
    (g.response cfg env req (if inside then 200 else 481)) src
  if !ok then (g, false)
  else if inside then (g.hangupMobile.finishCall "sip bye", true)
  else (g, true)

/-- Is this the CANCEL of the INVITE that the call is being set up for? -/
def cancels (c : ActiveCall) (req : Request) : Bool :=
  c.role == .fromSip && !c.answered && some c.callId == req.headers.callId &&
    cseqNumber req.headers == cseqNumber c.invite.headers

/-- `on_sip_cancel`. -/
def onSipCancel (g : State) (txn : Nat) (req : Request) (src : SocketAddr) : State × Bool :=
  let (g, ok) := g.respond env (some txn) req (g.response cfg env req 200) src
  if !ok then (g, false)
  else
    match g.call with
    | none => (g, true)
    | some c =>
      if cancels c req then
        let resp := g.response cfg env c.invite 487
        let resp := { resp with headers := resp.headers.set "to" c.localEnd.show }
        let g := (g.respond env c.inviteTxn c.invite resp c.inviteDest).1
        (g.hangupMobile.finishCall "sip cancel", true)
      else (g, true)

/-- `on_sip_info`. -/
def onSipInfo (g : State) (txn : Nat) (req : Request) (src : SocketAddr) : State × Bool :=
  let digits := parseDtmfInfo ((req.headers.get "content-type").getD []) req.bodyStr
  let hasPath := g.inDialog req && (g.call.bind ActiveCall.mmPath).isSome
  let (g, code) : State × Nat :=
    match digits with
    | none => (g, 415)
    | some d =>
      if d = [] then (g, 200)
      else if hasPath then
        let (g, ok) := g.deliverDtmf cfg env d
        (g, if ok then 200 else 500)
      else (g, 481)
  g.respond env (some txn) req (g.response cfg env req code) src

/-- `on_sip_message`, up to the task that submits the message and answers the request. -/
def onSipMessage (g : State) (txn : Nat) (req : Request) (src : SocketAddr) : State × Bool :=
  let toHeader := req.headers.toAddr
  let target := (toHeader.map NameAddr.uri).getD req.uri
  let declared := (toHeader.bind fun t ↦ t.param "messagetype").or (target.param "messagetype")
  if !declared.any fun v ↦ eqIgnoreCase v "sms" then g.reply cfg env txn req src 415
  else
    match g.modem with
    | none => g.reply cfg env txn req src 503
    | some _ =>
      let contentType := (req.headers.get "content-type").getD "text/plain"
      let number := sanitizeNumber (target.user.getD [])
      if contains "json" contentType then (g.emit (.submitMms txn number req.body), true)
      else if !("text/plain" : Str).isPrefixOf contentType then g.reply cfg env txn req src 415
      else if number = [] then g.reply cfg env txn req src 484
      else (g.emit (.submitSms txn number req.bodyStr), true)

/-- `on_sip_request`. -/
def onSipRequest (g : State) (txn : Nat) (req : Request) (src : SocketAddr) : State × Bool :=
  match req.method with
  | .invite => g.onSipInvite cfg env txn req src
  | .ack => (g, true)
  | .bye => g.onSipBye cfg env txn req src
  | .cancel => g.onSipCancel cfg env txn req src
  | .info => g.onSipInfo cfg env txn req src
  | .message => g.onSipMessage cfg env txn req src
  | _ => g.respond env (some txn) req (g.response cfg env req 405) src

/-! ## Calls from the mobile network -/

/-- Our end of the dialog of a call from the mobile network. -/
def callerEnd (g : State) (caller : Str) : NameAddr :=
  let fromUser : Str := if caller = [] then ("anonymous" : Str) else caller
  ({ display := some caller
     uri := .new (some fromUser) cfg.core.domainName none
     params := [] } : NameAddr).withTag (env.random .dialogTag g.log.length)

/-- The INVITE of a call from the mobile network, with our offer. -/
def newInvite (g : State) (uri : Uri) (localEnd remoteEnd : NameAddr) (callId : Str)
    (cseq port : Nat) (dest : SocketAddr) : Request :=
  let sdp := Sdp.offer (g.now / 1000) (cfg.rtpAdvertisedIp dest) port (some cfg.dtmfPayloadType)
    cfg.periodMs
  let invite := g.buildRequest cfg env .invite uri localEnd remoteEnd callId cseq dest
  { invite with
    headers := (invite.headers.set "content-type" "application/sdp").set "allow" allowValue
    body := utf8 sdp.render }

@[simp] theorem newInvite_method (g : State) (uri : Uri) (localEnd remoteEnd : NameAddr)
    (callId : Str) (cseq port : Nat) (dest : SocketAddr) :
    (g.newInvite cfg env uri localEnd remoteEnd callId cseq port dest).method = .invite :=
  rfl

theorem newInvite_get (g : State) (uri : Uri) (localEnd remoteEnd : NameAddr) (callId : Str)
    (cseq port : Nat) (dest : SocketAddr) :
    let headers := (g.newInvite cfg env uri localEnd remoteEnd callId cseq port dest).headers
    headers.get "call-id" = some callId ∧ headers.get "cseq" = some (dec cseq ++ " INVITE") := by
  obtain ⟨hid, hseq⟩ := buildRequest_get cfg env g .invite uri localEnd remoteEnd callId cseq dest
  constructor
  · exact ((Headers.get_set ..).trans <| (if_neg (by decide)).trans <| (Headers.get_set ..).trans <|
      if_neg (by decide)).trans hid
  · exact ((Headers.get_set ..).trans <| (if_neg (by decide)).trans <| (Headers.get_set ..).trans <|
      if_neg (by decide)).trans hseq

/-- `start_sip_call`: send an INVITE to the configured target or the newest registration. -/
def startSipCall (g : State) (mmPath : Path) (info : CallInfo) : State × Bool :=
  match resolveTarget cfg env with
  | none => (g, false)
  | some (targetUri, targetAddr) =>
    match env.bindPort with
    | none => (g, false)
    | some port =>
      let caller := cfg.localNumber (sanitizeNumber info.number)
      let localEnd := g.callerEnd cfg env caller
      let ownNumber := cfg.ownNumberOf (g.modem.bind Modem.ownNumber)
      let remoteEnd := NameAddr.new (addressedToUs targetUri.bare ownNumber)
      let callId := env.random .callId g.log.length ++ "@modem2sip"
      let (cseq, g) := g.takeCseq
      let invite := g.newInvite cfg env (addressedToUs targetUri ownNumber) localEnd remoteEnd
        callId cseq port targetAddr
      match g.sendRequest env invite targetAddr with
      | (g, none) => (g, false)
      | (g, some clientTxn) =>
        let g := g.emit (.cdrStarted caller)
        let call : ActiveCall :=
          { role := .toSip
            mmPath := some mmPath
            peerNumber := caller
            callId
            localEnd
            remoteEnd
            remoteTarget := targetUri
            remoteAddr := targetAddr
            localCseq := cseq
            invite
            inviteSrc := none
            inviteTxn := none
            media := none
            rtpSocket := true
            localRtpPort := port
            codec := .pcmu
            remoteSdp := none
            mediaDtmfPt := none
            answered := false
            authRetried := false
            ringingSent := false
            earlyMedia := false
            dtmfViaModemFailed := false
            cdrId := env.startCall
            tasks := [.inviteResponse clientTxn (g.now + cfg.ringTimeoutSecs * 1000)] }
        ({ g with call := some call }, true)

/-- `on_mm_call_added`. -/
def onMmCallAdded (g : State) (path : Path) : State :=
  match g.modem with
  | none => g
  | some _ =>
    if g.call.bind ActiveCall.mmPath = some path then g
    else
      match env.callInfo with
      | none => g
      | some info =>
        if info.state = stateTerminated then g.emit (.deleteCall path)
        else if info.direction ≠ directionIncoming then g.emit (.hangup path)
        else if g.call.isSome then g.emit (.hangup path)
        else
          let (g, ok) := g.startSipCall cfg env path info
          if ok then g else g.emit (.hangup path)

/-- `on_modem_answered`: the network reports the call as connected. -/
def onModemAnswered (g : State) : State :=
  match g.call with
  | none => g
  | some c =>
    let confirm (g : State) : State :=
      let g := g.updateCall fun c ↦ { c with answered := true }
      match c.cdrId with
      | some id => g.emit (.cdrAnswered id)
      | none => g
    match c.role with
    | .fromSip =>
      let (g, ok) := g.respondWithMedia cfg env 200
      if !ok then g.teardownCall cfg env "answering the SIP caller failed" 500 else confirm g
    | .toSip => confirm g

/-- The code of the failure that the end of the mobile leg gives. -/
def terminatedCode (reason : Nat) (answered : Bool) : Nat :=
  if reason = reasonRefusedOrBusy then 486
  else if reason = reasonError ∨ reason = reasonAudioSetupFailed then 500
  else if answered then 200
  else 480

/-- `on_mm_call_state`. -/
def onMmCallState (g : State) (path : Path) (new : Int) (reason : Nat) : State :=
  match g.call.filter fun c ↦ c.mmPath == some path with
  | none => g
  | some c =>
    if new = stateRingingOut ∨ new = stateDialing then
      if c.role = .fromSip ∧ !c.ringingSent then
        if cfg.earlyMedia then
          let (g, ok) := g.startEarlyMedia cfg env
          if ok then g else g.sendProvisional cfg env 180
        else g.sendProvisional cfg env 180
      else g
    else if new = stateActive then
      if c.answered then g else g.onModemAnswered cfg env
    else if new = stateTerminated then
      g.teardownCall cfg env "the mobile call ended" (terminatedCode reason c.answered)
    else g

/-! ## Internal events -/

/-- `ack_failure`. -/
def ackFailure (g : State) (resp : Response) : State :=
  match g.call with
  | none => g
  | some c =>
    if c.role ≠ .toSip then g
    else
      let ack := inviteAs c .ack
      let headers :=
        match resp.headers.get "to" with
        | some recipient => ack.headers.set "to" recipient
        | none => ack.headers
      (g.sendRaw env { ack with headers } c.remoteAddr).1

/-- `refresh_via_branch`. -/
def refreshViaBranch (branch : Str) (h : Headers) : Headers :=
  match h.topVia with
  | some via => h.set "via" (via.setParam "branch" (some ("z9hG4bK" ++ branch))).show
  | none => h

/-- The INVITE that answers a challenge: a new branch and a new sequence number. -/
def authInvite (g : State) (c : ActiveCall) (up : Upstream) (challenge : Challenge) (field : Str)
    (cseq : Nat) : Request :=
  let creds := answer md5Hex (env.random .cnonce g.log.length) challenge up.username up.password
    Method.invite.asStr c.invite.uri.show c.invite.body 1
  let headers := c.invite.headers.set "cseq" (dec cseq ++ " INVITE")
  let headers := headers.set field creds.toHeader
  { c.invite with headers := refreshViaBranch (env.random .branch g.log.length) headers }

/-- `retry_invite_with_auth`: was the INVITE sent again? -/
def retryInviteWithAuth (g : State) (resp : Response) : State × Bool :=
  match g.call, cfg.register with
  | some c, some up =>
    if c.role ≠ .toSip || c.answered || c.authRetried then (g, false)
    else
      let (field, outField) : Str × Str :=
        if resp.code = 401 then ("www-authenticate", "authorization")
        else ("proxy-authenticate", "proxy-authorization")
      match ((resp.headers.getAll field).filterMap Challenge.parse).find? Challenge.isSupported with
      | none => (g, false)
      | some challenge =>
        let (cseq, g) := g.takeCseq
        let invite := g.authInvite md5Hex env c up challenge outField cseq
        match g.sendRequest env invite c.remoteAddr with
        | (g, none) => (g, false)
        | (g, some clientTxn) =>
          (g.updateCall fun c ↦
            { c with
              authRetried := true
              localCseq := cseq
              invite
              tasks := c.tasks ++
                [.inviteResponse clientTxn (g.now + cfg.ringTimeoutSecs * 1000)] }, true)
  | _, _ => (g, false)

/-- What the 2xx says about the peer: its tag, and where the dialog goes from now on. -/
def learnPeer (c : ActiveCall) (resp : Response) : ActiveCall :=
  let c := { c with remoteEnd := resp.headers.toAddr.getD c.remoteEnd }
  match resp.headers.contact.bind fun a ↦ (resolveUri env a.uri).map fun addr ↦ (a.uri, addr) with
  | some (uri, addr) => { c with remoteTarget := uri, remoteAddr := addr }
  | none => c

/-- `modem.accept` of the call's path, if there are a modem and a path. -/
def acceptMobile (g : State) : State × Bool :=
  match g.modem, g.call.bind ActiveCall.mmPath with
  | some _, some path => (g.emit (.accept path), env.acceptOk)
  | _, _ => (g, true)

/-- `on_sip_answered`: the INVITE we sent was answered with a 2xx. -/
def onSipAnswered (g : State) (resp : Response) : State :=
  match g.call with
  | none => g
  | some c =>
    let c := learnPeer env c resp
    let g := { g with call := some c }
    let (g, ok) := g.sendRaw env (g.buildAck cfg env c) c.remoteAddr
    if !ok then g
    else
      let g := g.updateCall fun c ↦ { c with answered := true }
      match (Sdp.parse resp.bodyStr).filter Sdp.hasMedia with
      | none => g.teardownCall cfg env "no media in the answer" 200
      | some sdp =>
        let g := g.updateCall fun c ↦
          { c with codec := sdp.negotiate.getD .pcmu, remoteSdp := some sdp }
        let (g, ok) := g.startMedia env (mediaAddr sdp)
        if !ok then g.teardownCall cfg env "media setup failed" 500
        else
          let (g, ok) := g.acceptMobile env
          if !ok then g.teardownCall cfg env "accept failed" 500
          else
            match c.cdrId with
            | some id => g.emit (.cdrAnswered id)
            | none => g

/-- `call_id_matches`. -/
def callIdMatches (g : State) (callId : Str) : Bool := g.call.any fun c ↦ c.callId == callId

/-- `on_internal` for a failed INVITE: acknowledge it, and give up unless it is a challenge that
can be answered. -/
def onSipFailed (g : State) (resp : Response) : State :=
  let g := g.ackFailure env resp
  let (g, retried) :=
    if resp.code = 401 ∨ resp.code = 407 then g.retryInviteWithAuth md5Hex cfg env resp
    else (g, false)
  if retried then g else g.hangupMobile.finishCall "sip rejected"

/-- `on_internal`. -/
def onInternal (g : State) : Internal → State
  | .sipProgress _ _ => g
  | .sipAnswered callId resp =>
    if g.callIdMatches callId then g.onSipAnswered cfg env resp else g
  | .sipFailed callId resp =>
    if g.callIdMatches callId then g.onSipFailed md5Hex cfg env resp else g
  | .earlyMediaAudio callId _ =>
    if g.callIdMatches callId then (g.upgradeToEarlyMedia cfg env).1 else g
  | .dtmf callId digit =>
    if g.callIdMatches callId then (g.deliverDtmf cfg env [digit]).1 else g
  | .smsRetry path attempt => g.emit (.sms path true attempt)
  | .dtmfFromModem callId digit =>
    if g.callIdMatches callId then g.sendDtmfInfo cfg env [digit] else g
  | .ringTimeout callId =>
    if g.callIdMatches callId then
      (g.cancelOutgoingInvite env).hangupMobile.finishCall "ring timeout"
    else g

/-! ## The watchdog -/

/-- Has the peer of this call been silent for too long? -/
def silentTooLong (now : Nat) (c : ActiveCall) (m : MediaSession) : Bool :=
  let peerSends := (c.remoteSdp.map fun s ↦ s.sendrecv.peerSends).getD true
  peerSends && cfg.timeoutSecs != 0 && decide (cfg.timeoutSecs * 1000 < m.silence now)

/-- `check_media`. -/
def checkMedia (g : State) : State :=
  match g.call with
  | none => g
  | some c =>
    match c.media with
    | none => g
    | some m =>
      if env.audioFailed then g.teardownCall cfg env "the modem audio stream died" 200
      else if silentTooLong cfg g.now c m then
        g.teardownCall cfg env "the SIP peer stopped sending RTP" 200
      else g

end State

end Modem2Sip.Gateway
