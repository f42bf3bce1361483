import Modem2Sip.Sip.Core
import Modem2Sip.Sip.Wire

/-!
# The server side of the SIP element

`sip/core.rs`, `sip/registrar.rs`: what `SipCore` does with the requests that reach its
socket.  A request is claimed for its transaction when it arrives and handled later by a
task of its own, so arrivals, handlers, the answers of the gateway, timers and `gc` may
come in any order.  Everything that is said on the wire or passed on is put on record in
`out`.
-/

namespace Modem2Sip.Sip

open Text Net

structure ServerConfig extends CoreConfig where
  /-- `sip.allow`. -/
  allow : List Str
  /-- `sip.options_reflect_modem`. -/
  optionsReflectModem : Bool
  /-- `sip.retry_after_secs`. -/
  retryAfterSecs : Nat

/-! ## Sources -/

/-- The bits that a prefix of that length keeps. -/
def prefixMask (width len : Nat) : BitVec width :=
  if len = 0 then 0 else BitVec.allOnes width <<< (width - len)

def ipMatches (rule : Str) (ip : IpAddr) : Bool :=
  let rule := trim rule
  match splitAt '/' rule with
  | some (net, len) =>
    match IpAddr.parse (trim net), parseU32 (trim len) with
    | some (.v4 n), some len =>
      match ip with
      | .v4 a => len ≤ 32 && n &&& prefixMask 32 len == a &&& prefixMask 32 len
      | .v6 _ => false
    | some (.v6 n), some len =>
      match ip with
      | .v4 _ => false
      | .v6 a => len ≤ 128 && n &&& prefixMask 128 len == a &&& prefixMask 128 len
    | _, _ => false
  | none =>
    match IpAddr.parse rule with
    | some r => r == ip
    | none => false

def ServerConfig.sourceAllowed (cfg : ServerConfig) (ip : IpAddr) : Bool :=
  cfg.allow.isEmpty || cfg.allow.any fun rule ↦ ipMatches rule ip

/-! ## Server transactions -/

/-- `TXN_LIFETIME`, in milliseconds. -/
def txnLifetime : Nat := 32 * 1000

/-- What is remembered of a request, so that a copy of it is not executed again. -/
inductive ServerTxn where
  | inProgress (since : Nat) (provisional : Option (List UInt8))
  | completed (bytes : List UInt8) (time : Nat)
deriving DecidableEq, Repr

def ServerTxn.started : ServerTxn → Nat
  | .inProgress since _ => since
  | .completed _ time => time

inductive Claim where
  /-- Not seen before, or long ago. -/
  | fresh
  /-- Still being handled. -/
  | inFlight (provisional : Option (List UInt8))
  | answered (bytes : List UInt8)
deriving DecidableEq, Repr

/-- What a copy of a known request gets. -/
def ServerTxn.claim : ServerTxn → Claim
  | .inProgress _ provisional => .inFlight provisional
  | .completed bytes _ => .answered bytes

abbrev ServerCache := StrMap ServerTxn

/-- The entry of a key, unless it is older than a transaction lasts. -/
def liveTxn (now : Nat) (cache : ServerCache) (key : Str) : Option ServerTxn :=
  (cache.get? key).filter fun txn ↦ now - txn.started < txnLifetime

def claimTxn (now : Nat) (cache : ServerCache) (key : Str) : Claim × ServerCache :=
  match liveTxn now cache key with
  | some txn => (txn.claim, cache)
  | none => (.fresh, cache.insert key (.inProgress now none))

/-- What `respond` leaves in the cache: a final response, or the latest provisional one of a
request that is being handled. -/
def cacheResponse (now : Nat) (cache : ServerCache) (key : Str) (code : Nat) (bytes : List UInt8) :
    ServerCache :=
  if 200 ≤ code then cache.insert key (.completed bytes now)
  else
    match cache.get? key with
    | some (.inProgress since _) => cache.insert key (.inProgress since (some bytes))
    | _ => cache

/-- The part of `gc` that concerns transactions. -/
def gcCache (now : Nat) (cache : ServerCache) : ServerCache :=
  if 64 < cache.size then cache.retain fun _ txn ↦ now - txn.started < txnLifetime else cache

/-- Identity of an INVITE and the ACK that confirms its 2xx. -/
def dialogKey (req : Request) : Option Str := do
  let callId ← req.headers.callId
  let (cseq, _) ← req.headers.cseq
  some (callId ++ '|' :: dec cseq)

/-- Identity of a transaction. -/
def txnKey (req : Request) : Option Str := do
  let branch ← req.headers.topVia.bind Via.branch
  let (cseq, _) ← req.headers.cseq
  some (branch ++ '|' :: dec cseq ++ '|' :: req.method.asStr)

/-! ## The registrar -/

/-- `MAX_REGISTER_EXPIRES`, in seconds. -/
def maxRegisterExpires : Nat := 3600

structure Binding where
  contact : NameAddr
  source : SocketAddr
  expiresAt : Nat
  registeredAt : Nat
deriving DecidableEq, Repr

abbrev Registrar := StrMap (List Binding)

namespace Registrar

/-- Add, refresh or, with `expires` 0, remove a binding. -/
def update (now : Nat) (m : Registrar) (aor : Str) (contact : NameAddr) (source : SocketAddr)
    (expires : Nat) : Registrar :=
  let kept := ((m.get? aor).getD []).filter fun b ↦
    b.contact.uri.bare.show != contact.uri.bare.show
  let list :=
    if 0 < expires then
      kept ++ [{ contact, source, expiresAt := now + expires * 1000, registeredAt := now }]
    else kept
  if list = [] then m.erase aor else m.insert aor list

def expire (now : Nat) (m : Registrar) : Registrar :=
  (m.mapVal fun list ↦ list.filter fun b ↦ now < b.expiresAt).retain fun _ list ↦ list != []

end Registrar

/-- `split_contacts`: the pieces between the commas that stand neither in quotes nor in angle
brackets. -/
def splitContactsFrom (inAngle inQuote : Bool) : Str → List Str
  | [] => [[]]
  | c :: s =>
    if c = '"' ∧ ¬ inAngle then (splitContactsFrom inAngle (!inQuote) s).modifyHead (c :: ·)
    else if c = '<' ∧ ¬ inQuote then (splitContactsFrom true inQuote s).modifyHead (c :: ·)
    else if c = '>' ∧ ¬ inQuote then (splitContactsFrom false inQuote s).modifyHead (c :: ·)
    else if c = ',' ∧ ¬ inAngle ∧ ¬ inQuote then [] :: splitContactsFrom inAngle inQuote s
    else (splitContactsFrom inAngle inQuote s).modifyHead (c :: ·)

def splitContacts (field : Str) : List Str :=
  ((splitContactsFrom false false field).map trim).filter (· != [])

/-! ## The state -/

/-- The task of `retransmit_until_acked`; `stopped` is the flag that it shares with
`pending_ack`. -/
structure Resend where
  key : Str
  bytes : List UInt8
  dest : SocketAddr
  stopped : Bool
  elapsed : Nat
  delay : Nat
  wakeAt : Nat
  done : Bool
deriving DecidableEq, Repr

/-- What the element does that can be seen from outside. -/
inductive Output where
  /-- A request is passed to its handler. -/
  | handle (req : Request) (src : SocketAddr)
  /-- A request is given to the gateway. -/
  | event (req : Request) (src : SocketAddr)
  /-- `respond`: a response is sent, and `key` is that of the transaction it belongs to. -/
  | response (key : Option Str) (code : Nat) (bytes : List UInt8) (dest : SocketAddr)
  /-- A response that was sent before is sent again. -/
  | replay (bytes : List UInt8) (dest : SocketAddr)
deriving DecidableEq, Repr

structure Server where
  now : Nat
  cache : ServerCache
  nonceSeen : NonceTable
  /-- `pending_ack`: which of `resends` still waits for the ACK of a dialog. -/
  pendingAck : StrMap Nat
  resends : List Resend
  registrar : Registrar
  /-- The handlers that have not run yet. -/
  tasks : List (Request × SocketAddr)
  modemReady : Bool
  out : List Output

namespace Server

def init : Server where
  now := 0
  cache := .empty
  nonceSeen := .empty
  pendingAck := .empty
  resends := []
  registrar := .empty
  tasks := []
  modemReady := false
  out := []

def emit (s : Server) (o : Output) : Server := { s with out := s.out ++ [o] }

/-- Set the flag that a retransmission task shares with `pending_ack`. -/
def stopResend (s : Server) (i : Nat) : Server :=
  { s with resends := s.resends.modify i fun r ↦ { r with stopped := true } }

/-! ## Responses -/

/-- Reflect the source in the first value of the topmost Via. -/
def annotateVia (src : SocketAddr) (headers : Headers) : Headers :=
  match headers.get "via" with
  | none => headers
  | some raw =>
    let (first, rest) := Uri.cut ',' raw
    match Via.parse first with
    | none => headers
    | some via =>
      let via := via.setParam "received" (some src.ip.show)
      let via := if via.hasParam "rport" then via.setParam "rport" (some (dec src.port)) else via
      headers.replaceFirst "via"
        (via.show ++ match rest with | some rest => ',' :: rest | none => [])

/-- The response as it is sent to `src`. -/
def complete (cfg : ServerConfig) (req : Request) (src : SocketAddr) (resp : Response) : Response :=
  let headers := annotateVia src resp.headers
  let headers :=
    if headers.get "contact" = none ∧ resp.code < 300 ∧ resp.code ≠ 100 then
      let ip := cfg.transport.advertisedIp src
      let c := Uri.new req.uri.user ip.show (some cfg.transport.bound.port)
      headers.set "contact" (NameAddr.new (c.setParam "transport" (some "udp"))).show
    else headers
  { resp with headers }

/-- Keep sending a 2xx answer to an INVITE; only the newest one of a dialog is repeated. -/
def retransmitUntilAcked (s : Server) (req : Request) (bytes : List UInt8) (dest : SocketAddr) :
    Server :=
  match dialogKey req with
  | none => s
  | some key =>
    let id := s.resends.length
    let s := match s.pendingAck.get? key with
      | some previous => s.stopResend previous
      | none => s
    { s with
      pendingAck := s.pendingAck.insert key id
      resends := s.resends ++
        [{ key, bytes, dest, stopped := false, elapsed := 0, delay := 500, wakeAt := s.now + 500,
           done := false }] }

section Parameters

variable (toUppercase : Char → Str) (md5Hex : List UInt8 → Str) (cfg : ServerConfig)

def respond (s : Server) (req : Request) (src : SocketAddr) (resp : Response) : Server :=
  let bytes := (complete cfg req src resp).encode toUppercase
  let s := match txnKey req with
    | some key => { s with cache := cacheResponse s.now s.cache key resp.code bytes }
    | none => s
  let s := if req.method = .invite ∧ resp.isSuccess then s.retransmitUntilAcked req bytes src else s
  s.emit (.response (txnKey req) resp.code bytes src)

/-- A retransmission task wakes up: it sends the answer unless it was acknowledged, and after
32 seconds it gives up. -/
def timer (s : Server) (i : Nat) : Server :=
  match s.resends[i]? with
  | none => s
  | some r =>
    if r.done ∨ s.now < r.wakeAt then s
    else if r.stopped then { s with resends := s.resends.set i { r with done := true } }
    else
      let elapsed := r.elapsed + r.delay
      let delay := min (r.delay * 2) 4000
      let s := s.emit (.replay r.bytes r.dest)
      if elapsed < 32 * 1000 then
        { s with resends := s.resends.set i { r with elapsed, delay, wakeAt := s.now + delay } }
      else
        { s with
          resends := s.resends.set i { r with elapsed, delay, done := true }
          pendingAck := if s.pendingAck.get? r.key = some i then s.pendingAck.erase r.key
            else s.pendingAck }

/-! ## Requests -/

/-- `on_request` up to the handler. -/
def arrive (s : Server) (req : Request) (src : SocketAddr) (tag : Str) : Server :=
  if !cfg.sourceAllowed src.ip then
    s.respond toUppercase cfg req src (makeResponse cfg.toCoreConfig tag req 403 none)
  else if req.method = .ack then
    let s := match dialogKey req with
      | none => s
      | some key =>
        match s.pendingAck.get? key with
        | none => s
        | some i => { s.stopResend i with pendingAck := s.pendingAck.erase key }
    { s with tasks := s.tasks ++ [(req, src)] }.emit (.handle req src)
  else
    match txnKey req with
    | none => { s with tasks := s.tasks ++ [(req, src)] }.emit (.handle req src)
    | some key =>
      match claimTxn s.now s.cache key with
      | (.answered bytes, _) => s.emit (.replay bytes src)
      | (.inFlight (some bytes), _) => s.emit (.replay bytes src)
      | (.inFlight none, _) => s
      | (.fresh, cache) =>
        { s with cache, tasks := s.tasks ++ [(req, src)] }.emit (.handle req src)

/-- Let the request through, or answer it with a challenge. -/
def authorised (s : Server) (req : Request) (src : SocketAddr) (tag : Str) : Bool × Server :=
  match checkAuth md5Hex cfg.toCoreConfig s.now tag s.nonceSeen req with
  | (seen, none) => (true, { s with nonceSeen := seen })
  | (seen, some resp) => (false, { s with nonceSeen := seen }.respond toUppercase cfg req src resp)

/-- The lifetime that a REGISTER asks for where a contact does not say its own. -/
def defaultExpires (req : Request) : Nat :=
  min (((req.headers.get "expires").bind fun v ↦ parseU32 (trim v)).getD maxRegisterExpires)
    maxRegisterExpires

/-- One entry of a Contact field of a REGISTER. -/
def registerContact (now : Nat) (aor : Str) (src : SocketAddr) (fallback : Nat) (m : Registrar)
    (raw : Str) : Registrar :=
  match NameAddr.parse raw with
  | none => m
  | some contact =>
    let expires := ((contact.param "expires").bind fun v ↦ parseU32 (trim v)).getD fallback
    m.update now aor contact src (min expires maxRegisterExpires)

/-- The registrar after a REGISTER. -/
def registerContacts (now : Nat) (m : Registrar) (aor : Str) (req : Request) (src : SocketAddr) :
    Registrar :=
  let contacts := req.headers.getAll "contact"
  let m : Registrar :=
    if contacts.any fun c ↦ trim c == ['*'] then m.erase aor
    else (contacts.flatMap splitContacts).foldl
      (registerContact now aor src (defaultExpires req)) m
  m.expire now

/-- The answer to a REGISTER, which lists the bindings and how long they last. -/
def registerResponse (now : Nat) (bindings : List Binding) (tag : Str) (req : Request) : Response :=
  let resp := makeResponse cfg.toCoreConfig tag req 200 none
  let headers := bindings.foldl (fun h b ↦
    h.push "contact" (b.contact.setParam "expires" (some (dec ((b.expiresAt - now) / 1000)))).show)
    resp.headers
  { resp with headers := headers.set "expires" (dec (defaultExpires req)) }

def handleRegister (s : Server) (req : Request) (src : SocketAddr) (tag : Str) : Server :=
  match s.authorised toUppercase md5Hex cfg req src tag with
  | (false, s) => s
  | (true, s) =>
    match req.headers.toAddr with
    | none => s.respond toUppercase cfg req src (makeResponse cfg.toCoreConfig tag req 400 none)
    | some addr =>
      let aor := addr.uri.bare.show
      let m := registerContacts s.now s.registrar aor req src
      { s with registrar := m }.respond toUppercase cfg req src
        (registerResponse cfg s.now ((m.get? aor).getD []) tag req)

/-- The methods that `Allow` names. -/
def allowValue : Str := "INVITE, ACK, CANCEL, BYE, OPTIONS, INFO, MESSAGE, REGISTER"

def handleOptions (s : Server) (req : Request) (src : SocketAddr) (tag : Str) : Server :=
  let resp :=
    if cfg.optionsReflectModem ∧ ¬ s.modemReady then
      let r := makeResponse cfg.toCoreConfig tag req 503 none
      let headers := r.headers.set "retry-after" (dec cfg.retryAfterSecs)
      { r with headers := headers.set "warning" "399 modem2sip \"modem not available\"" }
    else makeResponse cfg.toCoreConfig tag req 200 none
  let headers := resp.headers.set "allow" allowValue
  let headers := headers.set "accept" "application/sdp, text/plain, application/json"
  s.respond toUppercase cfg req src { resp with headers }

/-- The handler of a request. -/
def handle (s : Server) (req : Request) (src : SocketAddr) (tag : Str) : Server :=
  match req.method with
  | .register => s.handleRegister toUppercase md5Hex cfg req src tag
  | .options => s.handleOptions toUppercase cfg req src tag
  | .ack => s.emit (.event req src)
  | .invite | .bye | .cancel | .info | .message =>
    match s.authorised toUppercase md5Hex cfg req src tag with
    | (false, s) => s
    | (true, s) => s.emit (.event req src)
  | _ =>
    let resp := makeResponse cfg.toCoreConfig tag req 405 none
    s.respond toUppercase cfg req src
      { resp with headers := resp.headers.set "allow" allowValue }

/-! ## Runs -/

/-- What happens to the element.  `tag` is what `random_hex` gives where a To tag is needed. -/
inductive Event where
  | tick (ms : Nat)
  /-- A request is read from the socket. -/
  | request (req : Request) (src : SocketAddr) (tag : Str)
  /-- The handler of a request that was let through runs. -/
  | handle (i : Nat) (tag : Str)
  /-- The gateway answers a request. -/
  | respond (req : Request) (src : SocketAddr) (resp : Response)
  | timer (i : Nat)
  | gc
  | modem (ready : Bool)
deriving DecidableEq, Repr

def step (s : Server) : Event → Server
  | .tick ms => { s with now := s.now + ms }
  | .request req src tag => s.arrive toUppercase cfg req src tag
  | .handle i tag =>
    match s.tasks[i]? with
    | none => s
    | some (req, src) =>
      { s with tasks := s.tasks.eraseIdx i }.handle toUppercase md5Hex cfg req src tag
  | .respond req src resp => s.respond toUppercase cfg req src resp
  | .timer i => s.timer i
  | .gc => { s with cache := gcCache s.now s.cache, nonceSeen := gcNonces s.now s.nonceSeen }
  | .modem ready => { s with modemReady := ready }

end Parameters

end Server

end Modem2Sip.Sip
