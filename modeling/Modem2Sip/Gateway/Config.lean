import Modem2Sip.Sip.Core
import Modem2Sip.Sip.Sdp

/-!
# Configuration and numbers

The settings that the call handling of `gateway.rs` reads, and the pure functions
on numbers and addresses that it calls: `sanitize_number`, `to_national`,
`addressed_to_us`, `media_address`, `parse_dtmf_info`.
-/

namespace Modem2Sip.Gateway

open Text Net Sip

/-- `rtp.dtmf_method`. -/
inductive DtmfMethod where
  | none
  | modem
  | inband
  | auto
deriving DecidableEq, Repr

/-- `sip.register`: the account whose password also answers challenges. -/
structure Upstream where
  username : Str
  password : Str
deriving DecidableEq, Repr

structure Config where
  core : CoreConfig
  /-- `sip.call_target`. -/
  callTarget : Option Str
  register : Option Upstream
  /-- `sip.early_media`. -/
  earlyMedia : Bool
  ringTimeoutSecs : Nat
  retryAfterSecs : Nat
  /-- `rtp.bind` and `rtp.public_ip`, validated at start-up. -/
  rtpBind : Option IpAddr
  rtpPublicIp : Option IpAddr
  dtmfPayloadType : Nat
  symmetric : Bool
  dtmfMethod : DtmfMethod
  dtmfToneMs : Nat
  dtmfGapMs : Nat
  /-- `rtp.timeout_secs`; zero turns the inactivity check off. -/
  timeoutSecs : Nat
  /-- `audio.period_ms`, which is also the packet time. -/
  periodMs : Nat
  ownNumber : Option Str
  countryCode : Option Str
  nationalPrefix : Str

/-! ## Numbers -/

/-- Digits, `*` and `#`, with a plus sign in front if there is one. -/
def sanitizeNumber (raw : Str) : Str :=
  let keep (c : Char) : Bool := ('0' ≤ c && c ≤ '9') || c == '*' || c == '#'
  match trim raw with
  | '+' :: rest => '+' :: rest.filter keep
  | s => s.filter keep

/-- A number as it is written in its country: the international prefix gives way to the
national one. -/
def toNational (number : Str) (countryCode : Option Str) (nationalPrefix : Str) : Str :=
  let number := trim number
  let dropPlus (s : Str) : Str := (stripPrefix ['+'] s).getD s
  match (countryCode.map fun c ↦ dropPlus (trim c)).filter (· != []) with
  | none => number
  | some cc =>
    match stripPrefix cc (dropPlus number) with
    | some rest => if rest ≠ [] then nationalPrefix ++ rest else number
    | none => number

def Config.localNumber (cfg : Config) (number : Str) : Str :=
  toNational number cfg.countryCode cfg.nationalPrefix

/-- The number of this line: as configured, else as the SIM reports it. -/
def Config.ownNumberOf (cfg : Config) (sim : Option Str) : Option Str :=
  let present (n : Option Str) : Option Str := n.filter fun n ↦ trim n != []
  ((present cfg.ownNumber).or (present sim)).map cfg.localNumber

/-- Address something that arrives from the mobile side to the line it arrived on. -/
def addressedToUs (target : Uri) (ownNumber : Option Str) : Uri :=
  match (ownNumber.map trim).filter (· != []) with
  | some number => { target with user := some number }
  | none => target

/-! ## Addresses -/

/-- Where the RTP socket is bound for a peer. -/
def Config.rtpBindIp (cfg : Config) (peer : SocketAddr) : IpAddr :=
  match cfg.rtpBind with
  | some ip => ip
  | none =>
    if cfg.core.transport.bound.ip.isUnspecified then cfg.core.transport.advertisedIp peer
    else cfg.core.transport.bound.ip

/-- The address of our own media in a session description. -/
def Config.rtpAdvertisedIp (cfg : Config) (peer : SocketAddr) : IpAddr :=
  match cfg.rtpPublicIp with
  | some ip => ip
  | none =>
    match cfg.rtpBind.filter fun ip ↦ !ip.isUnspecified with
    | some ip => ip
    | none => cfg.core.transport.advertisedIp peer

/-! ## Digits in INFO bodies -/

/-- `application/dtmf-relay` and `application/dtmf`.  `none` is for any other type, the empty
text for a relay body that names no signal. -/
def parseDtmfInfo (contentType body : Str) : Option Str :=
  let ct := lower contentType
  if contains "dtmf-relay" ct then
    some (((lines body).findSome? fun line ↦ do
      let (k, v) ← splitAt '=' line
      if eqIgnoreCase (trim k) "signal" then some (trim v) else none).getD [])
  else if contains "dtmf" ct then some (trim body)
  else none

example : sanitizeNumber "+82 10-1234-5678" = "+821012345678" := by decide

example : toNational "+821012345678" (some "+82") "0" = "01012345678" := by decide

end Modem2Sip.Gateway
