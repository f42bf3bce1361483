import Modem2Sip.Sip.Auth

/-!
# The SIP element

`sip/core.rs`, `sip/transport.rs`: the parts of `SipCore` that decide what a
request may do and that fill in what the gateway sends.  Time is one clock in
milliseconds: `Instant` is its value, and the wall clock its seconds.
-/

namespace Modem2Sip.Sip

open Text Net

/-! ## Configuration and addresses -/

/-- `sip.auth`. -/
structure SipAuth where
  username : Str
  password : Str
deriving DecidableEq, Repr

/-- `Transport`: the bound socket, `sip.public_ip` and the routing table. -/
structure Transport where
  bound : SocketAddr
  publicIp : Option IpAddr
  localIpFor : SocketAddr → Option IpAddr

/-- The address to put in Via, Contact and SDP when talking to `dest`. -/
def Transport.advertisedIp (t : Transport) (dest : SocketAddr) : IpAddr :=
  match t.publicIp with
  | some ip => ip
  | none =>
    if !t.bound.ip.isUnspecified then t.bound.ip
    else (t.localIpFor dest).getD (.v4 (ofOctets 127 0 0 1))

/-- What `SipCore` is created with. -/
structure CoreConfig where
  auth : Option SipAuth
  domain : Option Str
  userAgent : Str
  transport : Transport
  /-- The secret of the nonce factory. -/
  secret : Str

def CoreConfig.domainName (cfg : CoreConfig) : Str :=
  cfg.domain.getD cfg.transport.bound.ip.show

/-- The wall clock of a moment, in seconds. -/
def wallSecs (now : Nat) : Int := (now / 1000 : Nat)

/-! ## Responses -/

/-- A response with the fields every response has.  `tag` is what `random_hex(6)` gives; it is
used when the response needs a To tag and the request brought none. -/
def makeResponse (cfg : CoreConfig) (tag : Str) (req : Request) (code : Nat)
    (reason : Option Str) : Response :=
  let resp := req.reply code (reason.getD (reasonPhrase code))
  let headers := resp.headers.set "user-agent" cfg.userAgent
  let headers :=
    if code ≠ 100 then
      match headers.toAddr.filter fun t ↦ t.tag.isNone with
      | some addr => headers.set "to" (addr.withTag tag).show
      | none => headers
    else headers
  { resp with headers }

@[simp] theorem makeResponse_code (cfg : CoreConfig) (tag : Str) (req : Request) (code : Nat)
    (reason : Option Str) : (makeResponse cfg tag req code reason).code = code := rfl

/-! ## Requests -/

/-- `build_request`; `branch` is what `random_hex(8)` gives. -/
def buildRequest (cfg : CoreConfig) (branch : Str) (method : Method) (requestUri : Uri)
    (sender recipient : NameAddr) (callId : Str) (cseq : Nat) (dest : SocketAddr)
    (withContact : Bool) : Request :=
  let ip := cfg.transport.advertisedIp dest
  let via := "SIP/2.0/UDP " ++ hostForWire ip.show ++ ':' :: dec cfg.transport.bound.port ++
    ";rport;branch=" ++ ("z9hG4bK" ++ branch)
  let headers := Headers.empty.push "via" via
  let headers := headers.set "max-forwards" "70"
  let headers := headers.set "from" sender.show
  let headers := headers.set "to" recipient.show
  let headers := headers.set "call-id" callId
  let headers := headers.set "cseq" (dec cseq ++ ' ' :: method.asStr)
  let headers :=
    if withContact then
      let contact := (Uri.new sender.uri.user ip.show (some cfg.transport.bound.port)).setParam
        "transport" (some "udp")
      headers.set "contact" (NameAddr.new contact).show
    else headers
  let headers := headers.set "user-agent" cfg.userAgent
  { method, uri := requestUri, headers, body := [] }

/-! ## Authentication -/

/-- `nonce_seen`: the highest count accepted for each nonce, and when the first was. -/
abbrev NonceTable := StrMap (Nat × Nat)

/-- The count that `claim_nonce` reads off the `nc` parameter. -/
def ncCount (nc : Option Str) : Nat :=
  (nc.bind fun v ↦ parseUnsigned 16 (2 ^ 32) (trim v)).getD 0

/-- Consume one use of the nonce in `creds`. -/
def claimNonce (now : Nat) (seen : NonceTable) (creds : Credentials) : Bool × NonceTable :=
  let nc := ncCount creds.nc
  match seen.get? creds.nonce with
  | some (highest, since) =>
    if highest < nc then (true, seen.insert creds.nonce (nc, since)) else (false, seen)
  | none => (true, seen.insert creds.nonce (nc, now))

/-- The part of `gc` that concerns nonces. -/
def gcNonces (now : Nat) (seen : NonceTable) : NonceTable :=
  if 64 < seen.size then seen.retain fun _ e ↦ now - e.2 < 600 * 1000 else seen

/-- The requests that `check_auth` lets through without looking at an Authorization field. -/
def authExempt (cfg : CoreConfig) (req : Request) : Bool :=
  cfg.auth.isNone || req.method == .cancel ||
    ((req.headers.toAddr.bind NameAddr.tag).isSome && (req.method == .bye || req.method == .info))

/-- The credentials that a request brings. -/
def provided (req : Request) : Option Credentials :=
  (req.headers.get "authorization").bind Credentials.parse

/-- Does the digest URI name what the request addresses? -/
def digestUriOk (req : Request) (uri : Str) : Bool :=
  match Uri.parse uri with
  | some u =>
    u.bare == req.uri.bare || req.headers.toAddr.any fun t ↦ u.bare == t.uri.bare
  | none => false

/-- Everything about credentials but the freshness of their nonce. -/
def credentialsOk (md5Hex : List UInt8 → Str) (cfg : CoreConfig) (auth : SipAuth) (req : Request)
    (c : Credentials) : Bool :=
  c.username == auth.username && c.realm == cfg.domainName && digestUriOk req c.uri &&
    verify md5Hex c auth.password req.method.asStr req.body

/-- The challenge that a refused request is answered with. -/
def challengeResponse (md5Hex : List UInt8 → Str) (cfg : CoreConfig) (now : Nat) (tag : Str)
    (req : Request) (stale : Bool) : Response :=
  let resp := makeResponse cfg tag req 401 none
  let value : Str := "Digest realm=\"" ++ cfg.domainName ++ "\", nonce=\"" ++
    issueNonce md5Hex cfg.secret (wallSecs now) ++ "\", algorithm=MD5, qop=\"auth\"" ++
    (if stale then (", stale=true" : Str) else [])
  { resp with headers := resp.headers.set "www-authenticate" value }

/-- `check_auth`: the request may proceed, or a response is sent instead.  The nonce is claimed
only for credentials that are right in every other respect. -/
def checkAuth (md5Hex : List UInt8 → Str) (cfg : CoreConfig) (now : Nat) (tag : Str)
    (seen : NonceTable) (req : Request) : NonceTable × Option Response :=
  match cfg.auth with
  | none => (seen, none)
  | some auth =>
    if authExempt cfg req then (seen, none)
    else
      match provided req with
      | none => (seen, some (challengeResponse md5Hex cfg now tag req false))
      | some c =>
        let credentialsOk := credentialsOk md5Hex cfg auth req c
        let nonceOk := isValidNonce md5Hex cfg.secret (wallSecs now) c.nonce 300
        let (fresh, seen) :=
          if credentialsOk && nonceOk then claimNonce now seen c else (false, seen)
        if credentialsOk && fresh then (seen, none)
        else (seen, some (challengeResponse md5Hex cfg now tag req (credentialsOk && !fresh)))

/-- What `claim_nonce` can do: it refuses and changes nothing, or it records the count, which is
the first one for this nonce or above the highest so far. -/
theorem claimNonce_cases {now : Nat} {seen seen' : NonceTable} {c : Credentials} {ok : Bool}
    (h : claimNonce now seen c = (ok, seen')) :
    (ok = true ∧ ∃ since, seen' = seen.insert c.nonce (ncCount c.nc, since) ∧
      (seen.get? c.nonce = none ∧ since = now ∨
        ∃ highest, seen.get? c.nonce = some (highest, since) ∧ highest < ncCount c.nc)) ∨
    (ok = false ∧ seen' = seen) := by
  unfold claimNonce at h
  dsimp only at h
  rcases hget : seen.get? c.nonce with _ | ⟨highest, since⟩
  · simp only [hget, Prod.mk.injEq] at h
    exact .inl ⟨h.1.symm, now, h.2.symm, .inl ⟨rfl, rfl⟩⟩
  · simp only [hget] at h
    by_cases hlt : highest < ncCount c.nc
    · rw [if_pos hlt] at h
      obtain ⟨rfl, rfl⟩ := Prod.mk.inj h
      exact .inl ⟨rfl, since, rfl, .inr ⟨highest, rfl, hlt⟩⟩
    · rw [if_neg hlt] at h
      obtain ⟨rfl, rfl⟩ := Prod.mk.inj h
      exact .inr ⟨rfl, rfl⟩

/-- What `check_auth` can do.  Either the request proceeds on its credentials, which are right,
name a nonce of ours that is young enough and bring a new count for it, and the nonce table
records the use; or the nonce table is as before, and the request is refused or exempt. -/
theorem checkAuth_cases {md5Hex : List UInt8 → Str} {cfg : CoreConfig} {now : Nat} {tag : Str}
    {seen seen' : NonceTable} {req : Request} {out : Option Response}
    (h : checkAuth md5Hex cfg now tag seen req = (seen', out)) :
    (∃ auth c, cfg.auth = some auth ∧ authExempt cfg req = false ∧ provided req = some c ∧
      credentialsOk md5Hex cfg auth req c = true ∧
      isValidNonce md5Hex cfg.secret (wallSecs now) c.nonce 300 = true ∧
      claimNonce now seen c = (true, seen') ∧ out = none) ∨
    (seen' = seen ∧ (out ≠ none ∨ authExempt cfg req = true)) := by
  unfold checkAuth at h
  split at h
  · rename_i hauth
    obtain ⟨rfl, rfl⟩ := Prod.mk.inj h
    exact .inr ⟨rfl, .inr (by simp [authExempt, hauth])⟩
  · rename_i auth hauth
    by_cases hexempt : authExempt cfg req = true
    · rw [if_pos hexempt] at h
      obtain ⟨rfl, rfl⟩ := Prod.mk.inj h
      exact .inr ⟨rfl, .inr hexempt⟩
    · rw [if_neg hexempt] at h
      rcases hc : provided req with _ | c
      · simp only [hc, Prod.mk.injEq] at h
        exact .inr ⟨h.1.symm, .inl (by simp [← h.2])⟩
      · simp only [hc] at h
        by_cases hok : credentialsOk md5Hex cfg auth req c = true
        · by_cases hnonce : isValidNonce md5Hex cfg.secret (wallSecs now) c.nonce 300 = true
          · rcases hclaim : claimNonce now seen c with ⟨_ | _, seen₁⟩
            · simp only [hok, hnonce, hclaim, Prod.mk.injEq, Bool.and_self, if_true, Bool.and_false,
                Bool.false_eq_true, if_false] at h
              obtain ⟨htrue, -⟩ | ⟨-, hseen⟩ := claimNonce_cases hclaim
              · cases htrue
              · exact .inr ⟨h.1 ▸ hseen, .inl (by simp [← h.2])⟩
            · simp only [hok, hnonce, hclaim, Prod.mk.injEq, Bool.and_self, if_true] at h
              exact .inl ⟨auth, c, hauth, by simpa using hexempt, rfl, hok, hnonce,
                by rw [hclaim, h.1], h.2.symm⟩
          · simp [hok, hnonce] at h
            exact .inr ⟨h.1.symm, .inl (by simp [← h.2])⟩
        · simp [hok] at h
          exact .inr ⟨h.1.symm, .inl (by simp [← h.2])⟩

end Modem2Sip.Sip
