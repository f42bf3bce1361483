import Modem2Sip.Gateway.Handlers
import Modem2Sip.Lib.Prog

/-!
# Registering upstream

`sip/register.rs`, and the part of `sip/core.rs` that it rests on: the task that keeps the gateway
registered with a PBX.  What other tasks do in the meantime matters in one place, the sequence numbers,
which all requests of the gateway share.
-/

namespace Modem2Sip.Gateway.Register

open Text Net Sip

/-! ## The task -/

/-- `sip.register`. -/
structure Account extends Upstream where
  registrar : Str
  /-- In seconds. -/
  expires : Nat
  fromUser : Option Str
  contactUser : Option Str
deriving DecidableEq, Repr

inductive Call where
  | randomHex (bytes : Nat)
  | nextCseq
  | resolveUri (uri : Uri)
  /-- `send_request` and `final_response`. -/
  | exchange (req : Request) (dest : SocketAddr)
  | sleep (secs : Nat)
deriving DecidableEq, Repr

/-- What comes of a request: it cannot be sent, or there is no final response in time, or there is one. -/
abbrev Outcome : Type := Except Str (Option Response)

abbrev Call.Answer : Call → Type
  | .randomHex _ => Str
  | .nextCseq => Nat
  | .resolveUri _ => Except Str SocketAddr
  | .exchange _ _ => Outcome
  | .sleep _ => Unit

abbrev Task (α : Type) : Type := Prog Call Call.Answer α

abbrev Attempt (α : Type) : Type := ExceptT Str Task α

def Attempt.fail {α : Type} (e : Str) : Attempt α := ExceptT.mk (.done (.error e))

/-- A call that cannot fail. -/
def Attempt.ask (c : Call) : Attempt c.Answer := ExceptT.mk (.call c fun r ↦ .done (.ok r))

variable (md5Hex : List UInt8 → Str) (cfg : CoreConfig) (up : Account)

def answered (unanswered : Str) : Outcome → Except Str Response
  | .error e => .error e
  | .ok none => .error unanswered
  | .ok (some resp) => .ok resp

/-- A request, and what there is to say if no final response comes. -/
def exchange (req : Request) (dest : SocketAddr) (unanswered : Str) : Attempt Response :=
  ExceptT.mk (.call (Call.exchange req dest) fun outcome ↦ .done (answered unanswered outcome))

/-- The request again, with the answer to a challenge. -/
def authRequest (req : Request) (outField : Str) (creds : Credentials) (cseq : Nat) (branch : Str) :
    Request :=
  let headers := req.headers.set "cseq" (dec cseq ++ ' ' :: req.method.asStr)
  { req with headers := (State.refreshViaBranch branch headers).set outField creds.toHeader }

/-- Where a challenge is found, and where its answer is put. -/
def challengeFields (code : Nat) : Str × Str :=
  if code = 401 then ("www-authenticate", "authorization")
  else ("proxy-authenticate", "proxy-authorization")

/-- The first challenge of a response that can be answered. -/
def offered (resp : Response) : Option Challenge :=
  ((resp.headers.getAll (challengeFields resp.code).1).filterMap Challenge.parse).find?
    Challenge.isSupported

/-- The second half of `transact`, which answers one challenge if there are credentials. -/
def answerChallenge (req : Request) (dest : SocketAddr) (creds : Option (Str × Str)) (resp : Response) :
    Attempt Response :=
  if resp.code ≠ 401 ∧ resp.code ≠ 407 then pure resp
  else
    match creds with
    | none => pure resp
    | some (user, pass) =>
      match offered resp with
      | none =>
        Attempt.fail (dec resp.code ++ " with no digest challenge this gateway can answer (MD5 only)")
      | some challenge => do
        let cnonce ← Attempt.ask (Call.randomHex 8)
        let creds := answer md5Hex cnonce challenge user pass req.method.asStr req.uri.show req.body 1
        let cseq ← Attempt.ask Call.nextCseq
        let branch ← Attempt.ask (Call.randomHex 8)
        exchange (authRequest req (challengeFields resp.code).2 creds cseq branch) dest
          "no final response after authentication"

/-- `transact`. -/
def transact (req : Request) (dest : SocketAddr) (creds : Option (Str × Str)) : Attempt Response := do
  let resp ← exchange req dest ("no final response to " ++ req.method.asStr)
  answerChallenge md5Hex req dest creds resp

/-- The user of the address of record. -/
def Account.aorUser : Str := up.fromUser.getD up.username

/-- The contact that is registered. -/
def contactUri (dest : SocketAddr) : Uri :=
  (Uri.new (some (up.contactUser.getD up.aorUser)) (cfg.transport.advertisedIp dest).show
    (some cfg.transport.bound.port)).setParam "transport" (some "udp")

def registerRequest (registrar : Uri) (dest : SocketAddr) (callId localTag : Str) (expires cseq : Nat)
    (branch : Str) : Request :=
  let aor := Uri.new (some up.aorUser) registrar.host registrar.port
  let req := buildRequest cfg branch .register (.new none registrar.host registrar.port)
    ((NameAddr.new aor).withTag localTag) (.new aor) callId cseq dest false
  let headers := req.headers.set "contact" (NameAddr.new (contactUri cfg up dest)).show
  let headers := headers.set "expires" (dec expires)
  { req with
    headers := headers.set "allow" "INVITE, ACK, CANCEL, BYE, OPTIONS, INFO, MESSAGE" }

/-- The lifetime that a response grants our contact, of those that it lists. -/
def granted (ours : Uri) (expires : Nat) (resp : Response) : Nat :=
  let contact := ((resp.headers.getAll "contact").filterMap NameAddr.parse).find? fun c ↦
    c.uri.bare == ours
  let expiresOf := contact.bind fun c ↦ (c.param "expires").bind fun v ↦ parseU32 (trim v)
  (expiresOf.or ((resp.headers.get "expires").bind fun v ↦ parseU32 (trim v))).getD expires

/-- What a final response means: the lifetime that is granted, or that there is none; and what is
asked for from now on. -/
def verdict (ours : Uri) (expires : Nat) (resp : Response) : Except Str Nat × Nat :=
  if resp.code = 423 then
    let least := (resp.headers.get "min-expires").bind fun v ↦ parseU32 (trim v)
    match least.filter fun m ↦ expires < m with
    | none => (.error "423 Interval Too Brief without a usable Min-Expires", expires)
    | some m => (.error ("retrying with the registrar's minimum expiry of " ++ dec m ++ "s"), m)
  else if !resp.isSuccess then
    (.error ("registrar replied " ++ dec resp.code ++ ' ' :: resp.reason), expires)
  else if granted ours expires resp = 0 then
    (.error "registrar granted a zero lifetime", expires)
  else (.ok (granted ours expires resp), expires)

/-- `register_once`, up to the response. -/
def attempt (callId localTag : Str) (expires : Nat) : Attempt (SocketAddr × Response) := do
  match Uri.parse up.registrar with
  | none => Attempt.fail "invalid registrar URI"
  | some registrar =>
    let dest ← ExceptT.mk (Prog.ask (Call.resolveUri registrar))
    let cseq ← Attempt.ask Call.nextCseq
    let branch ← Attempt.ask (Call.randomHex 8)
    let req := registerRequest cfg up registrar dest callId localTag expires cseq branch
    let resp ← transact md5Hex req dest (some (up.username, up.password))
    pure (dest, resp)

/-- `register_once`: what came of it, and what is asked for from now on. -/
def registerOnce (callId localTag : Str) (expires : Nat) : Task (Except Str Nat × Nat) :=
  Prog.bind (attempt md5Hex cfg up callId localTag expires) fun outcome ↦
    .done (match outcome with
      | .error e => (.error e, expires)
      | .ok (dest, resp) => verdict (contactUri cfg up dest).bare expires resp)

/-- How long to wait before a registration is refreshed. -/
def refresh (granted : Nat) : Nat := min (max 5 (min (granted * 4 / 5) 3600)) (max (granted - 1) 1)

/-- Rounds of the loop of `run`, which has no end of its own. -/
def rounds (callId localTag : Str) : Nat → Nat → Nat → Task Unit
  | 0, _, _ => .done ()
  | n + 1, backoff, asked =>
    Prog.bind (registerOnce md5Hex cfg up callId localTag asked) fun r ↦
      match r.1 with
      | .ok granted => .call (Call.sleep (refresh granted)) fun _ ↦ rounds callId localTag n 2 r.2
      | .error _ =>
        .call (Call.sleep backoff) fun _ ↦ rounds callId localTag n (min (backoff * 2) 300) r.2

/-- `run`, as far as that many rounds. -/
def run (n : Nat) : Task Unit :=
  .call (Call.randomHex 10) fun id ↦ .call (Call.randomHex 6) fun localTag ↦
    rounds md5Hex cfg up (id ++ ("@modem2sip" : Str)) localTag n 2 up.expires

/-! ## What is said of a run -/

/-- The number that is handed out next, of those that are not yet cut to 32 bits.  Other tasks take numbers
too, at any moment. -/
def world : Prog.World Call Call.Answer Nat
  | s, .nextCseq, n, s' => ∃ k, s ≤ k ∧ n = k % 2 ^ 32 ∧ s' = k + 1
  | s, _, _, s' => s ≤ s'

/-- What has happened: all requests, those since the last pause with what came of them, the lifetime
that is asked for, and the failures since the last success. -/
structure Ledger where
  sent : List Request
  attempt : List (Request × SocketAddr × Outcome)
  asked : Nat
  failures : Nat

namespace Ledger

/-- The last response of an attempt decides. -/
def verdict (l : Ledger) : Except Str Nat × Nat :=
  match l.attempt.getLast? with
  | some (_, dest, .ok (some resp)) => Register.verdict (contactUri cfg up dest).bare l.asked resp
  | _ => (.error [], l.asked)

def record (l : Ledger) : Prog.Event Call Call.Answer → Ledger
  | ⟨.exchange req dest, outcome⟩ =>
    { l with sent := l.sent ++ [req], attempt := l.attempt ++ [(req, dest, outcome)] }
  | ⟨.sleep _, _⟩ =>
    { l with
      attempt := []
      asked := (l.verdict cfg up).2
      failures := if (l.verdict cfg up).1.isOk then 0 else l.failures + 1 }
  | _ => l

def after (l : Ledger) (es : List (Prog.Event Call Call.Answer)) : Ledger := es.foldl (record cfg up) l

end Ledger

/-- Two requests of one registration, the second of them later. -/
def Follows (s : Nat) (earlier req : Request) : Prop :=
  earlier.headers.get "call-id" = req.headers.get "call-id" ∧
    earlier.headers.get "from" = req.headers.get "from" ∧
    (s ≤ 2 ^ 32 → ∀ m n method method', earlier.headers.cseq = some (m, method) →
      req.headers.cseq = some (n, method') → m < n)

/-- What may be sent, once there were these requests since the last pause: credentials only to whom has
asked for them, and nothing after that. -/
def Answers (req : Request) (dest : SocketAddr) : List (Request × SocketAddr × Outcome) → Prop
  | [] => req.headers.get "authorization" = none ∧ req.headers.get "proxy-authorization" = none
  | [(_, dest', .ok (some resp))] =>
    dest' = dest ∧ (resp.code = 401 ∨ resp.code = 407) ∧ ∃ challenge cnonce,
      offered resp = some challenge ∧
        req.headers.get (challengeFields resp.code).2 = some (answer md5Hex cnonce challenge up.username
          up.password req.method.asStr req.uri.show req.body 1).toHeader
  | _ => False

/-- What the task may call for after what has happened. -/
def Conforms (l : Ledger) (s : Nat) : Call → Prop
  | .exchange req dest =>
    req.method = .register ∧ req.headers.get "expires" = some (dec l.asked) ∧
      (∃ n, req.headers.cseq = some (n, .register)) ∧ (∀ r ∈ l.sent, Follows s r req) ∧
      Answers md5Hex up req dest l.attempt
  | .sleep secs =>
    match (l.verdict cfg up).1 with
    | .ok g => 1 ≤ secs ∧ secs ≤ 3600 ∧ (2 ≤ g → secs < g) ∧ (6 ≤ g → 5 ≤ secs)
    | .error _ => secs = min (2 ^ (l.failures + 1)) 300
  | _ => True

/-! ## The requests -/

section Requests

variable {md5Hex cfg up}

theorem refreshViaBranch_get (branch : Str) (h : Headers) {name : Str}
    (hne : canonical "via" ≠ canonical name) : (State.refreshViaBranch branch h).get name = h.get name := by
  unfold State.refreshViaBranch
  split
  · rw [Headers.get_set, if_neg hne]
  · rfl

/-- What the answer to a challenge leaves as it is. -/
theorem authRequest_get (req : Request) {outField name : Str} (creds : Credentials) (cseq : Nat)
    (branch : Str) (hcseq : canonical "cseq" ≠ canonical name) (hvia : canonical "via" ≠ canonical name)
    (hout : canonical outField ≠ canonical name) :
    (authRequest req outField creds cseq branch).headers.get name = req.headers.get name := by
  unfold authRequest
  dsimp only
  rw [Headers.get_set, if_neg hout, refreshViaBranch_get branch _ hvia, Headers.get_set, if_neg hcseq]

/-- A request of a registration, with its number. -/
structure Registers (up : Account) (callId localTag : Str) (asked n : Nat) (req : Request) : Prop where
  method : req.method = .register
  callId : req.headers.get "call-id" = some callId
  sender : ∃ registrar : Uri, Uri.parse up.registrar = some registrar ∧ req.headers.get "from" =
    some ((NameAddr.new (Uri.new (some up.aorUser) registrar.host registrar.port)).withTag localTag).show
  expires : req.headers.get "expires" = some (dec asked)
  cseq : req.headers.cseq = some (n, .register)

theorem registers_registerRequest {registrar : Uri} (hparse : Uri.parse up.registrar = some registrar)
    (dest : SocketAddr) (callId localTag : Str) (asked : Nat) {n : Nat} (hn : n < 2 ^ 32) (branch : Str) :
    Registers up callId localTag asked n
      (registerRequest cfg up registrar dest callId localTag asked n branch) where
  method := rfl
  callId := by
    simp +decide only [registerRequest, buildRequest, Headers.get_set, if_true, if_false]
  sender := by
    refine ⟨registrar, hparse, ?_⟩
    simp +decide only [registerRequest, buildRequest, Headers.get_set, if_true, if_false]
  expires := by
    simp +decide only [registerRequest, Headers.get_set, if_true, if_false]
  cseq := by
    refine Headers.cseq_of_get ?_ hn
    simp +decide only [registerRequest, buildRequest, Headers.get_set, if_true, if_false]

/-- A request that answers no challenge brings no credentials. -/
theorem registerRequest_plain (registrar : Uri) (dest : SocketAddr) (callId localTag : Str)
    (asked n : Nat) (branch : Str) {name : Str} (h : name = "authorization" ∨ name = "proxy-authorization") :
    (registerRequest cfg up registrar dest callId localTag asked n branch).headers.get name = none := by
  rcases h with rfl | rfl
  · simp +decide only [registerRequest, buildRequest, Headers.get_set, Headers.get_push, if_false]
  · simp +decide only [registerRequest, buildRequest, Headers.get_set, Headers.get_push, if_false]

theorem Registers.authRequest {callId localTag : Str} {asked m n : Nat} {req : Request}
    (h : Registers up callId localTag asked m req) (hn : n < 2 ^ 32) (code : Nat) (creds : Credentials)
    (branch : Str) : Registers up callId localTag asked n
      (Register.authRequest req (challengeFields code).2 creds n branch) := by
  have hget {name : Str} (hcseq : canonical "cseq" ≠ canonical name)
      (hvia : canonical "via" ≠ canonical name) (hauth : canonical "authorization" ≠ canonical name)
      (hproxy : canonical "proxy-authorization" ≠ canonical name) :
      (Register.authRequest req (challengeFields code).2 creds n branch).headers.get name =
        req.headers.get name := by
    refine authRequest_get req creds n branch hcseq hvia ?_
    unfold challengeFields
    split
    · exact hauth
    · exact hproxy
  obtain ⟨registrar, hparse, hsender⟩ := h.sender
  refine ⟨h.method, ?_, ⟨registrar, hparse, ?_⟩, ?_, ?_⟩
  · rw [hget (by decide) (by decide) (by decide) (by decide), h.callId]
  · rw [hget (by decide) (by decide) (by decide) (by decide), hsender]
  · rw [hget (by decide) (by decide) (by decide) (by decide), h.expires]
  · refine Headers.cseq_of_get ?_ hn
    have hout : canonical (challengeFields code).2 ≠ canonical "cseq" := by
      unfold challengeFields
      split
      · decide
      · decide
    unfold Register.authRequest
    dsimp only
    rw [Headers.get_set, if_neg hout, refreshViaBranch_get branch _ (by decide), Headers.get_set_self,
      h.method]

end Requests

/-! ## One call after the other -/

/-- From here on the task calls for what it may. -/
abbrev Sound {α : Type} (p : Task α) (l : Ledger) (s : Nat) : Prop :=
  p.Obeys world (Ledger.record cfg up) (Conforms md5Hex cfg up) l s

section Steps

variable {md5Hex cfg up} {α : Type} {l : Ledger} {s s' n : Nat} {callId localTag : Str}

/-- All requests so far belong to this registration, and their numbers have been handed out. -/
def Inv (up : Account) (callId localTag : Str) (l : Ledger) (s : Nat) : Prop :=
  ∀ r ∈ l.sent, ∃ asked n, n < s ∧ Registers up callId localTag asked n r

theorem Inv.mono (h : Inv up callId localTag l s) (hs : s ≤ s') : Inv up callId localTag l s' := by
  intro r hr
  obtain ⟨asked, n, hn, hreg⟩ := h r hr
  exact ⟨asked, n, hn.trans_le hs, hreg⟩

/-- A number that was handed out after those of all requests so far. -/
structure Fresh (l : Ledger) (s n : Nat) : Prop where
  lt : n < s
  lt_pow : n < 2 ^ 32
  above : s ≤ 2 ^ 32 → ∀ r ∈ l.sent, ∀ m method, r.headers.cseq = some (m, method) → m < n

theorem Fresh.mono (h : Fresh l s n) (hs : s ≤ s') : Fresh l s' n where
  lt := h.lt.trans_le hs
  lt_pow := h.lt_pow
  above hle := h.above (hs.trans hle)

theorem Inv.fresh (h : Inv up callId localTag l s) (hn : world s .nextCseq n s') :
    Fresh l s' n ∧ Inv up callId localTag l s' := by
  obtain ⟨k, hk, rfl, rfl⟩ := hn
  refine ⟨⟨Nat.lt_succ_of_le (Nat.mod_le k _), Nat.mod_lt k (Nat.two_pow_pos 32), ?_⟩,
    h.mono (hk.trans (Nat.le_succ k))⟩
  intro hle r hr m method hcseq
  obtain ⟨_, m', hm, hreg⟩ := h r hr
  obtain ⟨rfl, -⟩ := Prod.mk.inj (Option.some.inj (hcseq.symm.trans hreg.cseq))
  rw [Nat.mod_eq_of_lt hle]
  exact hm.trans_le hk

/-- A request with a fresh number goes out. -/
theorem Sound.exchange {req : Request} {dest : SocketAddr} {k : Outcome → Task α}
    (hinv : Inv up callId localTag l s) (hreg : Registers up callId localTag l.asked n req)
    (hfresh : Fresh l s n) (hanswers : Answers md5Hex up req dest l.attempt)
    (hk : ∀ outcome s', Inv up callId localTag (l.record cfg up ⟨.exchange req dest, outcome⟩) s' →
      Sound md5Hex cfg up (k outcome) (l.record cfg up ⟨.exchange req dest, outcome⟩) s') :
    Sound md5Hex cfg up (.call (Call.exchange req dest) k) l s := by
  refine .call ⟨hreg.method, hreg.expires, ⟨n, hreg.cseq⟩, ?_, hanswers⟩ ?_
  · intro r hr
    obtain ⟨_, m, hm, hearlier⟩ := hinv r hr
    refine ⟨hearlier.callId.trans hreg.callId.symm, ?_, ?_⟩
    · obtain ⟨registrar, hparse, hsender⟩ := hearlier.sender
      obtain ⟨registrar', hparse', hsender'⟩ := hreg.sender
      obtain rfl := Option.some.inj (hparse.symm.trans hparse')
      exact hsender.trans hsender'.symm
    · intro hle m n' method method' hcseq hcseq'
      obtain ⟨rfl, -⟩ := Prod.mk.inj (Option.some.inj (hcseq'.symm.trans hreg.cseq))
      exact hfresh.above hle r hr m method hcseq
  · intro outcome s' hs
    refine hk outcome s' ?_
    intro r hr
    rcases List.mem_append.mp hr with hold | hnew
    · exact hinv.mono hs r hold
    · obtain rfl := List.mem_singleton.mp hnew
      exact ⟨l.asked, n, hfresh.lt.trans_le hs, hreg⟩

/-- What came of an attempt is what its last response says. -/
def Tells (cfg : CoreConfig) (up : Account) (l : Ledger) (dest : SocketAddr) : Except Str Response → Prop
  | .ok resp => l.verdict cfg up = verdict (contactUri cfg up dest).bare l.asked resp
  | .error _ => ∃ e, l.verdict cfg up = (.error e, l.asked)

theorem verdict_challenge (ours : Uri) (asked : Nat) {resp : Response}
    (h : resp.code = 401 ∨ resp.code = 407) : ∃ e, verdict ours asked resp = (.error e, asked) := by
  have hcode : resp.code ≠ 423 := by rcases h with h | h <;> rw [h] <;> decide
  have hsuccess : resp.isSuccess = false := by
    rcases h with h | h <;> rw [Response.isSuccess, h] <;> decide
  refine ⟨"registrar replied " ++ dec resp.code ++ ' ' :: resp.reason, ?_⟩
  rw [verdict, if_neg hcode, if_pos (by rw [hsuccess]; rfl)]

/-- The ledger after the requests of an attempt. -/
theorem tells_answered (cfg : CoreConfig) (up : Account) (l : Ledger) (req : Request) (dest : SocketAddr)
    (unanswered : Str) (outcome : Outcome) :
    Tells cfg up (l.record cfg up ⟨.exchange req dest, outcome⟩) dest (answered unanswered outcome) := by
  have hlast : (l.record cfg up ⟨.exchange req dest, outcome⟩).attempt.getLast? =
      some (req, dest, outcome) := List.getLast?_concat
  rcases outcome with e | _ | resp
  · exact ⟨_, by rw [Ledger.verdict, hlast]⟩
  · exact ⟨_, by rw [Ledger.verdict, hlast]⟩
  · change Ledger.verdict cfg up _ = _
    rw [Ledger.verdict, hlast]

/-- The second half of an attempt, after a first response. -/
theorem sound_answerChallenge {req : Request} {dest : SocketAddr} {resp : Response}
    {g : Except Str Response → Task α} (hattempt : l.attempt = [(req, dest, .ok (some resp))])
    (hinv : Inv up callId localTag l s) (hreg : Registers up callId localTag l.asked n req)
    (hg : ∀ r l' s', Inv up callId localTag l' s' → l'.asked = l.asked → l'.failures = l.failures →
      Tells cfg up l' dest r → Sound md5Hex cfg up (g r) l' s') :
    Sound md5Hex cfg up
      (Prog.bind (answerChallenge md5Hex req dest (some (up.username, up.password)) resp) g) l s := by
  have hverdict : l.verdict cfg up = verdict (contactUri cfg up dest).bare l.asked resp := by
    rw [Ledger.verdict, hattempt]
    rfl
  unfold answerChallenge
  by_cases hcode : resp.code ≠ 401 ∧ resp.code ≠ 407
  · rw [if_pos hcode]
    exact hg (.ok resp) l s hinv rfl rfl hverdict
  rw [if_neg hcode]
  replace hcode : resp.code = 401 ∨ resp.code = 407 := by omega
  dsimp only
  cases hoffered : offered resp with
  | none =>
      obtain ⟨e, he⟩ := verdict_challenge (contactUri cfg up dest).bare l.asked hcode
      exact hg (.error _) l s hinv rfl rfl ⟨e, hverdict.trans he⟩
  | some challenge =>
      refine .call trivial ?_
      intro cnonce s₁ hs₁
      refine .call trivial ?_
      intro cseq s₂ hs₂
      obtain ⟨hfresh, hinv₂⟩ := (hinv.mono hs₁).fresh hs₂
      refine .call trivial ?_
      intro branch s₃ hs₃
      refine Sound.exchange (hinv₂.mono hs₃) (hreg.authRequest hfresh.lt_pow resp.code _ branch)
        (hfresh.mono hs₃) ?_ ?_
      · change Answers md5Hex up _ dest l.attempt
        rw [hattempt]
        exact ⟨rfl, hcode, challenge, cnonce, hoffered, Headers.get_set_self _ _ _⟩
      · intro outcome s₄ hinv₄
        have htells := tells_answered cfg up l (authRequest req (challengeFields resp.code).2
          (answer md5Hex cnonce challenge up.username up.password req.method.asStr req.uri.show req.body 1)
          cseq branch) dest "no final response after authentication" outcome
        rcases outcome with e | _ | resp'
        · exact hg _ _ s₄ hinv₄ rfl rfl htells
        · exact hg _ _ s₄ hinv₄ rfl rfl htells
        · exact hg _ _ s₄ hinv₄ rfl rfl htells

/-- One transaction, with the request that it begins with. -/
theorem sound_transact {req : Request} {dest : SocketAddr} {g : Except Str Response → Task α}
    (hidle : l.attempt = []) (hinv : Inv up callId localTag l s)
    (hreg : Registers up callId localTag l.asked n req) (hfresh : Fresh l s n)
    (hplain : req.headers.get "authorization" = none ∧ req.headers.get "proxy-authorization" = none)
    (hg : ∀ r l' s', Inv up callId localTag l' s' → l'.asked = l.asked → l'.failures = l.failures →
      Tells cfg up l' dest r → Sound md5Hex cfg up (g r) l' s') :
    Sound md5Hex cfg up (Prog.bind (transact md5Hex req dest (some (up.username, up.password))) g) l s := by
  refine Sound.exchange hinv hreg hfresh (by rw [hidle]; exact hplain) ?_
  intro outcome s₁ hinv₁
  have htells := tells_answered cfg up l req dest ("no final response to " ++ req.method.asStr) outcome
  rcases outcome with e | _ | resp
  · exact hg _ _ s₁ hinv₁ rfl rfl htells
  · exact hg _ _ s₁ hinv₁ rfl rfl htells
  · refine sound_answerChallenge ?_ hinv₁ hreg hg
    change l.attempt ++ [(req, dest, .ok (some resp))] = _
    rw [hidle]
    rfl

/-- What follows a registration, whatever came of it. -/
abbrev Continues (md5Hex : List UInt8 → Str) (cfg : CoreConfig) (up : Account) (callId localTag : Str)
    (l : Ledger) (g : Except Str Nat × Nat → Task α) : Prop :=
  ∀ r l' s', Inv up callId localTag l' s' → l'.failures = l.failures → r.2 = (l'.verdict cfg up).2 →
    (∀ granted, r.1 = .ok granted ↔ (l'.verdict cfg up).1 = .ok granted) →
    Sound md5Hex cfg up (g r) l' s'

/-- The registrar was not asked. -/
theorem sound_unasked {g : Except Str Nat × Nat → Task α} {e : Str} (hidle : l.attempt = [])
    (hinv : Inv up callId localTag l s) (hg : Continues md5Hex cfg up callId localTag l g) :
    Sound md5Hex cfg up (g (.error e, l.asked)) l s := by
  have hverdict : l.verdict cfg up = (.error [], l.asked) := by
    rw [Ledger.verdict, hidle]
    rfl
  refine hg _ l s hinv rfl (hverdict ▸ rfl) ?_
  intro granted
  rw [hverdict]
  exact iff_of_false nofun nofun

/-- What came of a registration is what the ledger says. -/
theorem sound_registerOnce {g : Except Str Nat × Nat → Task α} (hidle : l.attempt = [])
    (hinv : Inv up callId localTag l s)
    (hg : Continues md5Hex cfg up callId localTag l g) :
    Sound md5Hex cfg up (Prog.bind (registerOnce md5Hex cfg up callId localTag l.asked) g) l s := by
  unfold registerOnce attempt
  cases hparse : Uri.parse up.registrar with
  | none => exact sound_unasked hidle hinv hg
  | some registrar =>
      refine .call trivial ?_
      intro resolved s₁ hs₁
      cases resolved with
      | error e => exact sound_unasked hidle (hinv.mono hs₁) hg
      | ok dest =>
          refine .call trivial ?_
          intro cseq s₂ hs₂
          obtain ⟨hfresh, hinv₂⟩ := (hinv.mono hs₁).fresh hs₂
          refine .call trivial ?_
          intro branch s₃ hs₃
          change Sound _ _ _ (Prog.bind (Prog.bind (Prog.bind (transact md5Hex _ dest _) _) _) g) _ _
          rw [Prog.bind_assoc, Prog.bind_assoc]
          refine sound_transact hidle (hinv₂.mono hs₃)
            (registers_registerRequest hparse dest callId localTag l.asked hfresh.lt_pow branch)
            (hfresh.mono hs₃)
            ⟨registerRequest_plain registrar dest callId localTag l.asked cseq branch (.inl rfl),
              registerRequest_plain registrar dest callId localTag l.asked cseq branch (.inr rfl)⟩ ?_
          intro r l' s' hinv' hasked hfailures htells
          cases r with
          | error e =>
              obtain ⟨e', he'⟩ := htells
              refine hg _ l' s' hinv' hfailures ?_ ?_
              · rw [he']
                exact hasked.symm
              · intro granted
                rw [he']
                exact iff_of_false nofun nofun
          | ok resp =>
              replace htells : l'.verdict cfg up = _ := htells
              refine hg _ l' s' hinv' hfailures ?_ ?_
              · rw [htells, hasked]
                rfl
              · intro granted
                rw [htells, hasked]
                rfl

/-- How long the task waits after so many failures. -/
theorem backoff_succ (failures : Nat) :
    min (min (2 ^ (failures + 1)) 300 * 2) 300 = min (2 ^ (failures + 1 + 1)) 300 := by
  rw [Nat.pow_succ 2 (failures + 1)]
  omega

theorem refresh_bounds (granted : Nat) : 1 ≤ refresh granted ∧ refresh granted ≤ 3600 ∧
    (2 ≤ granted → refresh granted < granted) ∧ (6 ≤ granted → 5 ≤ refresh granted) := by
  unfold refresh
  omega

/-- A round leaves behind what the next one begins with. -/
theorem sound_rounds (k : Nat) (hidle : l.attempt = []) (hinv : Inv up callId localTag l s) :
    Sound md5Hex cfg up
      (rounds md5Hex cfg up callId localTag k (min (2 ^ (l.failures + 1)) 300) l.asked) l s := by
  induction k generalizing l s with
  | zero => exact Prog.Obeys.done
  | succ k ih =>
      refine sound_registerOnce hidle hinv ?_
      rintro ⟨outcome, asked⟩ l' s' hinv' hfailures rfl houtcome
      cases outcome with
      | ok granted =>
          have hok := (houtcome granted).mp rfl
          refine .call ?_ ?_
          · change match (l'.verdict cfg up).1 with | .ok g => _ | .error _ => _
            rw [hok]
            exact refresh_bounds granted
          · intro _ s₁ hs₁
            have hnext := ih (l := l'.record cfg up ⟨.sleep (refresh granted), ()⟩) rfl (hinv'.mono hs₁)
            have hreset : (l'.record cfg up ⟨.sleep (refresh granted), ()⟩).failures = 0 := by
              change (if (l'.verdict cfg up).1.isOk then 0 else _) = 0
              rw [hok]
              rfl
            rw [hreset] at hnext
            exact hnext
      | error e =>
          obtain ⟨e', herror⟩ : ∃ e', (l'.verdict cfg up).1 = .error e' := by
            cases hverdict : (l'.verdict cfg up).1 with
            | error e' => exact ⟨e', rfl⟩
            | ok granted => cases (houtcome granted).mpr hverdict
          refine .call ?_ ?_
          · change match (l'.verdict cfg up).1 with | .ok g => _ | .error _ => _
            rw [herror]
            exact hfailures ▸ rfl
          · intro _ s₁ hs₁
            have hnext := ih
              (l := l'.record cfg up ⟨.sleep (min (2 ^ (l.failures + 1)) 300), ()⟩) rfl (hinv'.mono hs₁)
            have hfailed : (l'.record cfg up ⟨.sleep (min (2 ^ (l.failures + 1)) 300), ()⟩).failures =
                l.failures + 1 := by
              change (if (l'.verdict cfg up).1.isOk then 0 else l'.failures + 1) = _
              rw [herror, hfailures]
              rfl
            rw [hfailed, ← backoff_succ] at hnext
            exact hnext

/-- Whatever the registrar answers and whatever other tasks do, in every run, at every call.  The requests
share one Call-ID and one From, and each has a higher CSeq than those before it, as long as the numbers
last.  After a pause there is one request, or two if the first is answered with a challenge that can be
met; credentials are sent in the second only.  The lifetime asked for is raised by a registrar that has
a minimum, and by nothing else.  A pause is shorter than the lifetime that was granted and is never left
out; after failures the pauses double, up to five minutes. -/
theorem run_conforms (rounds s : Nat) :
    (run md5Hex cfg up rounds).AtCalls world
      (fun es c s' ↦ Conforms md5Hex cfg up (Ledger.after cfg up ⟨[], [], up.expires, 0⟩ es) s' c) s := by
  refine Prog.Obeys.call trivial ?_
  intro id s₁ hs₁
  refine Prog.Obeys.call trivial ?_
  intro localTag s₂ hs₂
  have hstart : Inv up (id ++ ("@modem2sip" : Str)) localTag ⟨[], [], up.expires, 0⟩ s₂ := by
    intro r hr
    cases hr
  exact sound_rounds rounds rfl hstart

end Steps

end Modem2Sip.Gateway.Register
