import Modem2Sip.Lib.Map
import Modem2Sip.Sip.Message

/-!
# Digest authentication

`sip/auth.rs`: the parameter list of a challenge and of credentials, the digest
over them, and the nonces that the gateway issues.  The hash itself is code from
outside the repository; here it is a parameter `md5Hex` from bytes to text.
-/

namespace Modem2Sip.Sip

open Text

/-- `HashMap<String, V>`. -/
abbrev StrMap (V : Type) := Map Str V

/-! ## Parameters -/

/-- The value of a parameter after its equals sign, and the text after it. -/
def parseParamValue (s : Str) : Str × Str :=
  match s.dropWhile isAsciiWhitespace with
  | '"' :: rest => (before '"' rest, (rest.dropWhile (· != '"')).drop 1)
  | s => (trim (before ',' s), s.dropWhile (· != ','))

/-- The loop of `parse_params`.  Each round consumes a name of at least one character, so a
fuel of the length of the text is enough. -/
def parseParamsFrom : Nat → Str → StrMap Str → StrMap Str
  | 0, _, out => out
  | fuel + 1, s, out =>
    let s := s.dropWhile fun c ↦ c == ',' || isAsciiWhitespace c
    let key := lower (trim (s.takeWhile fun c ↦ c != '=' && c != ','))
    if key = [] then out
    else
      match s.dropWhile fun c ↦ c != '=' && c != ',' with
      | '=' :: rest =>
        let (value, rest) := parseParamValue rest
        parseParamsFrom fuel rest (out.insert key value)
      | rest => parseParamsFrom fuel rest (out.insert key [])

/-- `key=value, key="value"`.  A later parameter replaces an earlier one of that name. -/
def parseParams (s : Str) : StrMap Str := parseParamsFrom s.length s .empty

theorem length_parseParamValue_le (s : Str) : (parseParamValue s).2.length ≤ s.length := by
  have hs : (s.dropWhile isAsciiWhitespace).length ≤ s.length :=
    (List.dropWhile_sublist _).length_le
  unfold parseParamValue
  split
  · rename_i rest h
    have hr : (rest.dropWhile (· != '"')).length ≤ rest.length :=
      (List.dropWhile_sublist _).length_le
    have : rest.length + 1 ≤ s.length := by simpa [h] using hs
    simp only [List.length_drop]
    omega
  · exact le_trans (List.dropWhile_sublist _).length_le hs

/-- A non-empty name means that a character was consumed. -/
private theorem length_dropWhile_lt {p : Char → Bool} {s : Str}
    (h : lower (trim (s.takeWhile p)) ≠ []) : (s.dropWhile p).length < s.length := by
  have hne : s.takeWhile p ≠ [] := by
    intro h0
    rw [h0] at h
    exact h rfl
  have hpos := List.length_pos_iff.mpr hne
  have hlen := congrArg List.length (List.takeWhile_append_dropWhile (p := p) (l := s))
  rw [List.length_append] at hlen
  omega

/-- A unit of fuel more than the length of the text changes nothing. -/
private theorem parseParamsFrom_succ {fuel : Nat} {s : Str} (out : StrMap Str)
    (h : s.length ≤ fuel) : parseParamsFrom (fuel + 1) s out = parseParamsFrom fuel s out := by
  induction fuel generalizing s out with
  | zero =>
      obtain rfl : s = [] := List.eq_nil_of_length_eq_zero (Nat.le_zero.mp h)
      rfl
  | succ fuel ih =>
      have hskip : (s.dropWhile fun c ↦ c == ',' || isAsciiWhitespace c).length ≤ s.length :=
        (List.dropWhile_sublist _).length_le
      rw [parseParamsFrom, parseParamsFrom]
      generalize s.dropWhile (fun c ↦ c == ',' || isAsciiWhitespace c) = s' at hskip
      dsimp only
      by_cases hkey : lower (trim (s'.takeWhile fun c ↦ c != '=' && c != ',')) = []
      · rw [if_pos hkey, if_pos hkey]
      · rw [if_neg hkey, if_neg hkey]
        have hlt := length_dropWhile_lt hkey
        generalize s'.dropWhile (fun c ↦ c != '=' && c != ',') = r at hlt
        split
        · rename_i rest
          have hv := length_parseParamValue_le rest
          rw [List.length_cons] at hlt
          exact ih _ (by omega)
        · exact ih _ (by omega)

/-- The fuel of `parseParams` is enough: more changes nothing. -/
theorem parseParamsFrom_fuel (n : Nat) (s : Str) (out : StrMap Str) :
    parseParamsFrom (s.length + n) s out = parseParamsFrom s.length s out := by
  induction n with
  | zero => rfl
  | succ n ih => rw [← Nat.add_assoc, parseParamsFrom_succ out (Nat.le_add_right ..), ih]

/-! ## Challenges and credentials -/

structure Challenge where
  realm : Str
  nonce : Str
  opaqueValue : Option Str
  qop : Option Str
  algorithm : Option Str
deriving DecidableEq, Repr

/-- The parameters of a header value, if its scheme is `Digest`. -/
def digestParams (value : Str) : Option (StrMap Str) := do
  let (scheme, rest) ← splitOnce isWhitespace (trim value)
  if eqIgnoreCase scheme "Digest" then some (parseParams rest) else none

namespace Challenge

/-- Only MD5 is implemented. -/
def isSupported (c : Challenge) : Bool :=
  match c.algorithm with
  | some a => eqIgnoreCase a "MD5" || eqIgnoreCase a "MD5-sess"
  | none => true

def parse (value : Str) : Option Challenge := do
  let params ← digestParams value
  some
    { realm := (params.get? "realm").getD []
      nonce := (params.get? "nonce").getD []
      opaqueValue := params.get? "opaque"
      qop := params.get? "qop"
      algorithm := params.get? "algorithm" }

end Challenge

structure Credentials where
  username : Str
  realm : Str
  nonce : Str
  uri : Str
  response : Str
  algorithm : Option Str
  cnonce : Option Str
  nc : Option Str
  qop : Option Str
  opaqueValue : Option Str
deriving DecidableEq, Repr

namespace Credentials

def parse (value : Str) : Option Credentials := do
  let p ← digestParams value
  some
    { username := (p.get? "username").getD []
      realm := (p.get? "realm").getD []
      nonce := (p.get? "nonce").getD []
      uri := (p.get? "uri").getD []
      response := (p.get? "response").getD []
      algorithm := p.get? "algorithm"
      cnonce := p.get? "cnonce"
      nc := p.get? "nc"
      qop := p.get? "qop"
      opaqueValue := p.get? "opaque" }

/-- `key="value"`. -/
def quoted (key value : Str) : Str := key ++ '=' :: '"' :: value ++ ['"']

def toHeader (c : Credentials) : Str :=
  "Digest " ++ quoted "username" c.username ++ ", " ++ quoted "realm" c.realm ++ ", " ++
    quoted "nonce" c.nonce ++ ", " ++ quoted "uri" c.uri ++ ", " ++
    quoted "response" c.response ++
    (match c.algorithm with | some a => ", algorithm=" ++ a | none => []) ++
    (match c.qop with
      | some q =>
        ", qop=" ++ q ++ (match c.nc with | some nc => ", nc=" ++ nc | none => []) ++
          (match c.cnonce with | some cn => ", " ++ quoted "cnonce" cn | none => [])
      | none => []) ++
    (match c.opaqueValue with | some o => ", " ++ quoted "opaque" o | none => [])

end Credentials

/-! ## The digest -/

section Digest

variable (md5Hex : List UInt8 → Str)

/-- Texts joined by colons. -/
def colons (parts : List Str) : Str := [':'].intercalate parts

def digestHa1 (username password realm nonce : Str) (cnonce algorithm : Option Str) : Str :=
  let ha1 := md5Hex (utf8 (colons [username, realm, password]))
  if algorithm.any (eqIgnoreCase · "MD5-sess") then
    md5Hex (utf8 (colons [ha1, nonce, cnonce.getD []]))
  else ha1

def digestHa2 (method uri : Str) (qop : Option Str) (body : List UInt8) : Str :=
  if qop.any (eqIgnoreCase · "auth-int") then
    md5Hex (utf8 (colons [method, uri, md5Hex body]))
  else md5Hex (utf8 (colons [method, uri]))

/-- The text that the final hash is over. -/
def digestInput (ha1 ha2 nonce : Str) (qop cnonce nc : Option Str) : Str :=
  match qop with
  | some q =>
    if q ≠ [] then colons [ha1, nonce, nc.getD "00000001", cnonce.getD [], q, ha2]
    else colons [ha1, nonce, ha2]
  | none => colons [ha1, nonce, ha2]

def digestResponse (username password realm nonce method uri : Str)
    (qop cnonce nc algorithm : Option Str) (body : List UInt8) : Str :=
  let ha1 := digestHa1 md5Hex username password realm nonce cnonce algorithm
  let ha2 := digestHa2 md5Hex method uri qop body
  md5Hex (utf8 (digestInput ha1 ha2 nonce qop cnonce nc))

/-- Client side: answer a challenge.  `cnonce` is what `random_hex(8)` gives. -/
def answer (cnonce : Str) (challenge : Challenge) (username password method uri : Str)
    (body : List UInt8) (ncValue : Nat) : Credentials :=
  let qop := challenge.qop.bind fun q ↦
    ((q.splitOn ',').map trim).find? (eqIgnoreCase · "auth")
  let cnonce := qop.map fun _ ↦ cnonce
  let nc := qop.map fun _ ↦ hexPad 8 ncValue
  { username
    realm := challenge.realm
    nonce := challenge.nonce
    uri
    response := digestResponse md5Hex username password challenge.realm challenge.nonce method uri
      qop cnonce nc challenge.algorithm body
    algorithm := challenge.algorithm
    cnonce
    nc
    qop
    opaqueValue := challenge.opaqueValue }

/-- The comparison of `verify`: equal lengths, and no differing bit. -/
def sameBytes (a b : List UInt8) : Bool :=
  a.length == b.length && (a.zip b).foldl (fun acc (x, y) ↦ acc ||| (x ^^^ y)) 0 == 0

/-- The comparison of `verify` is equality. -/
theorem sameBytes_iff (a b : List UInt8) : sameBytes a b = true ↔ a = b := by
  have hfold : ∀ (l : List (UInt8 × UInt8)) (acc : UInt8),
      l.foldl (fun acc (x, y) ↦ acc ||| (x ^^^ y)) acc = 0 ↔ acc = 0 ∧ ∀ p ∈ l, p.1 = p.2 := by
    intro l
    induction l with
    | nil => simp
    | cons p l ih =>
        intro acc
        rw [List.foldl_cons, ih]
        simp [and_assoc]
  unfold sameBytes
  rw [Bool.and_eq_true, beq_iff_eq, beq_iff_eq, hfold]
  constructor
  · rintro ⟨hlen, -, hall⟩
    exact List.ext_getElem hlen fun i ha hb ↦
      hall (a[i], b[i]) (List.mem_iff_getElem.mpr ⟨i, by simp [hlen]; omega, by simp⟩)
  · rintro rfl
    refine ⟨rfl, rfl, fun p hp ↦ ?_⟩
    obtain ⟨i, hi, rfl⟩ := List.mem_iff_getElem.mp hp
    simp

/-- Server side: check the digest of credentials. -/
def verify (creds : Credentials) (password method : Str) (body : List UInt8) : Bool :=
  let expected := digestResponse md5Hex creds.username password creds.realm creds.nonce method
    creds.uri creds.qop creds.cnonce creds.nc creds.algorithm body
  sameBytes (utf8 expected) (utf8 creds.response)

/-- `verify` accepts exactly the response that the digest gives. -/
theorem verify_iff {c : Credentials} {password method : Str} {body : List UInt8} :
    verify md5Hex c password method body = true ↔
      digestResponse md5Hex c.username password c.realm c.nonce method c.uri c.qop c.cnonce c.nc
        c.algorithm body = c.response := by
  rw [verify, sameBytes_iff, utf8_inj]

/-- A nonce is the time of its issue and a digest of it under the secret. -/
def issueNonce (secret : Str) (now : Int) : Str :=
  colons [decInt now, md5Hex (utf8 (colons [decInt now, secret]))]

/-- Was the nonce issued under this secret, in the last `maxAge` seconds? -/
def isValidNonce (secret : Str) (now : Int) (nonce : Str) (maxAge : Int) : Bool :=
  match splitAt ':' nonce with
  | none => false
  | some (ts, digest) =>
    match parseI64 ts with
    | none => false
    | some tsNum =>
      if md5Hex (utf8 (colons [decInt tsNum, secret])) ≠ digest then false
      else 0 ≤ now - tsNum && now - tsNum ≤ maxAge

theorem isValidNonce_iff {secret : Str} {now : Int} {nonce : Str} {maxAge : Int} :
    isValidNonce md5Hex secret now nonce maxAge = true ↔
      ∃ ts digest tsNum, splitAt ':' nonce = some (ts, digest) ∧ parseI64 ts = some tsNum ∧
        md5Hex (utf8 (colons [decInt tsNum, secret])) = digest ∧ tsNum ≤ now ∧
        now ≤ tsNum + maxAge := by
  unfold isValidNonce
  rcases splitAt ':' nonce with _ | ⟨ts, digest⟩
  · simp
  · rcases hts : parseI64 ts with _ | tsNum
    · simp [hts]
    · by_cases hd : md5Hex (utf8 (colons [decInt tsNum, secret])) = digest
      · simp [hts, hd]
        omega
      · simp [hts, hd]
        exact fun h ↦ absurd h.symm hd

end Digest

end Modem2Sip.Sip
