import Modem2Sip.Lib.Run
import Modem2Sip.Sip.Core

/-!
# Replay of credentials

A nonce may be used again only with a higher count, so a request that was let
through is not let through a second time - as long as the count is one that its
digest covers.  `claim_nonce` reads the count off the `nc` parameter whatever the
digest is over, and there are three ways in which the two differ: without a `qop`
the digest is not over `nc` at all, with a `qop` and no `nc` it is over `00000001`
while the count is taken to be zero, and a colon inside `nc` moves the boundary
between it and `cnonce`.

The invariant of a run is about the pairs (nonce, response) already accepted: the
nonce is too old to be accepted again, or the nonce table holds a count for it
that is at least the one the accepted digest was over.  Eviction keeps it, because
an entry is kept for longer than a nonce is valid.
-/

namespace Modem2Sip.Sip.Replay

open Text Run

variable (md5Hex : List UInt8 → Str) (cfg : CoreConfig)

/-! ## Runs -/

inductive Event where
  /-- A request that reaches `check_auth`; `tag` is random. -/
  | request (req : Request) (tag : Str)
  /-- A pass of `gc`. -/
  | gc
  /-- The clock advances. -/
  | advance (ms : Nat)
deriving Repr

structure State where
  now : Nat
  seen : NonceTable
  /-- The pairs (nonce, response) of the requests let through on their credentials. -/
  accepted : List (Str × Str)

def start (now : Nat) : State where
  now := now
  seen := .empty
  accepted := []

/-- The pair that a request is let through on, unless it is exempt. -/
def reliedOn (req : Request) : Option (Str × Str) :=
  if authExempt cfg req then none else (provided req).map fun c ↦ (c.nonce, c.response)

def step (s : State) : Event → State
  | .request req tag =>
    match checkAuth md5Hex cfg s.now tag s.seen req with
    | (seen, none) => { s with seen, accepted := s.accepted ++ (reliedOn cfg req).toList }
    | (seen, some _) => { s with seen }
  | .gc => { s with seen := gcNonces s.now s.seen }
  | .advance ms => { s with now := s.now + ms }

/-- The count of these credentials is the one that their digest is over: without a `qop` there
is none, unless it is the first use of the nonce; with a `qop` it is given, and a colon in it
does not hide it. -/
def NcCovered (seen : NonceTable) (c : Credentials) : Prop :=
  if c.qop.getD [] = [] then seen.get? c.nonce = none ∨ ncCount c.nc = 0
  else c.nc ≠ none ∧ ncCount c.nc = ncCount (c.nc.map (before ':'))

instance (seen : NonceTable) (c : Credentials) : Decidable (NcCovered seen c) :=
  inferInstanceAs (Decidable (if c.qop.getD [] = [] then seen.get? c.nonce = none ∨ ncCount c.nc = 0
    else c.nc ≠ none ∧ ncCount c.nc = ncCount (c.nc.map (before ':'))))

/-- A request that comes with a right digest brings a count that the digest covers. -/
def Covered (s : State) : Event → Prop
  | .request req _ =>
    ∀ auth ∈ cfg.auth, ∀ c ∈ provided req, authExempt cfg req = false →
      verify md5Hex c auth.password req.method.asStr req.body = true → NcCovered s.seen c
  | _ => True

instance decidableCovered (s : State) : ∀ e, Decidable (Covered md5Hex cfg s e)
  | .request req _ =>
    inferInstanceAs (Decidable (∀ auth ∈ cfg.auth, ∀ c ∈ provided req, authExempt cfg req = false →
      verify md5Hex c auth.password req.method.asStr req.body = true → NcCovered s.seen c))
  | .gc => inferInstanceAs (Decidable True)
  | .advance _ => inferInstanceAs (Decidable True)

/-! ## What a digest binds -/

section Binding

variable {md5Hex}

theorem colons_cons (a b : Str) (parts : List Str) :
    colons (a :: b :: parts) = a ++ ':' :: colons (b :: parts) := by
  simp [colons, List.intercalate]

/-- Two texts that agree up to a colon agree before it and after it. -/
theorem append_colon_inj {a b x y : Str} (ha : ':' ∉ a) (hb : ':' ∉ b)
    (h : a ++ ':' :: x = b ++ ':' :: y) : a = b ∧ x = y := by
  have hab : a = b := by
    rw [← before_append_cons x ha, h, before_append_cons y hb]
  subst hab
  simpa using h

/-- Digests over different texts differ, and none contains a colon. -/
structure GoodHash (md5Hex : List UInt8 → Str) : Prop where
  injective : Function.Injective md5Hex
  no_colon : ∀ bytes, ':' ∉ md5Hex bytes

variable (hmd5 : GoodHash md5Hex)
include hmd5

theorem no_colon_ha1 (username password realm nonce : Str) (cnonce algorithm : Option Str) :
    ':' ∉ digestHa1 md5Hex username password realm nonce cnonce algorithm := by
  unfold digestHa1
  dsimp only
  split <;> exact hmd5.no_colon _

theorem no_colon_ha2 (method uri : Str) (qop : Option Str) (body : List UInt8) :
    ':' ∉ digestHa2 md5Hex method uri qop body := by
  unfold digestHa2
  split <;> exact hmd5.no_colon _

omit hmd5 in
theorem digestInput_of_qop {ha1 ha2 nonce : Str} {qop cnonce nc : Option Str}
    (h : qop.getD [] ≠ []) :
    digestInput ha1 ha2 nonce qop cnonce nc =
      ha1 ++ ':' :: (nonce ++ ':' :: (nc.getD "00000001" ++ ':' ::
        colons [cnonce.getD [], qop.getD [], ha2])) := by
  rcases qop with _ | q
  · exact absurd rfl h
  · simp only [Option.getD_some] at h
    simp [digestInput, h, colons_cons]

omit hmd5 in
theorem digestInput_of_no_qop {ha1 ha2 nonce : Str} {qop cnonce nc : Option Str}
    (h : qop.getD [] = []) :
    digestInput ha1 ha2 nonce qop cnonce nc = ha1 ++ ':' :: (nonce ++ ':' :: ha2) := by
  rcases qop with _ | q
  · simp [digestInput, colons_cons]; simp [colons]
  · simp only [Option.getD_some] at h
    simp [digestInput, h, colons_cons]; simp [colons]

/-- Two right digests with the same response under the same nonce agree on whether there is a
`qop`, and where there is one, on the count up to the first colon in it. -/
theorem before_nc_eq {c c' : Credentials} {password password' method method' : Str}
    {body body' : List UInt8}
    (h : verify md5Hex c password method body = true)
    (h' : verify md5Hex c' password' method' body' = true)
    (hnonce : c.nonce = c'.nonce) (hresp : c.response = c'.response)
    (hqop' : c'.qop.getD [] ≠ []) :
    c.qop.getD [] ≠ [] ∧
      before ':' (c.nc.getD "00000001") = before ':' (c'.nc.getD "00000001") := by
  rw [verify_iff] at h h'
  have hinput := utf8_injective (hmd5.injective (h.trans (hresp.trans h'.symm)))
  rw [digestInput_of_qop hqop', hnonce] at hinput
  by_cases hqop : c.qop.getD [] = []
  · rw [digestInput_of_no_qop hqop] at hinput
    have hrest := (append_colon_inj (no_colon_ha1 hmd5 _ _ _ _ _ _) (no_colon_ha1 hmd5 _ _ _ _ _ _) hinput).2
    have hha2 := List.append_cancel_left hrest
    -- The hash of the method and the URI would contain the colon after the count.
    have hcolon := no_colon_ha2 hmd5 method c.uri c.qop body
    rw [(List.cons_inj_right _).mp hha2] at hcolon
    exact absurd (by simp) hcolon
  · refine ⟨hqop, ?_⟩
    rw [digestInput_of_qop hqop] at hinput
    have hrest := (append_colon_inj (no_colon_ha1 hmd5 _ _ _ _ _ _) (no_colon_ha1 hmd5 _ _ _ _ _ _) hinput).2
    have hnc := (List.cons_inj_right _).mp (List.append_cancel_left hrest)
    rw [← before_append_sep, hnc, before_append_sep]

end Binding

/-! ## The invariant -/

/-- The nonce is not accepted any more, now or later. -/
def Expired (now : Nat) (nonce : Str) : Prop :=
  ∀ later, now ≤ later → isValidNonce md5Hex cfg.secret (wallSecs later) nonce 300 = false

/-- A digest with this response was checked, over a count of at most `highest`. -/
def Backed (nonce response : Str) (highest : Nat) : Prop :=
  ∃ c password method body, verify md5Hex c password method body = true ∧ c.nonce = nonce ∧
    c.response = response ∧
    (c.qop.getD [] ≠ [] → c.nc ≠ none ∧ ncCount c.nc = ncCount (c.nc.map (before ':'))) ∧
    ncCount c.nc ≤ highest

structure Inv (s : State) : Prop where
  nodup : s.accepted.Nodup
  /-- An entry was made while its nonce was valid. -/
  entry : ∀ nonce highest since, s.seen.get? nonce = some (highest, since) →
    since ≤ s.now ∧ isValidNonce md5Hex cfg.secret (wallSecs since) nonce 300 = true
  /-- An accepted pair cannot be accepted again. -/
  spent : ∀ p ∈ s.accepted, Expired md5Hex cfg s.now p.1 ∨
    ∃ highest since, s.seen.get? p.1 = some (highest, since) ∧ Backed md5Hex p.1 p.2 highest

/-- A nonce that is valid at a moment is not valid from 301 seconds later on. -/
theorem expired_of_valid {now later : Nat} {nonce : Str}
    (h : isValidNonce md5Hex cfg.secret (wallSecs now) nonce 300 = true)
    (hlater : now + 301 * 1000 ≤ later) : Expired md5Hex cfg later nonce := by
  intro later' hlater'
  by_contra hstill
  obtain ⟨ts, digest, tsNum, hsplit, hts, -, hle, -⟩ := (isValidNonce_iff md5Hex).mp h
  obtain ⟨ts', digest', tsNum', hsplit', hts', -, -, hage⟩ :=
    (isValidNonce_iff md5Hex).mp (by simpa using hstill)
  obtain ⟨rfl, rfl⟩ : ts = ts' ∧ digest = digest' := by
    simpa using hsplit.symm.trans hsplit'
  obtain rfl : tsNum = tsNum' := by simpa using hts.symm.trans hts'
  simp only [wallSecs] at hle hage
  omega

theorem Expired.mono {now later : Nat} {nonce : Str} (h : Expired md5Hex cfg now nonce)
    (hle : now ≤ later) : Expired md5Hex cfg later nonce :=
  fun later' hlater ↦ h later' (le_trans hle hlater)

theorem Backed.mono {nonce response : Str} {highest highest' : Nat}
    (h : Backed md5Hex nonce response highest) (hle : highest ≤ highest') :
    Backed md5Hex nonce response highest' := by
  obtain ⟨c, password, method, body, hverify, hnonce, hresp, hnc, hcount⟩ := h
  exact ⟨c, password, method, body, hverify, hnonce, hresp, hnc, hcount.trans hle⟩

/-- The count of a replay is not above the one that the replayed digest is over. -/
theorem backed_ncCount_le {md5Hex : List UInt8 → Str} (hmd5 : GoodHash md5Hex)
    {seen : NonceTable} {c : Credentials} {password method : Str} {body : List UInt8}
    {highest : Nat} (hverify : verify md5Hex c password method body = true)
    (hback : Backed md5Hex c.nonce c.response highest) (hcov : NcCovered seen c)
    (hseen : seen.get? c.nonce ≠ none) : ncCount c.nc ≤ highest := by
  obtain ⟨c₀, password₀, method₀, body₀, hverify₀, hnonce, hresp, hnc₀, hle⟩ := hback
  by_cases hqop : c.qop.getD [] = []
  · have hzero : ncCount c.nc = 0 := by
      simpa [NcCovered, hqop, hseen] using hcov
    omega
  · obtain ⟨hsome, hcount⟩ : c.nc ≠ none ∧ ncCount c.nc = ncCount (c.nc.map (before ':')) := by
      simpa [NcCovered, hqop] using hcov
    obtain ⟨hqop₀, hbefore⟩ := before_nc_eq hmd5 hverify₀ hverify hnonce hresp hqop
    obtain ⟨hsome₀, hcount₀⟩ := hnc₀ hqop₀
    obtain ⟨nc, hnc⟩ := Option.ne_none_iff_exists'.mp hsome
    obtain ⟨nc₀, hnc₀⟩ := Option.ne_none_iff_exists'.mp hsome₀
    have heq : ncCount c.nc = ncCount c₀.nc := by
      rw [hcount, hcount₀, hnc, hnc₀]
      simp only [hnc, hnc₀, Option.getD_some] at hbefore
      simp [hbefore]
    omega

theorem inv_start (now : Nat) : Inv md5Hex cfg (start now) where
  nodup := List.nodup_nil
  entry nonce highest since h := by simp [start] at h
  spent p hp := by simp [start] at hp

/-- Time alone only makes nonces older. -/
theorem inv_advance {s : State} (h : Inv md5Hex cfg s) (ms : Nat) :
    Inv md5Hex cfg (step md5Hex cfg s (.advance ms)) where
  nodup := h.nodup
  entry nonce highest since hget := by
    obtain ⟨hle, hvalid⟩ := h.entry nonce highest since hget
    exact ⟨le_trans hle (Nat.le_add_right ..), hvalid⟩
  spent p hp := by
    rcases h.spent p hp with hexp | hback
    · exact .inl (hexp.mono md5Hex cfg (Nat.le_add_right ..))
    · exact .inr hback

/-- What eviction leaves in the table was in it. -/
theorem get?_gcNonces_of_some {now : Nat} {seen : NonceTable} {nonce : Str} {e : Nat × Nat}
    (h : (gcNonces now seen).get? nonce = some e) : seen.get? nonce = some e := by
  unfold gcNonces at h
  split at h
  · rw [Map.get?_retain, Option.filter_eq_some_iff] at h
    exact h.1
  · exact h

/-- An entry that eviction takes out is ten minutes old. -/
theorem get?_gcNonces (now : Nat) {seen : NonceTable} {nonce : Str} {e : Nat × Nat}
    (h : seen.get? nonce = some e) :
    (gcNonces now seen).get? nonce = some e ∨ 600 * 1000 ≤ now - e.2 := by
  unfold gcNonces
  split
  · by_cases hold : now - e.2 < 600 * 1000
    · left
      rw [Map.get?_retain, h]
      simpa using hold
    · exact .inr (Nat.le_of_not_lt hold)
  · exact .inl h

theorem inv_gc {s : State} (h : Inv md5Hex cfg s) : Inv md5Hex cfg (step md5Hex cfg s .gc) where
  nodup := h.nodup
  entry nonce highest since hget := h.entry nonce highest since (get?_gcNonces_of_some hget)
  spent p hp := by
    rcases h.spent p hp with hexp | ⟨highest, since, hget, hback⟩
    · exact .inl hexp
    · rcases get?_gcNonces s.now hget with hkept | hold
      · exact .inr ⟨highest, since, hkept, hback⟩
      · obtain ⟨hle, hvalid⟩ := h.entry _ _ _ hget
        have hlater : since + 301 * 1000 ≤ s.now := by
          dsimp only at hold
          omega
        exact .inl (expired_of_valid md5Hex cfg hvalid hlater)

/-- A request that is let through on its credentials. -/
theorem inv_accept (hmd5 : GoodHash md5Hex) {s : State} (h : Inv md5Hex cfg s) {auth : SipAuth}
    {req : Request} {c : Credentials} {seen' : NonceTable}
    (hok : credentialsOk md5Hex cfg auth req c = true)
    (hvalid : isValidNonce md5Hex cfg.secret (wallSecs s.now) c.nonce 300 = true)
    (hclaim : claimNonce s.now s.seen c = (true, seen')) (hcov : NcCovered s.seen c) :
    Inv md5Hex cfg { s with seen := seen', accepted := s.accepted ++ [(c.nonce, c.response)] } := by
  have hverify : verify md5Hex c auth.password req.method.asStr req.body = true := by
    simp only [credentialsOk, Bool.and_eq_true] at hok
    exact hok.2
  obtain ⟨-, since, rfl, hnew⟩ | ⟨hfalse, -⟩ := claimNonce_cases hclaim
  swap
  · cases hfalse
  have hbacked : Backed md5Hex c.nonce c.response (ncCount c.nc) :=
    ⟨c, auth.password, req.method.asStr, req.body, hverify, rfl, rfl,
      fun hq ↦ by simpa [NcCovered, hq] using hcov, le_rfl⟩
  have hfresh : (c.nonce, c.response) ∉ s.accepted := by
    intro hmem
    rcases h.spent _ hmem with hexp | ⟨highest, since', hget, hback⟩
    · simp [hexp s.now le_rfl] at hvalid
    · rcases hnew with ⟨hnone, -⟩ | ⟨highest', hget', hlt⟩
      · simp [hnone] at hget
      · obtain ⟨rfl, -⟩ : highest' = highest ∧ since = since' := by
          simpa using hget'.symm.trans hget
        have hle := backed_ncCount_le hmd5 hverify hback hcov (by simp [hget])
        omega
  refine ⟨?_, ?_, ?_⟩
  · rw [List.nodup_append]
    refine ⟨h.nodup, List.nodup_singleton _, ?_⟩
    rintro p hp q hq rfl
    exact hfresh (List.mem_singleton.mp hq ▸ hp)
  · intro nonce highest since' hget
    rw [Map.get?_insert] at hget
    split at hget
    · rename_i heq
      subst heq
      obtain ⟨rfl, rfl⟩ : ncCount c.nc = highest ∧ since = since' := by simpa using hget
      rcases hnew with ⟨-, rfl⟩ | ⟨highest', hget', -⟩
      · exact ⟨le_rfl, hvalid⟩
      · exact h.entry _ _ _ hget'
    · exact h.entry _ _ _ hget
  · intro p hp
    rw [List.mem_append, List.mem_singleton] at hp
    rcases hp with hp | rfl
    · rcases h.spent p hp with hexp | ⟨highest, since', hget, hback⟩
      · exact .inl hexp
      · by_cases hnonce : p.1 = c.nonce
        · rcases hnew with ⟨hnone, -⟩ | ⟨highest', hget', hlt⟩
          · simp [← hnonce, hget] at hnone
          · obtain ⟨rfl, -⟩ : highest' = highest ∧ since = since' := by
              rw [hnonce] at hget
              simpa using hget'.symm.trans hget
            refine .inr ⟨ncCount c.nc, since, by simp [hnonce], hback.mono md5Hex ?_⟩
            exact hlt.le
        · refine .inr ⟨highest, since', ?_, hback⟩
          rw [Map.get?_insert, if_neg hnonce, hget]
    · exact .inr ⟨ncCount c.nc, since, by simp, hbacked⟩

/-- One step keeps the invariant, if its count is covered. -/
theorem inv_step (hmd5 : GoodHash md5Hex) (s : State) (e : Event) (h : Inv md5Hex cfg s)
    (hcov : Covered md5Hex cfg s e) : Inv md5Hex cfg (step md5Hex cfg s e) := by
  cases e with
  | gc => exact inv_gc md5Hex cfg h
  | advance ms => exact inv_advance md5Hex cfg h ms
  | request req tag =>
      rcases hcheck : checkAuth md5Hex cfg s.now tag s.seen req with ⟨seen', out⟩
      obtain ⟨auth, c, hauth, hexempt, hc, hok, hvalid, hclaim, rfl⟩ | ⟨rfl, hout⟩ :=
        checkAuth_cases hcheck
      · have hverify : verify md5Hex c auth.password req.method.asStr req.body = true := by
          simp only [credentialsOk, Bool.and_eq_true] at hok
          exact hok.2
        simp only [step, hcheck, reliedOn, hexempt, hc, Option.map_some, Option.toList_some,
          Bool.false_eq_true, if_false]
        exact inv_accept md5Hex cfg hmd5 h hok hvalid hclaim (hcov auth hauth c hc hexempt hverify)
      · rcases out with _ | resp
        · obtain hexempt : authExempt cfg req = true := by simpa using hout
          simpa [step, hcheck, reliedOn, hexempt] using h
        · simpa [step, hcheck] using h

/-- No run whose counts are covered lets two requests through on the same nonce and response. -/
theorem accepted_nodup (hmd5 : GoodHash md5Hex) (now : Nat) (es : List Event)
    (hrun : Guarded (step md5Hex cfg) (Covered md5Hex cfg) (start now) es) :
    (run (step md5Hex cfg) (start now) es).accepted.Nodup :=
  (hrun.invariant (inv_step md5Hex cfg hmd5) (inv_start md5Hex cfg now)).nodup

/-! ## A captured field -/

/-- A hash that agrees with a list of known digests, and is injective. -/
def tableHash (known : List (Str × Str)) (bytes : List UInt8) : Str :=
  match known.find? fun e ↦ utf8 e.1 == bytes with
  | some e => e.2
  | none => '-' :: bytes.map fun b ↦ Char.ofNat (b.toNat + 256)

private theorem toNat_ofNat_byte (b : UInt8) :
    (Char.ofNat (b.toNat + 256)).toNat = b.toNat + 256 := by
  have hvalid : (b.toNat + 256).isValidChar := .inl (by have := b.toNat_lt; omega)
  rw [Char.ofNat, dif_pos hvalid]
  rfl

theorem goodHash_tableHash {known : List (Str × Str)} (hnodup : (known.map Prod.snd).Nodup)
    (hplain : ∀ e ∈ known, ':' ∉ e.2 ∧ '-' ∉ e.2) : GoodHash (tableHash known) where
  injective a b h := by
    unfold tableHash at h
    rcases ha : known.find? fun e ↦ utf8 e.1 == a with _ | e <;>
      rcases hb : known.find? fun e ↦ utf8 e.1 == b with _ | f <;> simp only [ha, hb] at h
    · have hcode : Function.Injective fun b : UInt8 ↦ Char.ofNat (b.toNat + 256) := by
        intro x y hxy
        have hn := congrArg Char.toNat hxy
        simp only [toNat_ofNat_byte] at hn
        exact UInt8.toNat_inj.mp (by omega)
      exact hcode.list_map ((List.cons_inj_right _).mp h)
    · exact absurd (h ▸ List.mem_cons_self) (hplain f (List.mem_of_find?_eq_some hb)).2
    · exact absurd (h ▸ List.mem_cons_self) (hplain e (List.mem_of_find?_eq_some ha)).2
    · have hef : e = f := List.inj_on_of_nodup_map hnodup (List.mem_of_find?_eq_some ha)
        (List.mem_of_find?_eq_some hb) h
      subst hef
      have hea := List.find?_some ha
      have heb := List.find?_some hb
      simp only [beq_iff_eq] at hea heb
      rw [← hea, heb]
  no_colon bytes := by
    unfold tableHash
    split
    · rename_i e he
      exact (hplain e (List.mem_of_find?_eq_some he)).1
    · have hcode : ∀ b : UInt8, Char.ofNat (b.toNat + 256) ≠ ':' := by
        intro b h
        have hn := congrArg Char.toNat h
        rw [toNat_ofNat_byte] at hn
        exact absurd hn (by simp)
      simp only [List.mem_cons, List.mem_map, not_or, not_exists, not_and]
      exact ⟨by decide, fun b _ ↦ hcode b⟩

namespace Sample

/-- The digests that occur in the exchange below. -/
def known : List (Str × Str) :=
  [ ("1700000000:5ec7e7", "cc67f524fbb4bbe7d1b412f1e47765cc"),
    ("gateway:gw.local:s3cret", "1984a09356794950114c4675e2a22642"),
    ("INVITE:sip:+8210@gw.local", "97cce4e4929ee8051cd41c7bb3a45dd2"),
    ("1984a09356794950114c4675e2a22642:1700000000:cc67f524fbb4bbe7d1b412f1e47765cc:" ++
      "97cce4e4929ee8051cd41c7bb3a45dd2", "5ddf80890276dd4f89671c443c235c4b") ]

def config : CoreConfig where
  auth := some { username := "gateway", password := "s3cret" }
  domain := some "gw.local"
  userAgent := "modem2sip"
  transport :=
    { bound := { ip := .v4 0, port := 5060 }, publicIp := none, localIpFor := fun _ ↦ none }
  secret := "5ec7e7"

/-- An INVITE with digest credentials without `qop`, and `extra` after them. -/
def invite (extra : Str) : Request where
  method := .invite
  uri := .new (some "+8210") "gw.local" none
  headers := ⟨[ ("to", "<sip:+8210@gw.local>"),
    ("authorization", "Digest username=\"gateway\", realm=\"gw.local\", nonce=\"1700000000:" ++
      "cc67f524fbb4bbe7d1b412f1e47765cc\", uri=\"sip:+8210@gw.local\", " ++
      "response=\"5ddf80890276dd4f89671c443c235c4b\"" ++ extra) ]⟩
  body := []

theorem goodHash_known : GoodHash (tableHash known) :=
  goodHash_tableHash (by decide) (by decide)

end Sample

/-- A captured field is refused when it is sent again as it was, and accepted when a count is
added to it. -/
theorem replay_with_nc_accepted :
    GoodHash (tableHash Sample.known) ∧
      ¬ (run (step (tableHash Sample.known) Sample.config) (start 1700000001000)
        [.request (Sample.invite []) "t1", .request (Sample.invite ", nc=00000001") "t2"]
        ).accepted.Nodup :=
  ⟨Sample.goodHash_known, by decide +kernel⟩

/-- A run whose counts are covered: a request, the same request again, a pass of eviction. -/
theorem accepted_nodup_resent :
    (run (step (tableHash Sample.known) Sample.config) (start 1700000001000)
      [.request (Sample.invite []) "t1", .advance 500, .gc, .request (Sample.invite []) "t2"]
      ).accepted.Nodup :=
  accepted_nodup (tableHash Sample.known) Sample.config Sample.goodHash_known 1700000001000 _
    (by decide +kernel)

end Modem2Sip.Sip.Replay
