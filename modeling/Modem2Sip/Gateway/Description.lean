import Modem2Sip.Gateway.FinalResponse

/-!
# One session in the 183 and the 200

While a call from SIP rings, its caller may be sent descriptions of our media: a
183 when the network starts to play something, the same again for every repeat of
the INVITE, and in the end the 200.  Each is made anew, from the offer, from the
codec, port and address of the call, and from the clock.  `Terms` is all of that but
the clock; what the invariant `Told` says is that nothing changes the terms before
the call is answered, so that only the second of each description can differ.
-/

namespace Modem2Sip.Gateway

open Text Net Sip

variable (md5Hex : List UInt8 → Str) (cfg : Config) (env : Env)

/-! ## What an answer says -/

/-- What the answer to the INVITE of a call is made of, beside the configuration and the clock. -/
structure Terms where
  offer : Sdp
  advertised : IpAddr
  port : Nat
  codec : Codec

/-- The body of an answer that is made at `now`. -/
def Terms.body (t : Terms) (now : Nat) : List UInt8 :=
  utf8 (t.offer.answer (now / 1000) t.advertised t.port t.codec (some cfg.dtmfPayloadType)
    cfg.periodMs).render

/-- The second is all that tells two bodies apart. -/
theorem Terms.body_inj (t : Terms) {now now' : Nat} :
    t.body cfg now = t.body cfg now' ↔ now / 1000 = now' / 1000 :=
  utf8_inj.trans Sdp.render_answer_inj

/-- The terms of a call that waits for its answer. -/
def ActiveCall.terms (c : ActiveCall) : Option Terms :=
  if c.answered then none
  else c.remoteSdp.map fun offer ↦
    { offer, advertised := cfg.rtpAdvertisedIp c.remoteAddr, port := c.localRtpPort
      codec := c.codec }

def State.terms (g : State) : Option Terms := g.call.bind (ActiveCall.terms cfg)

/-- A response that describes a session, on the delivered request `n`. -/
def Entry.describes (n : Nat) : Entry → Option (List UInt8)
  | .respond (some t) _ resp _ =>
    if t = n ∧ (resp.code = 183 ∨ resp.code = 200) then some resp.body else none
  | _ => none

/-- The descriptions sent on the delivered request `n` and when, the oldest first. -/
def descriptions (n : Nat) (g : State) : List (Nat × List UInt8) :=
  g.log.filterMap fun e ↦ (e.2.describes n).map (e.1, ·)

section Terms

variable {g g' : State}

theorem State.terms_of_call {c : ActiveCall} (hc : g.call = some c) :
    g.terms cfg = c.terms cfg := by
  rw [terms, hc, Option.bind_some]

theorem State.terms_congr (h : g'.call = g.call) : g'.terms cfg = g.terms cfg := by
  rw [terms, h, terms]

theorem State.terms_updateCall {f : ActiveCall → ActiveCall}
    (hf : ∀ c, (f c).terms cfg = c.terms cfg) : (g.updateCall f).terms cfg = g.terms cfg := by
  rw [terms, updateCall_call, Option.bind_map, terms]
  exact congrArg g.call.bind (funext hf)

/-- A call that is answered has no terms to keep any more. -/
theorem State.terms_of_answered {l : Leg} (hl : g.leg = some l) (hans : l.answered = true) :
    g.terms cfg = none := by
  obtain ⟨c, hc, rfl⟩ := Option.map_eq_some_iff.mp hl
  rw [terms_of_call cfg hc]
  exact if_pos hans

theorem descriptions_eq_of_log {new : List (Nat × Entry)} (h : g'.log = g.log ++ new) (n : Nat) :
    descriptions n g' =
      descriptions n g ++ new.filterMap fun e ↦ (e.2.describes n).map (e.1, ·) := by
  rw [descriptions, h, List.filterMap_append, descriptions]

/-- What describes a session has the code of one, on that request. -/
theorem Entry.describes_eq_some {n : Nat} {e : Entry} {body : List UInt8}
    (h : e.describes n = some body) :
    ∃ req resp dest, e = .respond (some n) req resp dest ∧
      (resp.code = 183 ∨ resp.code = 200) ∧ resp.body = body := by
  cases e with
  | respond txn req resp dest =>
      cases txn with
      | none => exact absurd h nofun
      | some t =>
          obtain ⟨⟨rfl, hcode⟩, hbody⟩ := Option.ite_none_right_eq_some.mp h
          exact ⟨req, resp, dest, rfl, hcode, Option.some.inj hbody⟩
  | _ => exact absurd h nofun

/-- A request with nothing sent on it has no descriptions. -/
theorem descriptions_eq_nil {n : Nat} (h : ∀ k ∈ codes n g, k ≠ 183 ∧ k ≠ 200) :
    descriptions n g = [] := by
  refine List.filterMap_eq_nil_iff.mpr fun e he ↦ ?_
  cases hdesc : e.2.describes n with
  | none => rfl
  | some body =>
      obtain ⟨req, resp, dest, heq, hcode, -⟩ := Entry.describes_eq_some hdesc
      have hmem : resp.code ∈ codes n g :=
        List.mem_filterMap.mpr ⟨e, he, by rw [heq]; exact if_pos rfl⟩
      have := h _ hmem
      omega

/-- A steady handler whose responses on `n` describe nothing. -/
theorem Steady.descriptions {resp : Option Nat → Nat → Prop} {meth : Method → Prop}
    (h : Steady (Entry.Allowed resp meth) g g') {n : Nat}
    (hn : ∀ k, resp (some n) k → k ≠ 183 ∧ k ≠ 200) :
    descriptions n g' = descriptions n g := by
  obtain ⟨new, hlog, hnew⟩ := h.log
  rw [descriptions_eq_of_log hlog, List.filterMap_eq_nil_iff.mpr, List.append_nil]
  intro e he
  cases hdesc : e.2.describes n with
  | none => rfl
  | some body =>
      obtain ⟨req, r, dest, heq, hcode, -⟩ := Entry.describes_eq_some hdesc
      have hallowed := (hnew e he).2
      rw [heq] at hallowed
      have := hn _ hallowed
      omega

end Terms

/-! ## The handlers that keep the terms -/

namespace State

variable (g : State)

theorem sendRequest_call (req : Request) (dest : SocketAddr) :
    (g.sendRequest env req dest).1.call = g.call := by
  unfold sendRequest
  split <;> rfl

theorem sendInBackground_call (req : Request) (dest : SocketAddr) :
    (g.sendInBackground env req dest).call = g.call := by
  have hsent := g.sendRequest_call env req dest
  unfold sendInBackground
  split <;> rename_i hs <;> rw [hs] at hsent <;> exact hsent

theorem sendDtmfInfo_call (digit : Str) : (g.sendDtmfInfo cfg env digit).call = g.call := by
  unfold sendDtmfInfo
  split
  · rfl
  · exact sendInBackground_call ..

theorem playTones_call (digits : Str) : (g.playTones cfg env digits).1.call = g.call := by
  unfold playTones
  split
  · split <;> rfl
  · rfl

theorem deliverDtmf_terms (digits : Str) :
    (g.deliverDtmf cfg env digits).1.terms cfg = g.terms cfg := by
  have htones (g' : State) (h : g'.terms cfg = g.terms cfg) :
      (g'.playTones cfg env digits).1.terms cfg = g.terms cfg :=
    (terms_congr cfg (g'.playTones_call cfg env digits)).trans h
  unfold deliverDtmf
  split
  · rfl
  · dsimp only
    split
    · split
      · have hsend := terms_congr cfg (g.sendDtmf_call env ‹Path›
          (digits.filter fun c ↦ !isWhitespace c))
        split
        · exact hsend
        · split
          · exact hsend
          · refine htones _ (Eq.trans (terms_updateCall cfg ?_) hsend)
            intro c
            rfl
      · split
        · rfl
        · exact htones g rfl
    · exact htones g rfl

theorem startMedia_terms (remote : SocketAddr) :
    (g.startMedia env remote).1.terms cfg = g.terms cfg := by
  unfold startMedia
  split
  · rename_i c _ hc
    split
    · rfl
    · rw [terms_of_call cfg hc]
      rfl
  · rfl

theorem sendProvisional_terms (code : Nat) :
    (g.sendProvisional cfg env code).terms cfg = g.terms cfg := by
  unfold sendProvisional
  split
  · rfl
  · dsimp only
    refine (terms_congr cfg rfl).trans ?_
    split
    · exact terms_updateCall cfg fun _ ↦ rfl
    · rfl

theorem startEarlyMedia_terms : (g.startEarlyMedia cfg env).1.terms cfg = g.terms cfg := by
  have hopen : (g.openMediaForEarlyMedia env).1.terms cfg = g.terms cfg := by
    unfold openMediaForEarlyMedia
    split
    · rfl
    · split
      · rfl
      · split
        · rfl
        · exact g.startMedia_terms cfg env _
  have hring := ((g.openMediaForEarlyMedia env).1.sendProvisional_terms cfg env 180).trans hopen
  unfold startEarlyMedia
  dsimp only
  split
  · exact hopen
  · split
    · refine Eq.trans (terms_updateCall cfg ?_) hring
      intro c
      rfl
    · exact hring

/-- A description is made of the terms of the call, now. -/
theorem respondWithMedia_spec {c : ActiveCall} (hc : g.call = some c) (hans : c.answered = false)
    (code : Nat) :
    (g.respondWithMedia cfg env code).1.terms cfg = g.terms cfg ∧
      ∀ n, ∀ d ∈ descriptions n (g.respondWithMedia cfg env code).1, d ∈ descriptions n g ∨
        c.inviteTxn = some n ∧ ∃ t, g.terms cfg = some t ∧ d.2 = t.body cfg d.1 := by
  unfold respondWithMedia
  rw [hc]
  dsimp only
  cases hsdp : c.remoteSdp with
  | none => exact ⟨rfl, fun _ _ ↦ .inl⟩
  | some sdp =>
      dsimp only
      have hmedia : Steady Entry.Silent g
          (if c.media.isNone then g.startMedia env (mediaAddr sdp) else (g, true)).1 ∧
          (if c.media.isNone then g.startMedia env (mediaAddr sdp) else (g, true)).1.terms cfg =
            g.terms cfg := by
        split
        · exact ⟨g.startMedia_steady env _, g.startMedia_terms cfg env _⟩
        · exact ⟨.refl _ g, rfl⟩
      revert hmedia
      rcases (if c.media.isNone then g.startMedia env (mediaAddr sdp) else (g, true)) with ⟨g', ok⟩
      rintro ⟨hsteady, hterms⟩
      have hsame (n : Nat) : descriptions n g' = descriptions n g := hsteady.descriptions nofun
      cases ok with
      | false => exact ⟨hterms, fun n d hd ↦ .inl (hsame n ▸ hd)⟩
      | true =>
          refine ⟨(terms_congr cfg rfl).trans hterms, fun n d hd ↦ ?_⟩
          simp only [Bool.not_true, Bool.false_eq_true, if_false] at hd
          rw [descriptions_eq_of_log (g := g') rfl, hsame] at hd
          rcases List.mem_append.mp hd with hd | hd
          · exact .inl hd
          · right
            obtain ⟨e, he, hdesc⟩ := List.mem_filterMap.mp hd
            obtain rfl := List.mem_singleton.mp he
            obtain ⟨body, hbody, rfl⟩ := Option.map_eq_some_iff.mp hdesc
            obtain ⟨req, resp, dest, heq, -, rfl⟩ := Entry.describes_eq_some hbody
            obtain ⟨htxn, -, hresp, -⟩ := Entry.respond.inj heq
            refine ⟨htxn, ⟨sdp, cfg.rtpAdvertisedIp c.remoteAddr, c.localRtpPort, c.codec⟩, ?_, ?_⟩
            · rw [terms_of_call cfg hc, ActiveCall.terms, hans, hsdp]
              rfl
            · rw [← hresp]
              rfl

end State

/-! ## The invariant -/

/-- Nothing was sent on requests to come, and of every INVITE that got its 100 all descriptions
follow one set of terms. -/
structure Record (g : State) : Prop where
  fresh : ∀ n, g.nextTxn ≤ n → codes n g = []
  past : ∀ n, 100 ∈ codes n g → descriptions n g = [] ∨
    ∃ t : Terms, ∀ d ∈ descriptions n g, d.2 = t.body cfg d.1

/-- What was told so far about the call in the slot follows the terms that it still has. -/
structure Told (g : State) : Prop extends Record cfg g where
  owner : ∀ n, g.inviteTxn = some n → n < g.nextTxn
  toSip : ∀ l, g.leg = some l → l.role = .toSip → l.inviteTxn = none
  pending : ∀ n t, g.inviteTxn = some n → g.terms cfg = some t →
    ∀ d ∈ descriptions n g, d.2 = t.body cfg d.1

theorem told_init (now : Nat) : Told cfg (State.init now) where
  fresh _ _ := rfl
  past _ _ := .inl rfl
  owner _ h := absurd h nofun
  toSip _ h := absurd h nofun
  pending _ _ h := absurd h nofun

section Frame

variable {cfg} {g g' : State} {resp : Option Nat → Nat → Prop} {meth : Method → Prop}

/-- Who called, and with which request. -/
def Leg.invited (l : Leg) : Role × Option Nat := (l.role, l.inviteTxn)

/-- An entry that answers nothing. -/
def Entry.Mute (e : Entry) : Prop := ∀ n, e.codeOn n = none

theorem Entry.Mute.describes {e : Entry} (h : e.Mute) (n : Nat) : e.describes n = none := by
  cases hdesc : e.describes n with
  | none => rfl
  | some body =>
      obtain ⟨req, resp, dest, rfl, -⟩ := Entry.describes_eq_some hdesc
      exact absurd ((h n).symm.trans (if_pos rfl)) nofun

/-- A step that answers nothing and gives the call no new terms. -/
theorem Told.congr (ht : Told cfg g) (hleg : g'.leg.map Leg.invited = g.leg.map Leg.invited)
    (hnext : g.nextTxn ≤ g'.nextTxn)
    (hlog : ∃ new, g'.log = g.log ++ new ∧ ∀ e ∈ new, e.2.Mute)
    (hterms : ∀ n t, g.inviteTxn = some n → g'.terms cfg = some t → g.terms cfg = some t) :
    Told cfg g' := by
  obtain ⟨new, hlog, hmute⟩ := hlog
  have hcodes (n : Nat) : codes n g' = codes n g := by
    rw [codes_eq_of_log hlog, List.filterMap_eq_nil_iff.mpr fun e he ↦ hmute e he n,
      List.append_nil]
  have hdesc (n : Nat) : descriptions n g' = descriptions n g := by
    rw [descriptions_eq_of_log hlog, List.filterMap_eq_nil_iff.mpr, List.append_nil]
    intro e he
    rw [(hmute e he).describes]
    rfl
  have htxn : g'.inviteTxn = g.inviteTxn := by
    have hsnd (g : State) : g.inviteTxn = (g.leg.map Leg.invited).bind Prod.snd := by
      rw [State.inviteTxn, Option.bind_map]
      rfl
    rw [hsnd, hleg, ← hsnd]
  constructor
  · constructor
    · intro n hn
      rw [hcodes, ht.fresh n (hnext.trans hn)]
    · intro n hmem
      rw [hcodes] at hmem
      rw [hdesc]
      exact ht.past n hmem
  · intro n hn
    exact (ht.owner n (htxn ▸ hn)).trans_le hnext
  · intro l' hl' hrole
    obtain ⟨l, hl, heq⟩ := Option.map_eq_some_iff.mp
      (hleg.symm.trans (congrArg (Option.map Leg.invited) hl'))
    obtain ⟨hrole', htxn'⟩ := Prod.mk.inj heq
    exact htxn' ▸ ht.toSip l hl (hrole'.trans hrole)
  · intro n t hn hterm d hd
    rw [hdesc] at hd
    rw [htxn] at hn
    exact ht.pending n t hn (hterms n t hn hterm) d hd

/-- A change of the call that keeps its caller and gives it no new terms. -/
theorem Told.updateCall (ht : Told cfg g) {f : ActiveCall → ActiveCall}
    (hf : ∀ c, (f c).leg.invited = c.leg.invited)
    (hterms : ∀ c t, (f c).terms cfg = some t → c.terms cfg = some t) :
    Told cfg (g.updateCall f) := by
  refine ht.congr ?_ le_rfl ⟨[], by simp, by simp⟩ fun n t _ hterm ↦ ?_
  · rw [State.leg, State.leg, State.updateCall_call]
    cases g.call with
    | none => rfl
    | some c => exact congrArg some (hf c)
  · obtain ⟨c', hc', hterm⟩ := Option.bind_eq_some_iff.mp hterm
    obtain ⟨c, hc, rfl⟩ := Option.map_eq_some_iff.mp hc'
    exact (State.terms_of_call cfg hc).trans (hterms c t hterm)

theorem Record.of_steady (hr : Record cfg g) (h : Steady (Entry.Allowed resp meth) g g')
    (hlt : ∀ n k, resp (some n) k → n < g.nextTxn)
    (hother : ∀ n k, resp (some n) k → k ≠ 100 ∧ (100 ∈ codes n g → k ≠ 183 ∧ k ≠ 200)) :
    Record cfg g' where
  fresh := h.codes_fresh hlt hr.fresh
  past n hmem := by
    obtain ⟨new, hcodes, hnew⟩ := h.codes n
    rw [hcodes] at hmem
    rcases List.mem_append.mp hmem with hmem | hmem
    · rw [h.descriptions fun k hk ↦ (hother n k hk).2 hmem]
      exact hr.past n hmem
    · exact absurd rfl (hother n 100 (hnew 100 hmem)).1

theorem Told.of_steady (ht : Told cfg g) (h : Steady (Entry.Allowed resp meth) g g')
    (hlt : ∀ n k, resp (some n) k → n < g.nextTxn)
    (hother : ∀ n k, resp (some n) k → k ≠ 100 ∧ (100 ∈ codes n g → k ≠ 183 ∧ k ≠ 200))
    (hcall : ∀ n k, resp (some n) k → g.inviteTxn = some n → k ≠ 183 ∧ k ≠ 200)
    (hterms : ∀ n t, g.inviteTxn = some n → g'.terms cfg = some t → g.terms cfg = some t) :
    Told cfg g' := by
  have htxn : g'.inviteTxn = g.inviteTxn := by rw [State.inviteTxn, h.leg, State.inviteTxn]
  refine ⟨ht.toRecord.of_steady h hlt hother, ?_, h.leg ▸ ht.toSip, fun n t hn hterm d hd ↦ ?_⟩
  · rw [htxn, h.nextTxn]
    exact ht.owner
  · rw [htxn] at hn
    rw [h.descriptions fun k hk ↦ hcall n k hk hn] at hd
    exact ht.pending n t hn (hterms n t hn hterm) d hd

/-- A handler that answers nothing. -/
theorem Told.sends (ht : Told cfg g) (h : Steady (Entry.Sends meth) g g')
    (hterms : g'.terms cfg = g.terms cfg) : Told cfg g' :=
  ht.of_steady h (fun _ _ ↦ False.elim) (fun _ _ ↦ False.elim) (fun _ _ ↦ False.elim)
    fun _ _ _ h ↦ hterms ▸ h

theorem Told.emit (ht : Told cfg g) {e : Entry} (he : e.Silent) : Told cfg (g.emit e) :=
  ht.sends (.emit g he) rfl

/-- The caller is told that it rings. -/
theorem Told.rings (ht : Told cfg g) (h : Steady (Entry.Answers g.inviteTxn (· = 180)) g g')
    (hterms : g'.terms cfg = g.terms cfg) : Told cfg g' := by
  refine ht.of_steady h ?_ ?_ ?_ fun _ _ _ h ↦ hterms ▸ h
  · rintro n k ⟨hn, -⟩
    exact ht.owner n hn.symm
  · rintro n k ⟨-, rfl⟩
    exact ⟨by decide, fun _ ↦ by decide⟩
  · rintro n k ⟨-, rfl⟩ -
    decide

/-- A final response to the request that is being handled. -/
theorem Told.reply {txn : Nat} (ht : Told cfg g) (hnew : IsNew g txn)
    (h : Steady (Entry.Answers (some txn) (200 ≤ ·)) g g')
    (hterms : ∀ n t, g.inviteTxn = some n → g'.terms cfg = some t → g.terms cfg = some t) :
    Told cfg g' := by
  refine ht.of_steady h ?_ ?_ ?_ hterms
  · rintro n k ⟨hn, -⟩
    exact Option.some.inj hn ▸ hnew.lt
  · rintro n k ⟨hn, hk⟩
    obtain rfl := Option.some.inj hn
    exact ⟨by omega, fun hmem ↦ absurd (hnew.codes ▸ hmem) List.not_mem_nil⟩
  · rintro n k ⟨hn, -⟩ htxn
    obtain rfl := Option.some.inj hn
    exact absurd htxn hnew.ne

/-! ## The end of a call -/

/-- With no call in the slot, only the record counts. -/
theorem Record.idle (hr : Record cfg g) (hleg : g.leg = none) : Told cfg g := by
  have htxn : g.inviteTxn = none := by rw [State.inviteTxn, hleg, Option.bind_none]
  refine ⟨hr, ?_, ?_, ?_⟩
  · intro n hn
    cases htxn.symm.trans hn
  · intro l hl
    cases hleg.symm.trans hl
  · intro n t hn
    cases htxn.symm.trans hn

theorem Record.finishCall (hr : Record cfg g) (disposition : Str) :
    Told cfg (g.finishCall disposition) := by
  have hlog : ∃ new, (g.finishCall disposition).log = g.log ++ new ∧ ∀ e ∈ new, e.2.Mute := by
    cases hc : g.call with
    | none => exact ⟨[], by simp [State.finishCall, hc], by simp⟩
    | some c => exact ⟨_, g.finishCall_log hc disposition, by simp [Entry.Mute, Entry.codeOn]⟩
  have hleg : (g.finishCall disposition).leg = none := by simp [State.leg]
  have hidle : Record cfg { g with call := none } := ⟨hr.fresh, hr.past⟩
  refine (hidle.idle rfl).congr (by rw [hleg]; rfl) (g.finishCall_nextTxn disposition).ge hlog ?_
  intro _ _ h
  cases h

/-- A failure for the caller, and the call leaves its slot. -/
theorem Told.respond_finishCall {c : ActiveCall} (ht : Told cfg g) (hc : g.call = some c)
    {r : Response} (hcode : 400 ≤ r.code) (req : Request) (dest : SocketAddr) (disposition : Str) :
    Told cfg ((g.respond env c.inviteTxn req r dest).1.hangupMobile.finishCall disposition) := by
  have hfail : Steady (Entry.Answers c.inviteTxn (400 ≤ ·)) g
      (g.respond env c.inviteTxn req r dest).1.hangupMobile :=
    (Steady.emit g ⟨rfl, hcode⟩).trans (State.hangupMobile_steady _).allowed
  refine (ht.toRecord.of_steady hfail ?_ ?_).finishCall disposition
  · rintro n k ⟨hn, -⟩
    exact ht.owner n ((State.inviteTxn_of_call hc).trans hn.symm)
  · rintro n k ⟨-, hk⟩
    exact ⟨by omega, fun _ ↦ by omega⟩

theorem Told.sends_finishCall (ht : Told cfg g) (h : Steady (Entry.Sends meth) g g')
    (disposition : Str) : Told cfg (g'.finishCall disposition) :=
  (ht.toRecord.of_steady h (fun _ _ ↦ False.elim) (fun _ _ ↦ False.elim)).finishCall disposition

theorem Told.teardownCall (ht : Told cfg g) (reason : Str) (code : Nat) :
    Told cfg (g.teardownCall cfg env reason code) := by
  cases hc : g.call with
  | none => simpa [State.teardownCall, hc] using ht
  | some c =>
      cases hans : c.answered with
      | true =>
          obtain ⟨g', hs, heq⟩ := g.teardownCall_answered cfg env hc hans reason code
          rw [heq]
          exact ht.sends_finishCall hs reason
      | false =>
          cases hrole : c.role with
          | fromSip =>
              obtain ⟨r, hcode, heq⟩ := g.teardownCall_fromSip cfg env hc hans hrole reason code
              rw [heq]
              exact ht.respond_finishCall env hc hcode _ _ reason
          | toSip =>
              obtain ⟨g', hs, heq⟩ := g.teardownCall_toSip cfg env hc hans hrole reason code
              rw [heq]
              exact ht.sends_finishCall hs reason

/-! ## A description goes out -/

/-- All descriptions are made of the terms that the call has all along. -/
theorem Told.respondWithMedia {c : ActiveCall} (ht : Told cfg g) (hc : g.call = some c)
    (hans : c.answered = false) (code : Nat) (hcode : code ≠ 100) :
    Told cfg (g.respondWithMedia cfg env code).1 := by
  have hs := g.respondWithMedia_steady cfg env code
  obtain ⟨hterms, hdesc⟩ := g.respondWithMedia_spec cfg env hc hans code
  have htxn : (g.respondWithMedia cfg env code).1.inviteTxn = g.inviteTxn := by
    rw [State.inviteTxn, hs.leg, State.inviteTxn]
  have howner : g.inviteTxn = c.inviteTxn := State.inviteTxn_of_call hc
  constructor
  · constructor
    · refine hs.codes_fresh ?_ ht.fresh
      rintro n k ⟨hn, -⟩
      exact ht.owner n hn.symm
    · intro n hmem
      obtain ⟨new, hcodes, hnew⟩ := hs.codes n
      rw [hcodes] at hmem
      replace hmem : 100 ∈ codes n g := by
        refine (List.mem_append.mp hmem).resolve_right fun hmem ↦ hcode ?_
        exact ((hnew 100 hmem).2 : 100 = code).symm
      by_cases hmine : c.inviteTxn = some n ∧ (g.terms cfg).isSome
      · obtain ⟨hn, t, hterm⟩ : c.inviteTxn = some n ∧ ∃ t, g.terms cfg = some t := by
          rwa [Option.isSome_iff_exists] at hmine
        refine .inr ⟨t, fun d hd ↦ ?_⟩
        rcases hdesc n d hd with hd | ⟨-, t', hterm', hbody⟩
        · exact ht.pending n t (howner.trans hn) hterm d hd
        · obtain rfl := Option.some.inj (hterm.symm.trans hterm')
          exact hbody
      · -- Nothing new on this request.
        have hold : ∀ d ∈ descriptions n (g.respondWithMedia cfg env code).1,
            d ∈ descriptions n g := by
          intro d hd
          refine (hdesc n d hd).resolve_right ?_
          rintro ⟨hn, t, hterm, -⟩
          exact hmine ⟨hn, Option.isSome_iff_exists.mpr ⟨t, hterm⟩⟩
        rcases ht.past n hmem with hnil | ⟨t, hall⟩
        · rw [hnil] at hold
          exact .inl (List.eq_nil_iff_forall_not_mem.mpr fun d hd ↦ List.not_mem_nil (hold d hd))
        · exact .inr ⟨t, fun d hd ↦ hall d (hold d hd)⟩
  · rw [htxn, hs.nextTxn]
    exact ht.owner
  · exact hs.leg ▸ ht.toSip
  · intro n t hn hterm d hd
    rw [htxn] at hn
    rw [hterms] at hterm
    rcases hdesc n d hd with hd | ⟨-, t', hterm', hbody⟩
    · exact ht.pending n t hn hterm d hd
    · obtain rfl := Option.some.inj (hterm.symm.trans hterm')
      exact hbody

end Frame

/-! ## The handlers -/

section Handlers

variable {cfg} {g g' : State} {txn : Nat}

/-! ### SIP requests -/

/-- What the setting up of a call may add to the log: responses to its INVITE that describe
nothing. -/
def Entry.SetsUp (txn : Nat) (e : Entry) : Prop :=
  (∀ n, e.describes n = none) ∧ ∀ n, n ≠ txn → e.codeOn n = none

theorem Entry.setsUp_respond {req : Request} {resp : Response} {dest : SocketAddr}
    (hcode : resp.code ≠ 183 ∧ resp.code ≠ 200) :
    (Entry.respond (some txn) req resp dest).SetsUp txn := by
  constructor
  · intro n
    refine if_neg ?_
    rintro ⟨-, h⟩
    omega
  · intro n hn
    exact if_neg hn.symm

theorem Record.setsUp (hr : Record cfg g) (hnew : IsNew g txn)
    (h : Steady (Entry.SetsUp txn) g g') : Record cfg g' ∧ descriptions txn g' = [] := by
  obtain ⟨new, hlog, hmute⟩ := h.log
  have hdesc (n : Nat) : descriptions n g' = descriptions n g := by
    rw [descriptions_eq_of_log hlog, List.filterMap_eq_nil_iff.mpr, List.append_nil]
    intro e he
    rw [(hmute e he).2.1]
    rfl
  have hcodes (n : Nat) (hn : n ≠ txn) : codes n g' = codes n g := by
    rw [codes_eq_of_log hlog, List.filterMap_eq_nil_iff.mpr, List.append_nil]
    intro e he
    exact (hmute e he).2.2 n hn
  have hnil : descriptions txn g = [] :=
    descriptions_eq_nil fun k hk ↦ absurd (hnew.codes ▸ hk) List.not_mem_nil
  refine ⟨⟨fun n hn ↦ ?_, fun n hmem ↦ ?_⟩, (hdesc txn).trans hnil⟩
  · rw [h.nextTxn] at hn
    have := hnew.lt
    rw [hcodes n (by omega), hr.fresh n hn]
  · rw [hdesc]
    by_cases hn : n = txn
    · exact .inl (hn ▸ hnil)
    · exact hr.past n (hcodes n hn ▸ hmem)

/-- A call is put in the empty slot, with nothing described on its INVITE. -/
theorem Told.place {c : ActiveCall} (ht : Told cfg g) (hrole : c.role = .toSip → c.inviteTxn = none)
    (htxn : ∀ n, c.inviteTxn = some n → n < g.nextTxn ∧ descriptions n g = []) :
    Told cfg { g with call := some c } := by
  refine ⟨⟨ht.fresh, ht.past⟩, fun n hn ↦ (htxn n hn).1, ?_, ?_⟩
  · rintro l hl
    obtain rfl := Option.some.inj hl
    exact hrole
  · intro n t hn _ d hd
    have hnil : descriptions n { g with call := some c } = [] := (htxn n hn).2
    rw [hnil] at hd
    exact absurd hd List.not_mem_nil

theorem Told.onNewInvite (ht : Told cfg g) (hnew : IsNew g txn) (hc : g.call = none)
    (req : Request) (src : SocketAddr) : Told cfg (g.onNewInvite cfg env txn req src).1 := by
  cases hadm : g.admits req with
  | false =>
      obtain ⟨code, hcode, heq⟩ := g.onNewInvite_refused cfg env txn req src hadm
      rw [heq]
      exact ht.reply hnew (.emit g ⟨rfl, show 200 ≤ code by omega⟩) fun _ _ _ ↦ id
  | true =>
      obtain ⟨number, sdp, codec, recipient, sender, callId, heq⟩ :=
        g.onNewInvite_admitted cfg env txn req src hadm
      have htried : Steady (Entry.SetsUp txn) g (g.reply cfg env txn req src 100).1 :=
        .emit g (Entry.setsUp_respond (show 100 ≠ 183 ∧ 100 ≠ 200 by decide))
      have hidle {g' : State} (h : Steady (Entry.SetsUp txn) g g') : Told cfg g' :=
        (ht.setsUp hnew h).1.idle (h.leg.trans (by simp [State.leg, hc]))
      rw [heq]
      split
      · obtain ⟨g', hs, heq | ⟨c, hrole, htxn, -, -, heq⟩⟩ :=
          (g.reply cfg env txn req src 100).1.placeCall_cases (P := Entry.SetsUp txn) cfg env txn
            req src number sdp codec recipient sender callId
            (fun resp hcode ↦ Entry.setsUp_respond (by omega))
            ⟨fun _ ↦ rfl, fun _ _ ↦ rfl⟩ ⟨fun _ ↦ rfl, fun _ _ ↦ rfl⟩
        · rw [heq]
          exact hidle (htried.trans hs)
        · rw [heq]
          refine (hidle (htried.trans hs)).place ?_ fun n hn ↦ ?_
          · intro h
            cases hrole.symm.trans h
          · obtain rfl := Option.some.inj (htxn.symm.trans hn)
            exact ⟨(htried.trans hs).nextTxn ▸ hnew.lt, (ht.setsUp hnew (htried.trans hs)).2⟩
      · exact hidle htried

theorem Told.onSipInvite (ht : Told cfg g) (hnew : IsNew g txn) (req : Request)
    (src : SocketAddr) : Told cfg (g.onSipInvite cfg env txn req src).1 := by
  unfold State.onSipInvite
  cases hc : g.call with
  | none => exact ht.onNewInvite env hnew hc req src
  | some c =>
      dsimp only
      split
      · split
        · rename_i hans
          split
          · exact ht.respondWithMedia env hc (by simpa using hans) 183 (by decide)
          · exact ht.rings (g.sendProvisional_steady cfg env 180) (g.sendProvisional_terms cfg env 180)
        · rename_i hans
          have hs := g.onSipReinvite_steady cfg env txn req src
          refine ht.reply hnew hs fun n t _ hterm ↦ ?_
          -- The call is answered, so it has no terms to change.
          rw [State.terms_of_answered cfg (hs.leg.trans (State.leg_of_call hc))
            (show c.answered = true by simpa using hans)] at hterm
          exact absurd hterm nofun
      · exact ht.reply hnew (.emit g ⟨rfl, (by decide : 200 ≤ 486)⟩) fun _ _ _ ↦ id

theorem Told.onSipBye (ht : Told cfg g) (hnew : IsNew g txn) (req : Request) (src : SocketAddr) :
    Told cfg (g.onSipBye cfg env txn req src).1 := by
  have hfinal : 200 ≤ if g.inDialog req then 200 else 481 := by split <;> decide
  unfold State.onSipBye
  dsimp only
  revert hfinal
  generalize (if g.inDialog req then 200 else 481) = code
  intro hfinal
  have hresp : Told cfg (g.respond env (some txn) req (g.response cfg env req code) src).1 :=
    ht.reply hnew (.emit g ⟨rfl, hfinal⟩) fun _ _ _ ↦ id
  split
  · exact hresp
  · split
    · exact hresp.sends_finishCall (State.hangupMobile_steady _) _
    · exact hresp

theorem Told.onSipCancel (ht : Told cfg g) (hnew : IsNew g txn) (req : Request)
    (src : SocketAddr) : Told cfg (g.onSipCancel cfg env txn req src).1 := by
  have hresp : Told cfg (g.respond env (some txn) req (g.response cfg env req 200) src).1 :=
    ht.reply hnew (.emit g ⟨rfl, le_rfl⟩) fun _ _ _ ↦ id
  unfold State.onSipCancel
  dsimp only
  split
  · exact hresp
  · split
    · exact hresp
    · rename_i c hc
      split
      · refine hresp.respond_finishCall env hc ?_ _ _ _
        exact (by decide : 400 ≤ 487)
      · exact hresp

theorem State.onSipInfo_terms (g : State) (txn : Nat) (req : Request) (src : SocketAddr) :
    (g.onSipInfo cfg env txn req src).1.terms cfg = g.terms cfg := by
  unfold onSipInfo
  dsimp only
  refine (terms_congr cfg rfl).trans ?_
  split
  · rfl
  · split
    · rfl
    · split
      · exact g.deliverDtmf_terms cfg env _
      · rfl

theorem State.onSipMessage_call (g : State) (txn : Nat) (req : Request) (src : SocketAddr) :
    (g.onSipMessage cfg env txn req src).1.call = g.call := by
  unfold onSipMessage
  dsimp only
  split
  · rfl
  · split
    · rfl
    · split
      · rfl
      · split
        · rfl
        · split <;> rfl

theorem Told.onSipRequest (ht : Told cfg g) (hnew : IsNew g txn) (req : Request)
    (src : SocketAddr) : Told cfg (g.onSipRequest cfg env txn req src).1 := by
  unfold State.onSipRequest
  cases req.method with
  | invite => exact ht.onSipInvite env hnew req src
  | ack => exact ht
  | bye => exact ht.onSipBye env hnew req src
  | cancel => exact ht.onSipCancel env hnew req src
  | info =>
      refine ht.reply hnew (g.onSipInfo_steady cfg env txn req src) fun n t _ hterm ↦ ?_
      rwa [g.onSipInfo_terms env txn req src] at hterm
  | message =>
      refine ht.reply hnew (g.onSipMessage_steady cfg env txn req src) fun n t _ hterm ↦ ?_
      rwa [State.terms_congr cfg (g.onSipMessage_call env txn req src)] at hterm
  | _ => exact ht.reply hnew (.emit g ⟨rfl, (by decide : 200 ≤ 405)⟩) fun _ _ _ ↦ id

/-! ### Events of the modem -/

theorem Told.onMmCallAdded (ht : Told cfg g) (path : Path) :
    Told cfg (g.onMmCallAdded cfg env path) := by
  unfold State.onMmCallAdded
  split
  · exact ht
  · split
    · exact ht
    · split
      · exact ht
      · rename_i info _
        split
        · exact ht.emit trivial
        · split
          · exact ht.emit trivial
          · split
            · exact ht.emit trivial
            · rename_i hidle
              have hleg : g.leg = none := by simpa [State.leg] using hidle
              rcases g.startSipCall_cases cfg env path info with
                heq | ⟨req, dest, hmethod, hsent⟩
              · simp only [heq]
                exact ht.emit trivial
              · have hs : Steady (Entry.Sends (· = .invite)) g
                    (g.takeCseq.2.sendRequest env req dest).1 :=
                  (Steady.takeCseq g).trans (State.sendRequest_steady _ _ _ _ hmethod)
                have ht' := ht.sends hs (State.terms_congr cfg (State.sendRequest_call ..))
                rcases hsent with heq | ⟨txn, c, deadline, -, hplaced, -, -, -, -, -, heq⟩
                · simp only [heq]
                  exact ht'.emit trivial
                · simp only [heq]
                  have hstarted : Told cfg ((g.takeCseq.2.sendRequest env req dest).1.emit
                      (.cdrStarted c.peerNumber)) := ht'.emit trivial
                  refine hstarted.place (fun _ ↦ hplaced.inviteTxn) fun n hn ↦ ?_
                  cases hplaced.inviteTxn.symm.trans hn

/-- The call is marked as answered: it has no terms any more. -/
theorem Told.answered (ht : Told cfg g) :
    Told cfg (g.updateCall fun c ↦ { c with answered := true }) := by
  refine ht.updateCall (fun _ ↦ rfl) fun c t hterm ↦ ?_
  exact absurd ((if_pos rfl).symm.trans hterm) nofun

theorem Told.onModemAnswered (ht : Told cfg g) {c : ActiveCall} (hc : g.call = some c)
    (hans : c.answered = false) : Told cfg (g.onModemAnswered cfg env) := by
  have hconfirm (g' : State) (h : Told cfg g') :=
    State.cdrAnswered_of (P := Told cfg) h.answered (fun _ ↦ h.answered.emit trivial) c.cdrId
  unfold State.onModemAnswered
  rw [hc]
  dsimp only
  split
  · have htold := ht.respondWithMedia env hc hans 200 (by decide)
    split
    · exact htold.teardownCall env _ _
    · exact hconfirm _ htold
  · exact hconfirm g ht

theorem Told.onMmCallState (ht : Told cfg g) (path : Path) (new : Int) (reason : Nat) :
    Told cfg (g.onMmCallState cfg env path new reason) := by
  unfold State.onMmCallState
  split
  · exact ht
  · rename_i c hfilter
    have hc : g.call = some c := (Option.filter_eq_some_iff.mp hfilter).1
    have hring (g' : State) (ht' : Told cfg g') : Told cfg (g'.sendProvisional cfg env 180) :=
      ht'.rings (g'.sendProvisional_steady cfg env 180) (g'.sendProvisional_terms cfg env 180)
    split
    · split
      · split
        · have hearly := ht.rings (g.startEarlyMedia_steady cfg env)
            (g.startEarlyMedia_terms cfg env)
          dsimp only
          split
          · exact hearly
          · exact hring _ hearly
        · exact hring g ht
      · exact ht
    · split
      · split
        · exact ht
        · rename_i hans
          exact ht.onModemAnswered env hc (by simpa using hans)
      · split
        · exact ht.teardownCall env _ _
        · exact ht

/-! ### Internal events -/

theorem Told.upgradeToEarlyMedia (ht : Told cfg g) :
    Told cfg (g.upgradeToEarlyMedia cfg env).1 := by
  unfold State.upgradeToEarlyMedia
  cases hc : g.call with
  | none => exact ht
  | some c =>
      dsimp only
      split
      · exact ht
      · rename_i hfirst
        have hans : c.answered = false := by
          cases h : c.answered with
          | false => rfl
          | true => exact absurd (by simp [h]) hfirst
        have htold := ht.respondWithMedia env hc hans 183 (by decide)
        split
        · exact htold
        · exact htold.updateCall (fun _ ↦ rfl) fun _ _ ↦ id

theorem State.learnPeer_terms {c : ActiveCall} {resp : Response}
    (h : cfg.rtpAdvertisedIp (State.learnPeer env c resp).remoteAddr =
      cfg.rtpAdvertisedIp c.remoteAddr) :
    (State.learnPeer env c resp).terms cfg = c.terms cfg := by
  have hsame : (State.learnPeer env c resp).answered = c.answered ∧
      (State.learnPeer env c resp).remoteSdp = c.remoteSdp ∧
      (State.learnPeer env c resp).localRtpPort = c.localRtpPort ∧
      (State.learnPeer env c resp).codec = c.codec := by
    unfold learnPeer
    dsimp only
    split <;> exact ⟨rfl, rfl, rfl, rfl⟩
  obtain ⟨hans, hsdp, hport, hcodec⟩ := hsame
  rw [ActiveCall.terms, hans, hsdp, hport, hcodec, h, ActiveCall.terms]

/-- The answer to an INVITE of ours changes no terms, even if it finds a call from SIP, as long as
the ACK goes out or the peer is reached from the same address. -/
theorem Told.onSipAnswered (ht : Told cfg g) {c : ActiveCall} (hc : g.call = some c)
    (resp : Response)
    (hkeep : c.role = .fromSip → c.answered = false → env.sendOk g.log.length = true ∨
      cfg.rtpAdvertisedIp (State.learnPeer env c resp).remoteAddr =
        cfg.rtpAdvertisedIp c.remoteAddr) : Told cfg (g.onSipAnswered cfg env resp) := by
  have hack := g.acked_steady cfg env hc resp
  have hleg : (g.acked cfg env c resp).leg = some c.leg := hack.leg.trans (State.leg_of_call hc)
  cases hok : env.sendOk g.log.length with
  | false =>
      rw [g.onSipAnswered_of_not_ok cfg env hc resp hok]
      refine ht.of_steady hack (fun _ _ ↦ False.elim) (fun _ _ ↦ False.elim)
        (fun _ _ ↦ False.elim) fun n t hn hterm ↦ ?_
      cases hrole : c.role with
      | toSip =>
          have hnone := ht.toSip c.leg (State.leg_of_call hc) hrole
          exact absurd (hnone.symm.trans ((State.inviteTxn_of_call hc).symm.trans hn)) nofun
      | fromSip =>
          cases hans : c.answered with
          | true => exact absurd ((State.terms_of_answered cfg hleg hans).symm.trans hterm) nofun
          | false =>
              have hsame := (hkeep hrole hans).resolve_left (by simp [hok])
              rw [State.terms_of_call cfg hc, ← State.learnPeer_terms env hsame]
              exact hterm
  | true =>
      obtain ⟨g', hs, heq⟩ := g.onSipAnswered_of_ok cfg env hc resp hok
      have hleg' : ((g.acked cfg env c resp).updateCall
        fun c ↦ { c with answered := true }).leg = some _ := State.leg_of_call rfl
      have hinvited : (State.learnPeer env c resp).leg.invited = c.leg.invited :=
        congrArg Leg.invited (State.learnPeer_leg env c resp)
      have hans : Told cfg ((g.acked cfg env c resp).updateCall
          fun c ↦ { c with answered := true }) := by
        refine ht.congr ?_ le_rfl ⟨[_], rfl, by simp [Entry.Mute, Entry.codeOn]⟩ ?_
        · rw [hleg', State.leg_of_call hc]
          exact congrArg some hinvited
        · intro n t _ hterm
          rw [State.terms_of_answered cfg hleg' rfl] at hterm
          exact absurd hterm nofun
      have hterms : g'.terms cfg = ((g.acked cfg env c resp).updateCall
          fun c ↦ { c with answered := true }).terms cfg := by
        rw [State.terms_of_answered cfg (hs.leg.trans hleg') rfl,
          State.terms_of_answered cfg hleg' rfl]
      have hdone := hans.sends hs hterms
      rcases heq with heq | ⟨reason, code, heq⟩
      · exact heq ▸ hdone
      · exact heq ▸ hdone.teardownCall env reason code

theorem Told.onSipFailed (ht : Told cfg g) (resp : Response) :
    Told cfg (g.onSipFailed md5Hex cfg env resp) := by
  have hack := g.ackFailure_steady env resp
  have hcall : (g.ackFailure env resp).call = g.call := by
    unfold State.ackFailure
    split
    · rfl
    · split <;> rfl
  have ht' := ht.sends hack (State.terms_congr cfg hcall)
  have hfinish {meth : Method → Prop} {g' : State}
      (h : Steady (Entry.Sends meth) (g.ackFailure env resp) g') :
      Told cfg (g'.hangupMobile.finishCall "sip rejected") :=
    ht'.sends_finishCall (h.trans (State.hangupMobile_steady _).allowed) _
  unfold State.onSipFailed
  dsimp only
  split
  · rcases (g.ackFailure env resp).retryInviteWithAuth_cases md5Hex cfg env resp with
      ⟨g', hs, heq⟩ | ⟨c, req, txn, deadline, -, -, -, -, -, -, -, heq⟩
    · rw [heq]
      exact hfinish hs
    · rw [heq]
      have hsent := (Steady.takeCseq (g.ackFailure env resp)).trans
        (State.sendRequest_steady (P := Entry.Sends fun _ ↦ True) env _ req c.remoteAddr trivial)
      have hsent' := ht'.sends hsent (State.terms_congr cfg (State.sendRequest_call ..))
      exact hsent'.updateCall (fun _ ↦ rfl) fun _ _ ↦ id
  · exact hfinish (.refl (Entry.Sends fun _ ↦ False) _)

end Handlers

/-- The condition on an event that no description depends on the address of another call's peer: if
the answer to an INVITE of ours finds in the slot a call from SIP that has its Call-ID and still
rings, then the ACK goes out, or it comes from a peer that is reached from the same address. -/
def State.keepsTerms (g : State) (e : Event × Env) : Bool :=
  match e.1, g.internal, g.call with
  | .internal, .sipAnswered callId resp :: _, some c =>
    !(c.role == .fromSip && !c.answered && c.callId == callId) || e.2.sendOk g.log.length ||
      cfg.rtpAdvertisedIp (State.learnPeer e.2 c resp).remoteAddr == cfg.rtpAdvertisedIp c.remoteAddr
  | _, _, _ => true

section Runs

variable {cfg} {g g' : State}

theorem Told.onInternal (ht : Told cfg g) {ev : Internal} (rest : List Internal)
    (hkeep : ({ g with internal := ev :: rest } : State).keepsTerms cfg (.internal, env) = true) :
    Told cfg (g.onInternal md5Hex cfg env ev) := by
  cases ev with
  | sipProgress callId code => exact ht
  | sipAnswered callId resp =>
      dsimp only [State.onInternal]
      split
      · rename_i hmatch
        obtain ⟨c, hc, hid⟩ := (Option.any_eq_true _ _).mp hmatch
        refine ht.onSipAnswered env hc resp fun hrole hans ↦ ?_
        simpa [State.keepsTerms, hc, hrole, hans, eq_of_beq hid] using hkeep
      · exact ht
  | sipFailed callId resp =>
      dsimp only [State.onInternal]
      split
      · exact ht.onSipFailed md5Hex env resp
      · exact ht
  | ringTimeout callId =>
      dsimp only [State.onInternal]
      split
      · exact ht.sends_finishCall
          ((g.cancelOutgoingInvite_steady env).trans (State.hangupMobile_steady _).allowed) _
      · exact ht
  | earlyMediaAudio callId level =>
      dsimp only [State.onInternal]
      split
      · exact ht.upgradeToEarlyMedia env
      · exact ht
  | dtmf callId digit =>
      dsimp only [State.onInternal]
      split
      · exact ht.sends (g.deliverDtmf_steady cfg env _) (g.deliverDtmf_terms cfg env _)
      · exact ht
  | dtmfFromModem callId digit =>
      dsimp only [State.onInternal]
      split
      · exact ht.sends (g.sendDtmfInfo_steady cfg env _)
          (State.terms_congr cfg (g.sendDtmfInfo_call cfg env _))
      · exact ht
  | smsRetry path attempt => exact ht.emit trivial

/-! ### The tasks beside the loop -/

theorem Told.beside (ht : Told cfg g) (h : Beside g g') : Told cfg g' := by
  refine ht.congr ?_ h.nextTxn.ge ?_ fun n t _ hterm ↦ ?_
  · rw [State.leg, State.leg, Option.map_map, Option.map_map]
    exact h.map_call fun _ ↦ rfl
  · obtain ⟨new, hlog, hnew⟩ := h.log
    refine ⟨new, hlog, fun e he n ↦ ?_⟩
    obtain ⟨-, resp, heq⟩ := hnew e he
    rw [heq]
    rfl
  · rw [← hterm]
    exact (h.bind_call (f := ActiveCall.terms cfg) fun _ ↦ rfl).symm

theorem Told.onRtp (ht : Told cfg g) (src : SocketAddr) : Told cfg (g.onRtp cfg src) := by
  unfold State.onRtp
  split
  · exact ht
  · rename_i c hc
    split
    · exact ht
    · split
      · refine ht.congr ?_ le_rfl ⟨[_], rfl, by simp [Entry.Mute, Entry.codeOn]⟩ ?_
        · rw [State.leg_of_call hc]
          rfl
        · intro n t _ hterm
          rw [State.terms_of_call cfg hc]
          exact hterm
      · exact ht

/-! ## Runs -/

/-- What the event loop does in one event keeps the invariant. -/
theorem Told.step (ht : Told cfg g) (e : Event × Env) (hkeep : g.keepsTerms cfg e = true) :
    Told cfg (g.step md5Hex cfg e) := by
  have hsame {g' : State} (hcall : g'.call = g.call) (hnext : g.nextTxn ≤ g'.nextTxn)
      (hlog : g'.log = g.log) : Told cfg g' := by
    refine ht.congr ?_ hnext ⟨[], by simp [hlog], by simp⟩ fun _ _ _ hterm ↦ ?_
    · rw [State.leg, hcall, State.leg]
    · rwa [State.terms_congr cfg hcall] at hterm
  obtain ⟨e, env⟩ := e
  unfold State.step
  dsimp only
  split
  · exact ht
  · cases e with
    | request req src =>
        have ht' : Told cfg { g with nextTxn := g.nextTxn + 1 } := hsame rfl (Nat.le_succ _) rfl
        refine ht'.onSipRequest env ⟨Nat.lt_succ_self _, fun h ↦ ?_, ht.fresh _ le_rfl⟩ req src
        exact absurd (ht.owner g.nextTxn h) (lt_irrefl _)
    | modemUp modem => exact hsame rfl le_rfl rfl
    | modemDown =>
        have ht' : Told cfg { g with modem := none } := hsame rfl le_rfl rfl
        exact ht'.teardownCall env _ _
    | callAdded path => exact ht.onMmCallAdded env path
    | callDeleted path =>
        dsimp only
        split
        · exact ht.teardownCall env _ _
        · exact ht
    | callState path new reason => exact ht.onMmCallState env path new reason
    | modemDtmf path digit =>
        dsimp only
        split
        · exact ht.sends (g.sendDtmfInfo_steady cfg env digit)
            (State.terms_congr cfg (g.sendDtmfInfo_call cfg env digit))
        · exact ht
    | smsAdded path received => exact ht.emit trivial
    | internal =>
        dsimp only
        split
        · exact ht
        · rename_i ev rest hq
          have ht' : Told cfg { g with internal := rest } := hsame rfl le_rfl rfl
          refine ht'.onInternal md5Hex env rest ?_
          rw [← hq]
          exact hkeep
    | tick =>
        dsimp only
        unfold State.checkMedia
        split
        · exact ht
        · split
          · exact ht
          · split
            · exact ht.teardownCall env _ _
            · split
              · exact ht.teardownCall env _ _
              · exact ht
    | shutdown =>
        refine (ht.teardownCall env "modem2sip is shutting down" 200).congr rfl le_rfl
          ⟨[], by simp, by simp⟩ fun _ _ _ ↦ id
    | response resp => exact ht.beside (.onResponse g resp)
    | rtp src => exact ht.onRtp src
    | inviteTask i => exact ht.beside (.inviteTask g i)
    | inviteTimeout i => exact ht.beside (.inviteTimeout g i)
    | audioHeard level => exact ht.beside (.audioHeard g level)
    | rtpDigit digit => exact ht.beside (.relayDigit g _ _)
    | inbandDigit digit => exact ht.beside (.relayDigit g _ _)
    | transact req dest =>
        dsimp only
        split
        · exact ht
        · exact ht.sends (g.sendInBackground_steady (P := Entry.Sends fun _ ↦ True) env req dest
            trivial) (State.terms_congr cfg (g.sendInBackground_call env req dest))
    | backgroundDone i =>
        dsimp only
        split
        · exact ht
        · exact hsame rfl le_rfl rfl
    | advance ms => exact hsame rfl le_rfl rfl

end Runs

/-- All descriptions sent on a request read the same. -/
def SameSession (n : Nat) (g : State) : Prop :=
  ∀ d ∈ descriptions n g, ∀ d' ∈ descriptions n g, d.2 = d'.2

/-- All of them were sent within one second. -/
def SameSecond (n : Nat) (g : State) : Prop :=
  ∀ d ∈ descriptions n g, ∀ d' ∈ descriptions n g, d.1 / 1000 = d'.1 / 1000

/-- After every run in which no answer to a call of ours changes the address for another call, the
descriptions that an INVITE got are the same exactly if they were all made in one second. -/
theorem sameSession_iff (now : Nat) (es : List (Event × Env))
    (hkeep : Run.Guarded (State.step md5Hex cfg) (fun g e ↦ g.keepsTerms cfg e = true)
      (State.init now) es) :
    let g := (State.init now).run md5Hex cfg es
    ∀ n, 100 ∈ codes n g → (SameSession n g ↔ SameSecond n g) := by
  have ht : Told cfg ((State.init now).run md5Hex cfg es) :=
    hkeep.invariant (fun g e ht h ↦ ht.step md5Hex e h) (told_init cfg now)
  intro g n hmem
  rcases ht.past n hmem with hnil | ⟨t, hall⟩
  · have hnone : ∀ d, d ∉ descriptions n g := fun d hd ↦ List.not_mem_nil (hnil ▸ hd)
    exact iff_of_true (fun d hd ↦ absurd hd (hnone d)) fun d hd ↦ absurd hd (hnone d)
  · have hbody (d d' : Nat × List UInt8) (hd : d ∈ descriptions n g)
        (hd' : d' ∈ descriptions n g) : d.2 = d'.2 ↔ d.1 / 1000 = d'.1 / 1000 := by
      rw [hall d hd, hall d' hd']
      exact t.body_inj cfg
    constructor
    · intro h d hd d' hd'
      exact (hbody d d' hd hd').mp (h d hd d' hd')
    · intro h d hd d' hd'
      exact (hbody d d' hd hd').mpr (h d hd d' hd')

/-- A call whose caller hears the network while it rings, and that is answered `ms` later. -/
def Sample.earlyMediaCall (ms : Nat) : List (Event × Env) :=
  [ (.modemUp { ownNumber := none }, Sample.env),
    (.request (Sample.request .invite 1 [] Sample.offer) Sample.peer, Sample.env),
    (.callState "/call/1" stateRingingOut 0, Sample.env),
    (.audioHeard 6000, Sample.env),
    (.internal, Sample.env),
    (.advance ms, Sample.env),
    (.callState "/call/1" stateActive 0, Sample.env) ]

/-- The 200 comes two seconds after the 183, and describes another session. -/
theorem not_sameSession_of_answered_later :
    let g := (State.init 1700000000000).run (fun _ ↦ []) (Sample.config true)
      (Sample.earlyMediaCall 2000)
    codes 0 g = [100, 180, 183, 200] ∧ ¬ SameSession 0 g := by
  unfold SameSession
  decide +kernel

/-- The 200 comes in the same second. -/
theorem sameSession_iff_half_second :
    let g := (State.init 1700000000000).run (fun _ ↦ []) (Sample.config true)
      (Sample.earlyMediaCall 500)
    codes 0 g = [100, 180, 183, 200] ∧ (SameSession 0 g ↔ SameSecond 0 g) := by
  have hcodes : codes 0 ((State.init 1700000000000).run (fun _ ↦ []) (Sample.config true)
      (Sample.earlyMediaCall 500)) = [100, 180, 183, 200] := by
    decide +kernel
  refine ⟨hcodes, sameSession_iff _ _ _ _ (by decide +kernel) 0 ?_⟩
  rw [hcodes]
  decide

end Modem2Sip.Gateway
