import Modem2Sip.Lib.Run
import Modem2Sip.Sip.Server

/-!
# A request is executed at most once

From the moment a request is passed to its handler until the transaction is forgotten,
the entry of its key follows what was sent on the transaction: the latest provisional
response first, the latest final one afterwards.  A copy that arrives in that time meets
this entry.
-/

namespace Modem2Sip.Sip

open Text Net

/-! ## Keys -/

theorem Method.asStr_injective : Function.Injective Method.asStr := by
  intro m n h
  have := Method.parse_asStr m
  rw [h, Method.parse_asStr] at this
  exact (Option.some.inj this).symm

/-- Two texts that end in a bar and something without bars. -/
theorem append_bar_inj {a b c d : Str} (hb : '|' ∉ b) (hd : '|' ∉ d)
    (h : a ++ '|' :: b = c ++ '|' :: d) : a = c ∧ b = d := by
  have hcut {x y : Str} (hx : '|' ∉ x) : splitAt '|' (x ++ '|' :: y) = some (x, y) :=
    splitOnce_append (fun c hc ↦ beq_eq_false_iff_ne.mpr fun heq ↦ hx (heq ▸ hc)) (by decide)
  have hrev : b.reverse ++ '|' :: a.reverse = d.reverse ++ '|' :: c.reverse := by
    simpa using congrArg List.reverse h
  have hsplit := congrArg (splitAt '|') hrev
  rw [hcut (by simpa using hb), hcut (by simpa using hd), Option.some.injEq, Prod.mk.injEq] at hsplit
  exact ⟨List.reverse_injective hsplit.2, List.reverse_injective hsplit.1⟩

/-- Requests with the same key agree in branch, sequence number and method. -/
theorem txnKey_inj {req req' : Request} {key : Str} (h : txnKey req = some key)
    (h' : txnKey req' = some key) :
    req.headers.topVia.bind Via.branch = req'.headers.topVia.bind Via.branch ∧
      req.headers.cseq.map Prod.fst = req'.headers.cseq.map Prod.fst ∧
      req.method = req'.method := by
  have hkey (r : Request) (hr : txnKey r = some key) : ∃ branch n,
      r.headers.topVia.bind Via.branch = some branch ∧ r.headers.cseq.map Prod.fst = some n ∧
        (branch ++ '|' :: dec n) ++ '|' :: r.method.asStr = key := by
    unfold txnKey at hr
    cases hb : r.headers.topVia.bind Via.branch with
    | none => simp [hb] at hr
    | some branch =>
        cases hc : r.headers.cseq with
        | none => simp [hb, hc] at hr
        | some c =>
            obtain ⟨n, m⟩ := c
            simp only [hb, hc, Option.bind_eq_bind, Option.bind_some, Option.some.injEq] at hr
            exact ⟨branch, n, rfl, rfl, by simpa using hr⟩
  have hmethod (m : Method) : '|' ∉ m.asStr := by
    cases m <;> decide
  have hdec (n : Nat) : '|' ∉ dec n := fun hmem ↦ absurd (isDigit_of_mem_dec hmem) (by decide)
  obtain ⟨b, n, hb, hn, heq⟩ := hkey req h
  obtain ⟨b', n', hb', hn', heq'⟩ := hkey req' h'
  obtain ⟨hfront, hm⟩ := append_bar_inj (hmethod _) (hmethod _) (heq.trans heq'.symm)
  obtain ⟨rfl, hdn⟩ := append_bar_inj (hdec _) (hdec _) hfront
  rw [dec_inj] at hdn
  exact ⟨by rw [hb, hb'], by rw [hn, hn', hdn], Method.asStr_injective hm⟩

/-! ## What is sent on a transaction -/

/-- The bytes of a final response on a transaction. -/
def Output.final (key : Str) : Output → Option (List UInt8)
  | .response k code bytes _ => if k = some key ∧ 200 ≤ code then some bytes else none
  | _ => none

/-- The bytes of a provisional response on a transaction. -/
def Output.provisional (key : Str) : Output → Option (List UInt8)
  | .response k code bytes _ => if k = some key ∧ code < 200 then some bytes else none
  | _ => none

/-- Is this a response of a transaction? -/
def Output.IsResponse : Output → Prop
  | .response .. => True
  | _ => False

/-- The last response that is kept for a transaction. -/
def ServerTxn.lastBytes : ServerTxn → Option (List UInt8)
  | .inProgress _ provisional => provisional
  | .completed bytes _ => some bytes

/-- The last of the final responses, if there is one, or else the last of the provisional ones. -/
def lastAnswer (key : Str) (out : List Output) : Option (List UInt8) :=
  match (out.filterMap (Output.final key)).getLast? with
  | some bytes => some bytes
  | none => (out.filterMap (Output.provisional key)).getLast?

namespace Server

section Parameters

variable {toUppercase : Char → Str} {md5Hex : List UInt8 → Str} {cfg : ServerConfig}

/-! ## What the operations do to the cache -/

/-- The parts of the state that transactions depend on are the same. -/
structure SameTxns (s s' : Server) : Prop where
  now : s'.now = s.now
  cache : s'.cache = s.cache
  out : s'.out = s.out

theorem sameTxns_retransmit (s : Server) (req : Request) (bytes : List UInt8) (dest : SocketAddr) :
    SameTxns s (s.retransmitUntilAcked req bytes dest) := by
  unfold retransmitUntilAcked
  split
  · exact ⟨rfl, rfl, rfl⟩
  · dsimp only
    split
    · exact ⟨rfl, rfl, rfl⟩
    · exact ⟨rfl, rfl, rfl⟩

variable (toUppercase cfg) in
/-- `respond` sends one response, which the cache takes note of. -/
theorem respond_spec (s : Server) (req : Request) (src : SocketAddr) (resp : Response) :
    (s.respond toUppercase cfg req src resp).now = s.now ∧
      (s.respond toUppercase cfg req src resp).out =
        s.out ++ [.response (txnKey req) resp.code
          ((complete cfg req src resp).encode toUppercase) src] ∧
      (s.respond toUppercase cfg req src resp).cache =
        match txnKey req with
        | some key => cacheResponse s.now s.cache key resp.code
            ((complete cfg req src resp).encode toUppercase)
        | none => s.cache := by
  unfold respond
  generalize (complete cfg req src resp).encode toUppercase = bytes
  cases txnKey req with
  | none =>
      dsimp only
      split
      · obtain ⟨hnow, hcache, hout⟩ := sameTxns_retransmit s req bytes src
        exact ⟨hnow, by rw [emit, hout], hcache⟩
      · exact ⟨rfl, rfl, rfl⟩
  | some key =>
      dsimp only
      split
      · obtain ⟨hnow, hcache, hout⟩ := sameTxns_retransmit
          { s with cache := cacheResponse s.now s.cache key resp.code bytes } req bytes src
        exact ⟨hnow, by rw [emit, hout], hcache⟩
      · exact ⟨rfl, rfl, rfl⟩

theorem get?_cacheResponse_of_ne {key key' : Str} (hne : key' ≠ key) {now code : Nat}
    {cache : ServerCache} {bytes : List UInt8} :
    (cacheResponse now cache key' code bytes).get? key = cache.get? key := by
  unfold cacheResponse
  split
  · rw [Map.get?_insert, if_neg hne.symm]
  · split
    · rw [Map.get?_insert, if_neg hne.symm]
    · rfl

/-- A provisional response leaves a final one in its place. -/
theorem provisional_keeps_final {s : Server} {req : Request} (src : SocketAddr) {resp : Response}
    {key : Str} {bytes : List UInt8} {time : Nat} (hcode : resp.code < 200)
    (hget : s.cache.get? key = some (.completed bytes time)) :
    (s.respond toUppercase cfg req src resp).cache.get? key = some (.completed bytes time) := by
  rw [(respond_spec _ _ s req src resp).2.2]
  cases hkey : txnKey req with
  | none => exact hget
  | some key' =>
      dsimp only [cacheResponse]
      rw [if_neg (by omega)]
      split
      · rename_i since p hsome
        have hne : key ≠ key' := by
          rintro rfl
          rw [hget] at hsome
          cases hsome
        rw [Map.get?_insert, if_neg hne, hget]
      · exact hget

/-- What a handler can do: note a nonce, register contacts, respond, and pass its request on. -/
theorem handle_induction {P : Server → Prop} {req : Request} {src : SocketAddr}
    (hnonce : ∀ (s : Server) seen, P s → P { s with nonceSeen := seen })
    (hregister : ∀ (s : Server) m, P s → P { s with registrar := m })
    (hrespond : ∀ s resp, P s → P (s.respond toUppercase cfg req src resp))
    (hemit : ∀ s o, ¬ o.IsResponse → P s → P (s.emit o)) {s : Server} (hs : P s) (tag : Str) :
    P (s.handle toUppercase md5Hex cfg req src tag) := by
  have hauth : P (s.authorised toUppercase md5Hex cfg req src tag).2 := by
    unfold authorised
    split
    · exact hnonce s _ hs
    · exact hrespond _ _ (hnonce s _ hs)
  unfold handle
  split
  · unfold handleRegister
    split
    · rename_i s' heq
      rwa [heq] at hauth
    · rename_i s' heq
      rw [heq] at hauth
      split
      · exact hrespond _ _ hauth
      · exact hrespond _ _ (hregister s' _ hauth)
  · exact hrespond _ _ hs
  · exact hemit _ _ not_false hs
  all_goals first
    | exact hrespond _ _ hs
    | (split
       · rename_i s' heq
         rwa [heq] at hauth
       · rename_i s' heq
         rw [heq] at hauth
         exact hemit _ _ not_false hauth)

/-! ## The entry follows what is sent -/

/-- The entry that a transaction claimed at `t` has after these outputs. -/
def Entry (key : Str) (t : Nat) (out : List Output) (txn : Option ServerTxn) : Prop :=
  match (out.filterMap (Output.final key)).getLast? with
  | some bytes => ∃ time, t ≤ time ∧ txn = some (.completed bytes time)
  | none => txn = some (.inProgress t (out.filterMap (Output.provisional key)).getLast?)

/-- Until the transaction claimed at `t` is forgotten, its entry is made of what was sent since
there were `n` outputs. -/
structure Follows (key : Str) (t n : Nat) (s : Server) : Prop where
  le_length : n ≤ s.out.length
  le_now : t ≤ s.now
  entry : s.now < t + txnLifetime → Entry key t (s.out.drop n) (s.cache.get? key)

variable {key : Str} {t n : Nat} {s : Server}

theorem Follows.of_same {s' : Server} (h : Follows key t n s) (hsame : SameTxns s s') :
    Follows key t n s' where
  le_length := hsame.out ▸ h.le_length
  le_now := hsame.now ▸ h.le_now
  entry := by
    rw [hsame.now, hsame.out, hsame.cache]
    exact h.entry

theorem entry_append_other {out : List Output} {o : Output} {txn : Option ServerTxn}
    (hfinal : o.final key = none) (hprov : o.provisional key = none) (h : Entry key t out txn) :
    Entry key t (out ++ [o]) txn := by
  unfold Entry at h ⊢
  simpa [List.filterMap_append, hfinal, hprov] using h

theorem Follows.emit (h : Follows key t n s) {o : Output} (ho : ¬ o.IsResponse) :
    Follows key t n (s.emit o) where
  le_length := by
    rw [Server.emit, List.length_append]
    exact Nat.le_add_right_of_le h.le_length
  le_now := h.le_now
  entry := by
    intro hlt
    rw [Server.emit, List.drop_append_of_le_length h.le_length]
    cases o with
    | response => exact absurd trivial ho
    | handle | event | replay => exact entry_append_other rfl rfl (h.entry hlt)

/-- A response on the transaction becomes its entry, or does not touch it. -/
theorem entry_cacheResponse {out : List Output} {now code : Nat} {cache : ServerCache}
    {bytes : List UInt8} (dest : SocketAddr) (ht : t ≤ now) (h : Entry key t out (cache.get? key)) :
    Entry key t (out ++ [.response (some key) code bytes dest])
      ((cacheResponse now cache key code bytes).get? key) := by
  unfold Entry at h ⊢
  unfold cacheResponse
  by_cases hcode : 200 ≤ code
  · rw [if_pos hcode]
    simp [List.filterMap_append, Output.final, hcode, ht]
  · have hlt : code < 200 := by omega
    rw [if_neg hcode]
    cases hlast : (out.filterMap (Output.final key)).getLast? with
    | some b =>
        simp only [hlast] at h
        obtain ⟨time, htime, hget⟩ := h
        simp [List.filterMap_append, Output.final, hcode, hlast, hget, htime]
    | none =>
        simp only [hlast] at h
        simp [List.filterMap_append, Output.final, Output.provisional, hcode, hlt, hlast, h]

theorem Follows.respond (h : Follows key t n s) (req : Request) (src : SocketAddr)
    (resp : Response) : Follows key t n (s.respond toUppercase cfg req src resp) := by
  obtain ⟨hnow, hout, hcache⟩ : _ ∧ _ ∧ _ := respond_spec _ _ s req src resp
  refine ⟨?_, hnow ▸ h.le_now, ?_⟩
  · rw [hout, List.length_append]
    exact Nat.le_add_right_of_le h.le_length
  · intro hlt
    rw [hnow] at hlt
    have hentry := h.entry hlt
    rw [hout, List.drop_append_of_le_length h.le_length, hcache]
    cases hkey : txnKey req with
    | none => exact entry_append_other (by simp [Output.final]) (by simp [Output.provisional]) hentry
    | some key' =>
        by_cases heq : key' = key
        · subst heq
          exact entry_cacheResponse src h.le_now hentry
        · dsimp only
          rw [get?_cacheResponse_of_ne heq]
          exact entry_append_other (by simp [Output.final, heq]) (by simp [Output.provisional, heq])
            hentry

/-- The entry is live as long as the transaction is not forgotten, and holds what was sent last. -/
theorem Entry.live {out : List Output} {now : Nat} {cache : ServerCache}
    (h : Entry key t out (cache.get? key)) (hlt : now < t + txnLifetime) :
    ∃ txn, liveTxn now cache key = some txn ∧ txn.lastBytes = lastAnswer key out := by
  have hpos : 0 < txnLifetime := by decide
  unfold Entry at h
  unfold lastAnswer liveTxn
  cases hlast : (out.filterMap (Output.final key)).getLast? with
  | some bytes =>
      simp only [hlast] at h
      obtain ⟨time, htime, hget⟩ := h
      refine ⟨.completed bytes time, ?_, rfl⟩
      have hage : now - time < txnLifetime := by omega
      rw [hget, Option.filter_some]
      exact if_pos (decide_eq_true hage)
  | none =>
      simp only [hlast] at h
      refine ⟨.inProgress t (out.filterMap (Output.provisional key)).getLast?, ?_, rfl⟩
      have hage : now - t < txnLifetime := by omega
      rw [h, Option.filter_some]
      exact if_pos (decide_eq_true hage)

/-! ## Arrival -/

/-- A copy of a request whose transaction is known gets what was sent last, if there is anything. -/
theorem arrive_known {req : Request} {src : SocketAddr} {txn : ServerTxn}
    (hallowed : cfg.sourceAllowed src.ip = true) (hack : req.method ≠ .ack)
    (hkey : txnKey req = some key) (hlive : liveTxn s.now s.cache key = some txn) (tag : Str) :
    s.arrive toUppercase cfg req src tag =
      match txn.lastBytes with
      | some bytes => s.emit (.replay bytes src)
      | none => s := by
  have hclaim : claimTxn s.now s.cache key = (txn.claim, s.cache) := by
    simp only [claimTxn, hlive]
  unfold arrive
  rw [hallowed, if_neg (by simp), if_neg hack, hkey]
  dsimp only
  rw [hclaim]
  cases txn with
  | completed bytes time => rfl
  | inProgress since provisional =>
      cases provisional with
      | none => rfl
      | some bytes => rfl

variable (toUppercase cfg) in
/-- What can happen to a request when it arrives. -/
theorem arrive_cases (s : Server) (req : Request) (src : SocketAddr) (tag : Str) :
    (cfg.sourceAllowed src.ip = false ∧ s.arrive toUppercase cfg req src tag =
      s.respond toUppercase cfg req src (makeResponse cfg.toCoreConfig tag req 403 none)) ∨
    (cfg.sourceAllowed src.ip = true ∧ (req.method = .ack ∨ txnKey req = none) ∧
      ∃ s', SameTxns s s' ∧ s.arrive toUppercase cfg req src tag = s'.emit (.handle req src)) ∨
    (cfg.sourceAllowed src.ip = true ∧ req.method ≠ .ack ∧ ∃ key, txnKey req = some key ∧
      ((∃ txn, liveTxn s.now s.cache key = some txn ∧ s.arrive toUppercase cfg req src tag =
        match txn.lastBytes with
        | some bytes => s.emit (.replay bytes src)
        | none => s) ∨
      (liveTxn s.now s.cache key = none ∧ s.arrive toUppercase cfg req src tag =
        ({ s with
            cache := s.cache.insert key (.inProgress s.now none)
            tasks := s.tasks ++ [(req, src)] }.emit (.handle req src))))) := by
  cases hallowed : cfg.sourceAllowed src.ip with
  | false =>
      refine .inl ⟨rfl, ?_⟩
      unfold arrive
      rw [hallowed]
      rfl
  | true =>
      by_cases hack : req.method = .ack
      · refine .inr (.inl ⟨rfl, .inl hack, ?_⟩)
        unfold arrive
        rw [hallowed, if_neg (by simp), if_pos hack]
        refine ⟨_, ?_, rfl⟩
        cases dialogKey req with
        | none => exact ⟨rfl, rfl, rfl⟩
        | some key =>
            dsimp only
            split
            · exact ⟨rfl, rfl, rfl⟩
            · exact ⟨rfl, rfl, rfl⟩
      · cases hkey : txnKey req with
        | none =>
            refine .inr (.inl ⟨rfl, .inr rfl, ?_⟩)
            unfold arrive
            rw [hallowed, if_neg (by simp), if_neg hack, hkey]
            exact ⟨{ s with tasks := s.tasks ++ [(req, src)] }, ⟨rfl, rfl, rfl⟩, rfl⟩
        | some key =>
            refine .inr (.inr ⟨rfl, hack, key, rfl, ?_⟩)
            cases hlive : liveTxn s.now s.cache key with
            | some txn => exact .inl ⟨txn, rfl, arrive_known hallowed hack hkey hlive tag⟩
            | none =>
                refine .inr ⟨rfl, ?_⟩
                have hclaim : claimTxn s.now s.cache key =
                    (.fresh, s.cache.insert key (.inProgress s.now none)) := by
                  simp only [claimTxn, hlive]
                unfold arrive
                rw [hallowed, if_neg (by simp), if_neg hack, hkey]
                dsimp only
                rw [hclaim]

theorem Follows.arrive (h : Follows key t n s) (req : Request) (src : SocketAddr) (tag : Str) :
    Follows key t n (s.arrive toUppercase cfg req src tag) := by
  obtain ⟨-, heq⟩ | ⟨-, -, s', hsame, heq⟩ | ⟨-, -, key', hkey, ⟨txn, hlive, heq⟩ | ⟨hlive, heq⟩⟩ :=
    arrive_cases toUppercase cfg s req src tag
  · rw [heq]
    exact h.respond req src _
  · rw [heq]
    exact (h.of_same hsame).emit not_false
  · rw [heq]
    split
    · exact h.emit not_false
    · exact h
  · rw [heq]
    have hs : Follows key t n
        { s with
          cache := s.cache.insert key' (.inProgress s.now none)
          tasks := s.tasks ++ [(req, src)] } := by
      refine ⟨h.le_length, h.le_now, fun hlt ↦ ?_⟩
      have hlt : s.now < t + txnLifetime := hlt
      have hentry := h.entry hlt
      -- A transaction that is still known is not claimed a second time.
      have hne : key ≠ key' := by
        rintro rfl
        obtain ⟨txn, hsome, -⟩ := hentry.live hlt
        rw [hlive] at hsome
        cases hsome
      rw [Map.get?_insert, if_neg hne]
      exact hentry
    exact hs.emit not_false

/-! ## Runs -/

theorem Follows.step (h : Follows key t n s) (e : Event) :
    Follows key t n (s.step toUppercase md5Hex cfg e) := by
  cases e with
  | tick ms =>
      refine ⟨h.le_length, Nat.le_add_right_of_le h.le_now, fun hlt ↦ h.entry ?_⟩
      exact Nat.lt_of_le_of_lt (Nat.le_add_right ..) hlt
  | request req src tag => exact h.arrive req src tag
  | handle i tag =>
      rw [Server.step]
      split
      · exact h
      · have hs : Follows key t n { s with tasks := s.tasks.eraseIdx i } := h.of_same ⟨rfl, rfl, rfl⟩
        exact handle_induction (fun s seen h ↦ h.of_same ⟨rfl, rfl, rfl⟩)
          (fun s m h ↦ h.of_same ⟨rfl, rfl, rfl⟩)
          (fun s resp h ↦ h.respond _ _ resp) (fun s o ho h ↦ h.emit ho) hs tag
  | respond req src resp => exact h.respond req src resp
  | timer i =>
      rw [Server.step]
      unfold timer
      split
      · exact h
      · split
        · exact h
        · split
          · exact h.of_same ⟨rfl, rfl, rfl⟩
          · dsimp only
            split
            · exact (h.emit (o := .replay _ _) not_false).of_same ⟨rfl, rfl, rfl⟩
            · exact (h.emit (o := .replay _ _) not_false).of_same ⟨rfl, rfl, rfl⟩
  | gc =>
      refine ⟨h.le_length, h.le_now, fun hlt ↦ ?_⟩
      have hentry := h.entry hlt
      obtain ⟨txn, hlive, -⟩ := hentry.live hlt
      have hget : (gcCache s.now s.cache).get? key = s.cache.get? key := by
        unfold gcCache
        split
        · obtain ⟨hsome, -⟩ := Option.filter_eq_some_iff.mp hlive
          rw [Map.get?_retain]
          exact hlive.trans hsome.symm
        · rfl
      simp only [Server.step, hget]
      exact hentry
  | modem ready => exact h.of_same ⟨rfl, rfl, rfl⟩

theorem Follows.run (h : Follows key t n s) (es : List Event) :
    Follows key t n (Run.run (Server.step toUppercase md5Hex cfg) s es) := by
  have hstep (s : Server) (e : Event) (h : Follows key t n s) :
      Follows key t n (s.step toUppercase md5Hex cfg e) := h.step e
  exact Run.invariant hstep es h

/-- A request that is not an ACK was passed to its handler: from here on its entry is kept. -/
theorem follows_of_handled {req : Request} {src : SocketAddr} {tag : Str}
    (hack : req.method ≠ .ack) (hkey : txnKey req = some key)
    (hout : .handle req src ∈ (s.arrive toUppercase cfg req src tag).out.drop s.out.length) :
    Follows key s.now (s.arrive toUppercase cfg req src tag).out.length
      (s.arrive toUppercase cfg req src tag) := by
  obtain ⟨-, heq⟩ | ⟨-, hor, -⟩ | ⟨-, -, key', hkey', ⟨txn, hlive, heq⟩ | ⟨hlive, heq⟩⟩ :=
    arrive_cases toUppercase cfg s req src tag
  · rw [heq, (respond_spec _ _ s req src _).2.1, List.drop_left] at hout
    simp at hout
  · rcases hor with h | h
    · exact absurd h hack
    · rw [hkey] at h
      cases h
  · rw [heq] at hout
    split at hout
    · simp [Server.emit] at hout
    · simp at hout
  · obtain rfl : key = key' := Option.some.inj (hkey.symm.trans hkey')
    rw [heq]
    refine ⟨Nat.le_refl _, Nat.le_refl _, fun _ ↦ ?_⟩
    rw [List.drop_length]
    exact Map.get?_insert_self ..

/-- The state after a run from the start. -/
def after (toUppercase : Char → Str) (md5Hex : List UInt8 → Str) (cfg : ServerConfig)
    (es : List Event) : Server :=
  Run.run (Server.step toUppercase md5Hex cfg) .init es

variable (toUppercase md5Hex cfg) in
/-- **A request is executed at most once.**  If a request that is not an ACK was passed to its
handler, another one under its key that arrives within the lifetime of a transaction is not; if
it comes from an allowed source, it is answered with what was sent last on the transaction,
finals before provisionals.  A final response is never displaced by a provisional one, and keys
are only shared by requests of the same branch, sequence number and method. -/
theorem executed_at_most_once :
    (∀ (pre mid : List Event) (req req' : Request) (src src' : SocketAddr) (tag tag' key : Str)
        (s₀ s₁ s₂ s₃ : Server),
      s₀ = after toUppercase md5Hex cfg pre →
      s₁ = after toUppercase md5Hex cfg (pre ++ [.request req src tag]) →
      s₂ = after toUppercase md5Hex cfg (pre ++ .request req src tag :: mid) →
      s₃ = after toUppercase md5Hex cfg (pre ++ .request req src tag :: mid ++
        [.request req' src' tag']) →
      req.method ≠ .ack → txnKey req = some key → txnKey req' = some key →
      .handle req src ∈ s₁.out.drop s₀.out.length →
      s₂.now < s₀.now + txnLifetime →
        .handle req' src' ∉ s₃.out.drop s₂.out.length ∧
        (cfg.sourceAllowed src'.ip = true →
          s₃.out = s₂.out ++ match lastAnswer key (s₂.out.drop s₁.out.length) with
            | some bytes => [.replay bytes src']
            | none => [])) ∧
    (∀ (s : Server) (req : Request) (src : SocketAddr) (resp : Response) (key : Str)
        (bytes : List UInt8) (time : Nat),
      resp.code < 200 → s.cache.get? key = some (.completed bytes time) →
        (s.respond toUppercase cfg req src resp).cache.get? key = some (.completed bytes time)) ∧
    ∀ (req req' : Request) (key : Str), txnKey req = some key → txnKey req' = some key →
      req.headers.topVia.bind Via.branch = req'.headers.topVia.bind Via.branch ∧
        req.headers.cseq.map Prod.fst = req'.headers.cseq.map Prod.fst ∧
        req.method = req'.method := by
  refine ⟨?_, fun s req src resp key bytes time hcode hget ↦ provisional_keeps_final src hcode hget,
    fun req req' key h h' ↦ txnKey_inj h h'⟩
  rintro pre mid req req' src src' tag tag' key s₀ s₁ s₂ s₃ hs₀ hs₁ hs₂ hs₃ hack hkey hkey' hout hlt
  have h₁ : s₁ = s₀.arrive toUppercase cfg req src tag := by
    rw [hs₁, hs₀, after, Run.run_append]
    rfl
  have h₂ : s₂ = Run.run (Server.step toUppercase md5Hex cfg) s₁ mid := by
    rw [hs₂, h₁, hs₀, after, Run.run_append]
    rfl
  have h₃ : s₃ = s₂.arrive toUppercase cfg req' src' tag' := by
    rw [hs₃, hs₂, after, Run.run_append]
    rfl
  have hfollows : Follows key s₀.now s₁.out.length s₂ := by
    rw [h₁] at hout
    rw [h₂, h₁]
    exact (follows_of_handled hack hkey hout).run mid
  obtain ⟨txn, hlive, hlast⟩ := (hfollows.entry hlt).live hlt
  have hack' : req'.method ≠ .ack := (txnKey_inj hkey hkey').2.2 ▸ hack
  cases hallowed : cfg.sourceAllowed src'.ip with
  | false =>
      refine ⟨?_, nofun⟩
      obtain ⟨-, heq⟩ | ⟨htrue, -⟩ | ⟨htrue, -⟩ :=
        arrive_cases toUppercase cfg s₂ req' src' tag'
      · rw [h₃, heq, (respond_spec _ _ s₂ req' src' _).2.1, List.drop_left]
        simp
      · rw [hallowed] at htrue
        cases htrue
      · rw [hallowed] at htrue
        cases htrue
  | true =>
      rw [h₃, arrive_known hallowed hack' hkey' hlive tag', hlast]
      cases lastAnswer key (s₂.out.drop s₁.out.length) with
      | some bytes => simp [Server.emit]
      | none => simp

end Parameters

/-! ## A message and its copies -/

/-- A configuration that serves one host. -/
def oneHost : ServerConfig where
  auth := none
  domain := none
  userAgent := "modem2sip"
  transport :=
    { bound := ⟨.v4 (ofOctets 192 0 2 1), 5060⟩, publicIp := none, localIpFor := fun _ ↦ none }
  secret := []
  allow := ["10.0.0.1"]
  optionsReflectModem := false
  retryAfterSecs := 30

/-- The host that is served. -/
def home : SocketAddr := ⟨.v4 (ofOctets 10 0 0 1), 5060⟩

/-- Another host. -/
def stranger : SocketAddr := ⟨.v4 (ofOctets 10 0 0 2), 5060⟩

def aMessage : Request where
  method := .message
  uri := Uri.new (some "+8210") "gw" none
  headers := ⟨[("via", "SIP/2.0/UDP 10.0.0.1;branch=z9hG4bK1"), ("cseq", "1 MESSAGE")]⟩
  body := []

/-- What the gateway answers it with first. -/
def trying : Response := aMessage.reply 100 "Trying"

theorem executed_at_most_once_copy :
    .handle aMessage home ∉
      (after (fun c ↦ [c.toUpper]) (fun _ ↦ []) oneHost
        [.request aMessage home [], .respond aMessage home trying, .tick 500,
          .request aMessage home []]).out.drop 2 := by
  have hkey : txnKey aMessage = some "z9hG4bK1|1|MESSAGE" := by decide
  have hlen : (after (fun c ↦ [c.toUpper]) (fun _ ↦ []) oneHost
      [.request aMessage home [], .respond aMessage home trying, .tick 500]).out.length = 2 := by
    decide +kernel
  have honce := (executed_at_most_once (fun c ↦ [c.toUpper]) (fun _ ↦ []) oneHost).1 [] [.respond aMessage home trying, .tick 500] aMessage aMessage home home
    [] [] _ _ _ _ _ rfl rfl rfl rfl (by decide) hkey hkey (by decide +kernel) (by decide +kernel)
  rw [← hlen]
  exact honce.1

/-- A copy from a source that is not allowed is not answered with what was sent last. -/
theorem refused_copy_gets_403 :
    ¬ ∀ (pre mid : List Event) (req req' : Request) (src src' : SocketAddr) (tag tag' key : Str)
        (s₀ s₁ s₂ s₃ : Server),
      s₀ = after (fun c ↦ [c.toUpper]) (fun _ ↦ []) oneHost pre →
      s₁ = after (fun c ↦ [c.toUpper]) (fun _ ↦ []) oneHost (pre ++ [.request req src tag]) →
      s₂ = after (fun c ↦ [c.toUpper]) (fun _ ↦ []) oneHost (pre ++ .request req src tag :: mid) →
      s₃ = after (fun c ↦ [c.toUpper]) (fun _ ↦ []) oneHost (pre ++ .request req src tag :: mid ++
        [.request req' src' tag']) →
      req.method ≠ .ack → txnKey req = some key → txnKey req' = some key →
      .handle req src ∈ s₁.out.drop s₀.out.length →
      s₂.now < s₀.now + txnLifetime →
        s₃.out = s₂.out ++ match lastAnswer key (s₂.out.drop s₁.out.length) with
          | some bytes => [.replay bytes src']
          | none => [] := by
  intro h
  have hkey : txnKey aMessage = some "z9hG4bK1|1|MESSAGE" := by decide
  have hout := h [] [] aMessage aMessage home stranger [] [] _ _ _ _ _ rfl rfl rfl rfl (by decide)
    hkey hkey (by decide +kernel) (by decide +kernel)
  exact absurd hout (by decide +kernel)

end Server

end Modem2Sip.Sip
