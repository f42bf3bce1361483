import Modem2Sip.Sip.AtMostOnce

/-!
# Sources that are not allowed

A request from such a source is answered with a 403 and goes no further, but the 403 is
kept for the transaction that the request names.  Two runs are compared here: one as it
is, and one without the requests that were refused.  They look the same from the allowed
sources as long as no request from these meets a 403 that was kept for somebody else.
-/

namespace Modem2Sip.Sip

open Text Net

/-- What a provisional response leaves of an entry. -/
def ServerTxn.withProvisional (bytes : List UInt8) : ServerTxn → ServerTxn
  | .inProgress since _ => .inProgress since (some bytes)
  | txn => txn

namespace Server

/-! ## Live entries -/

theorem liveTxn_later {now now' : Nat} (h : now ≤ now') (cache : ServerCache) (key : Str) :
    liveTxn now' cache key =
      (liveTxn now cache key).filter fun txn ↦ now' - txn.started < txnLifetime := by
  unfold liveTxn
  rw [Option.filter_filter]
  congr 1
  funext txn
  rw [Bool.eq_iff_iff]
  simp only [decide_eq_true_eq, Bool.and_eq_true]
  omega

theorem liveTxn_gcCache (now : Nat) (cache : ServerCache) (key : Str) :
    liveTxn now (gcCache now cache) key = liveTxn now cache key := by
  unfold gcCache liveTxn
  split
  · rw [Map.get?_retain, Option.filter_filter]
    simp
  · rfl

theorem liveTxn_congr {now : Nat} {cache cache' : ServerCache} {key : Str}
    (h : cache'.get? key = cache.get? key) : liveTxn now cache' key = liveTxn now cache key := by
  unfold liveTxn
  rw [h]

theorem started_withProvisional (bytes : List UInt8) (txn : ServerTxn) :
    (txn.withProvisional bytes).started = txn.started := by
  cases txn <;> rfl

theorem get?_cacheResponse_provisional {now code : Nat} (hcode : code < 200) (cache : ServerCache)
    (key : Str) (bytes : List UInt8) :
    (cacheResponse now cache key code bytes).get? key =
      (cache.get? key).map (ServerTxn.withProvisional bytes) := by
  unfold cacheResponse
  rw [if_neg (by omega)]
  cases hget : cache.get? key with
  | none => exact hget
  | some txn =>
      cases txn with
      | inProgress since provisional => exact Map.get?_insert_self ..
      | completed kept time => exact hget

theorem liveTxn_cacheResponse_provisional {now code : Nat} (hcode : code < 200)
    (cache : ServerCache) (key : Str) (bytes : List UInt8) :
    liveTxn now (cacheResponse now cache key code bytes) key =
      (liveTxn now cache key).map (ServerTxn.withProvisional bytes) := by
  unfold liveTxn
  rw [get?_cacheResponse_provisional hcode, Option.filter_map]
  simp only [Function.comp_def, started_withProvisional]

theorem liveTxn_cacheResponse_final {now code : Nat} (hcode : 200 ≤ code) (cache : ServerCache)
    (key : Str) (bytes : List UInt8) :
    liveTxn now (cacheResponse now cache key code bytes) key = some (.completed bytes now) := by
  have hpos : now - now < txnLifetime := by
    rw [Nat.sub_self]
    decide
  unfold cacheResponse liveTxn
  rw [if_pos hcode, Map.get?_insert_self, Option.filter_some]
  exact if_pos (decide_eq_true hpos)

/-! ## Who an entry was made for -/

/-- The source that an output makes an entry of the cache for. -/
def writer (key : Str) : Output → Option SocketAddr
  | .response k code _ dest => if k = some key ∧ 200 ≤ code then some dest else none
  | .handle req src => if req.method ≠ .ack ∧ txnKey req = some key then some src else none
  | .event .. | .replay .. => none

/-- The source that the entry of a key was made for last. -/
def lastWriter (key : Str) (out : List Output) : Option SocketAddr :=
  (out.filterMap (writer key)).getLast?

section Parameters

variable (cfg : ServerConfig)

/-- Was the entry of the key made for a source that is not allowed? -/
def refused (out : List Output) (key : Str) : Bool :=
  (lastWriter key out).any fun dest ↦ !cfg.sourceAllowed dest.ip

/-- What an allowed source can see. -/
def visible (out : List Output) : List Output :=
  out.filter fun o ↦
    match o with
    | .response _ _ _ dest | .replay _ dest => cfg.sourceAllowed dest.ip
    | .handle .. | .event .. => true

/-- The events that stay when the requests from other sources are taken out. -/
def keeps : Event → Bool
  | .request _ src _ => cfg.sourceAllowed src.ip
  | _ => true

/-- A request from an allowed source, unless it is an ACK, does not meet a live entry that was
made for a source that is not allowed. -/
def meetsNoRefusal (s : Server) : Event → Bool
  | .request req src _ =>
    !cfg.sourceAllowed src.ip || req.method == .ack ||
      (txnKey req).all fun key ↦ (liveTxn s.now s.cache key).isNone || !refused cfg s.out key
  | _ => true

/-! ## Two runs -/

/-- The entries of a key in the run as it is, `g`, and in the other one, `f`: as long as they
last they are the same, or the one of `g` was made by a refusal and the one of `f` is older. -/
def EntryAgrees (g f : Server) (key : Str) : Prop :=
  liveTxn g.now g.cache key = liveTxn g.now f.cache key ∨
    refused cfg g.out key = true ∧ ∃ bytes time, g.cache.get? key = some (.completed bytes time) ∧
      ∀ txn, f.cache.get? key = some txn → txn.started ≤ time

structure Agrees (g f : Server) : Prop where
  rest : f = { g with cache := f.cache, out := f.out }
  out : visible cfg f.out = visible cfg g.out
  started : ∀ key txn, f.cache.get? key = some txn → txn.started ≤ g.now
  entry : ∀ key, EntryAgrees cfg g f key

variable {cfg}

theorem refused_append_other {out : List Output} {o : Output} {key : Str}
    (h : writer key o = none) : refused cfg (out ++ [o]) key = refused cfg out key := by
  unfold refused lastWriter
  simp [List.filterMap_append, h]

theorem refused_append_writer {out : List Output} {o : Output} {key : Str} {dest : SocketAddr}
    (h : writer key o = some dest) :
    refused cfg (out ++ [o]) key = !cfg.sourceAllowed dest.ip := by
  unfold refused lastWriter
  simp [List.filterMap_append, h]

theorem visible_append (out out' : List Output) :
    visible cfg (out ++ out') = visible cfg out ++ visible cfg out' := List.filter_append ..

variable {g f : Server}

/-- Nothing that concerns the key has changed. -/
theorem EntryAgrees.of_eq {g' f' : Server} {key : Str} (h : EntryAgrees cfg g f key)
    (hnow : g'.now = g.now) (hg : g'.cache.get? key = g.cache.get? key)
    (hf : f'.cache.get? key = f.cache.get? key)
    (hout : refused cfg g'.out key = refused cfg g.out key) : EntryAgrees cfg g' f' key := by
  unfold EntryAgrees
  rw [hnow, liveTxn_congr hg, liveTxn_congr hf, hout, hg, hf]
  exact h

theorem respond_get?_of_ne {toUppercase : Char → Str} (s : Server) {req : Request} {key : Str}
    (h : txnKey req ≠ some key) (src : SocketAddr) (resp : Response) :
    (s.respond toUppercase cfg req src resp).cache.get? key = s.cache.get? key := by
  rw [(respond_spec _ _ s req src resp).2.2]
  cases hkey : txnKey req with
  | none => rfl
  | some key' => exact get?_cacheResponse_of_ne fun heq ↦ h (by rw [hkey, heq])

namespace Agrees

theorem refl (g : Server) (hstarted : ∀ key txn, g.cache.get? key = some txn → txn.started ≤ g.now) :
    Agrees cfg g g := ⟨rfl, rfl, hstarted, fun _ ↦ .inl rfl⟩

theorem now (h : Agrees cfg g f) : f.now = g.now := by
  rw [h.rest]

theorem nonceSeen (h : Agrees cfg g f) : f.nonceSeen = g.nonceSeen := by
  rw [h.rest]

theorem resends (h : Agrees cfg g f) : f.resends = g.resends := by
  rw [h.rest]

theorem pendingAck (h : Agrees cfg g f) : f.pendingAck = g.pendingAck := by
  rw [h.rest]

theorem tasks (h : Agrees cfg g f) : f.tasks = g.tasks := by
  rw [h.rest]

theorem modemReady (h : Agrees cfg g f) : f.modemReady = g.modemReady := by
  rw [h.rest]

theorem registrar (h : Agrees cfg g f) : f.registrar = g.registrar := by
  rw [h.rest]

/-- An operation that neither reads nor writes the cache and the record, and takes no time. -/
theorem update (h : Agrees cfg g f) {u : Server → Server}
    (hu : ∀ s c o, u { s with cache := c, out := o } = { u s with cache := c, out := o })
    (hnow : ∀ s, (u s).now = s.now) : Agrees cfg (u g) (u f) := by
  have hcache (s : Server) : (u s).cache = s.cache ∧ (u s).out = s.out := by
    have := hu s s.cache s.out
    rw [this]
    exact ⟨rfl, rfl⟩
  refine ⟨?_, ?_, ?_, ?_⟩
  · have heq : u f = { u g with cache := f.cache, out := f.out } := by
      rw [← hu]
      exact congrArg u h.rest
    rw [heq]
  · rw [(hcache f).2, (hcache g).2, h.out]
  · rw [(hcache f).1, hnow]
    exact h.started
  · intro key
    unfold EntryAgrees
    rw [(hcache f).1, (hcache g).1, (hcache g).2, hnow]
    exact h.entry key

/-- Something that makes no entry is put on record. -/
theorem emit (h : Agrees cfg g f) {o : Output} (ho : ∀ key, writer key o = none) :
    Agrees cfg (g.emit o) (f.emit o) := by
  refine ⟨?_, ?_, h.started, ?_⟩
  · have hrest := h.rest
    rw [hrest]
    rfl
  · rw [Server.emit, Server.emit, visible_append, visible_append, h.out]
  · intro key
    obtain heq | ⟨hrefused, hentry⟩ := h.entry key
    · exact .inl heq
    · exact .inr ⟨(refused_append_other (ho key)).trans hrefused, hentry⟩

theorem tick (h : Agrees cfg g f) (ms : Nat) :
    Agrees cfg { g with now := g.now + ms } { f with now := f.now + ms } := by
  refine ⟨?_, h.out, ?_, ?_⟩
  · rw [h.rest]
  · intro key txn hget
    exact Nat.le_add_right_of_le (h.started key txn hget)
  · intro key
    obtain heq | hrefused := h.entry key
    · refine .inl ?_
      dsimp only
      rw [liveTxn_later (Nat.le_add_right g.now ms), heq,
        ← liveTxn_later (Nat.le_add_right g.now ms)]
    · exact .inr hrefused

theorem gc (h : Agrees cfg g f) :
    Agrees cfg
      { g with cache := gcCache g.now g.cache, nonceSeen := gcNonces g.now g.nonceSeen }
      { f with cache := gcCache f.now f.cache, nonceSeen := gcNonces f.now f.nonceSeen } := by
  have hsub (now : Nat) (cache : ServerCache) (key : Str) (txn : ServerTxn)
      (hget : (gcCache now cache).get? key = some txn) : cache.get? key = some txn := by
    unfold gcCache at hget
    split at hget
    · rw [Map.get?_retain] at hget
      exact (Option.filter_eq_some_iff.mp hget).1
    · exact hget
  refine ⟨?_, h.out, ?_, ?_⟩
  · rw [h.rest]
  · intro key txn hget
    exact h.started key txn (hsub _ _ _ _ hget)
  · intro key
    unfold EntryAgrees
    dsimp only
    rw [h.now, liveTxn_gcCache, liveTxn_gcCache]
    obtain heq | ⟨hrefused, bytes, time, hget, hold⟩ := h.entry key
    · exact .inl heq
    · -- The entry of the refusal is either kept or too old, and then so is the other one.
      by_cases hage : g.now - time < txnLifetime
      · refine .inr ⟨hrefused, bytes, time, ?_, fun txn htxn ↦ hold txn (hsub _ _ _ _ htxn)⟩
        unfold gcCache
        split
        · rw [Map.get?_retain, hget, Option.filter_some]
          exact if_pos (decide_eq_true hage)
        · exact hget
      · have hnone : liveTxn g.now g.cache key = none := by
          unfold liveTxn
          rw [hget, Option.filter_some]
          exact if_neg fun hlive ↦ hage (of_decide_eq_true hlive)
        have hnone' : liveTxn g.now f.cache key = none := by
          unfold liveTxn
          rw [Option.filter_eq_none_iff]
          intro txn htxn
          have := hold txn htxn
          simp
          omega
        exact .inl (hnone.trans hnone'.symm)

variable (toUppercase : Char → Str)

/-- Other responses than a 2xx change only the cache and the record. -/
theorem respond_of_not_success (s : Server) (req : Request) (src : SocketAddr) (resp : Response)
    (h : resp.isSuccess = false) :
    ∃ c o, s.respond toUppercase cfg req src resp = { s with cache := c, out := o } := by
  unfold respond
  simp only [h, Bool.false_eq_true, and_false, if_false]
  cases txnKey req with
  | none => exact ⟨_, _, rfl⟩
  | some key => exact ⟨_, _, rfl⟩

variable (cfg) in
/-- What `respond` does apart from the cache and the record does not depend on these. -/
theorem respond_rest (s : Server) (c : ServerCache) (o : List Output) (req : Request)
    (src : SocketAddr) (resp : Response) :
    ∃ c' o', ({ s with cache := c, out := o } : Server).respond toUppercase cfg req src resp =
      { s.respond toUppercase cfg req src resp with cache := c', out := o' } := by
  unfold respond
  generalize (complete cfg req src resp).encode toUppercase = bytes
  by_cases hinvite : req.method = .invite ∧ resp.isSuccess = true
  · simp only [if_pos hinvite, retransmitUntilAcked]
    cases txnKey req with
    | none =>
        cases dialogKey req with
        | none => exact ⟨_, _, rfl⟩
        | some key =>
            dsimp only
            cases s.pendingAck.get? key with
            | none => exact ⟨_, _, rfl⟩
            | some i => exact ⟨_, _, rfl⟩
    | some k =>
        cases dialogKey req with
        | none => exact ⟨_, _, rfl⟩
        | some key =>
            dsimp only
            cases s.pendingAck.get? key with
            | none => exact ⟨_, _, rfl⟩
            | some i => exact ⟨_, _, rfl⟩
  · simp only [if_neg hinvite]
    cases txnKey req with
    | none => exact ⟨_, _, rfl⟩
    | some k => exact ⟨_, _, rfl⟩

/-- A refused request of the run as it is, which the other one does not see. -/
theorem refuse (h : Agrees cfg g f) (req : Request) {src : SocketAddr}
    (hsrc : cfg.sourceAllowed src.ip = false) (tag : Str) :
    Agrees cfg
      (g.respond toUppercase cfg req src (makeResponse cfg.toCoreConfig tag req 403 none)) f := by
  obtain ⟨hnow, hout, hcache⟩ := respond_spec toUppercase cfg g req src
    (makeResponse cfg.toCoreConfig tag req 403 none)
  refine ⟨?_, ?_, ?_, ?_⟩
  · obtain ⟨c, o, heq⟩ : ∃ c o, g.respond toUppercase cfg req src
        (makeResponse cfg.toCoreConfig tag req 403 none) = { g with cache := c, out := o } :=
      respond_of_not_success toUppercase g req src _ rfl
    rw [heq]
    exact h.rest
  · rw [hout, visible_append, h.out]
    simp [visible, hsrc]
  · rw [hnow]
    exact h.started
  · intro key
    by_cases hkey : txnKey req = some key
    · rw [hkey] at hcache
      have hwriter : writer key (.response (txnKey req) 403
          ((complete cfg req src (makeResponse cfg.toCoreConfig tag req 403 none)).encode toUppercase)
          src) = some src := by
        simp [writer, hkey]
      refine .inr ⟨?_, (complete cfg req src (makeResponse cfg.toCoreConfig tag req 403 none)).encode
        toUppercase, g.now, ?_, h.started key⟩
      · rw [hout]
        exact (refused_append_writer hwriter).trans (by rw [hsrc]; rfl)
      · rw [hcache]
        exact Map.get?_insert_self ..
    · refine (h.entry key).of_eq hnow (respond_get?_of_ne g hkey src _) rfl ?_
      rw [hout, refused_append_other (by simp [writer, hkey])]

theorem rest_of_exists {g f : Server} (h : ∃ c o, f = { g with cache := c, out := o }) :
    f = { g with cache := f.cache, out := f.out } := by
  obtain ⟨c, o, rfl⟩ := h
  rfl

/-- The same response in both runs. -/
theorem respond (h : Agrees cfg g f) (req : Request) (src : SocketAddr) (resp : Response) :
    Agrees cfg (g.respond toUppercase cfg req src resp) (f.respond toUppercase cfg req src resp) := by
  obtain ⟨hnow, hout, hcache⟩ := respond_spec toUppercase cfg g req src resp
  obtain ⟨-, hout', hcache'⟩ := respond_spec toUppercase cfg f req src resp
  refine ⟨?_, ?_, ?_, ?_⟩
  · have hrest := respond_rest cfg toUppercase g f.cache f.out req src resp
    rw [← h.rest] at hrest
    exact rest_of_exists hrest
  · rw [hout, hout', visible_append, visible_append, h.out]
  · intro key txn hget
    rw [hnow]
    by_cases hkey : txnKey req = some key
    · rw [hcache', hkey] at hget
      dsimp only at hget
      by_cases hcode : 200 ≤ resp.code
      · rw [cacheResponse, if_pos hcode, Map.get?_insert_self, Option.some.injEq] at hget
        rw [← hget, ServerTxn.started, h.now]
      · rw [get?_cacheResponse_provisional (by omega), Option.map_eq_some_iff] at hget
        obtain ⟨txn', hget', rfl⟩ := hget
        rw [started_withProvisional]
        exact h.started key txn' hget'
    · rw [respond_get?_of_ne f hkey] at hget
      exact h.started key txn hget
  · intro key
    by_cases hkey : txnKey req = some key
    · rw [hkey] at hcache hcache'
      unfold EntryAgrees
      rw [hnow, hcache, hcache', hout, h.now]
      dsimp only
      by_cases hcode : 200 ≤ resp.code
      · rw [liveTxn_cacheResponse_final hcode, liveTxn_cacheResponse_final hcode]
        exact .inl rfl
      · have hcode' : resp.code < 200 := by omega
        rw [liveTxn_cacheResponse_provisional hcode', liveTxn_cacheResponse_provisional hcode',
          get?_cacheResponse_provisional hcode', get?_cacheResponse_provisional hcode']
        obtain heq | ⟨hrefused, bytes, time, hget, hold⟩ := h.entry key
        · exact .inl (congrArg _ heq)
        · refine .inr ⟨?_, bytes, time, by rw [hget]; rfl, ?_⟩
          · rw [refused_append_other (by simp [writer, hcode]), hrefused]
          · intro txn htxn
            obtain ⟨txn', htxn', rfl⟩ := Option.map_eq_some_iff.mp htxn
            rw [started_withProvisional]
            exact hold txn' htxn'
    · refine (h.entry key).of_eq hnow (respond_get?_of_ne g hkey src _)
        (respond_get?_of_ne f hkey src _) ?_
      rw [hout, refused_append_other (by simp [writer, hkey])]

/-- A request that is not refused arrives in both runs, and meets no refusal. -/
theorem arrive (h : Agrees cfg g f) {req : Request} {src : SocketAddr} {tag : Str}
    (hsrc : cfg.sourceAllowed src.ip = true)
    (hmeets : meetsNoRefusal cfg g (.request req src tag) = true) :
    Agrees cfg (g.arrive toUppercase cfg req src tag) (f.arrive toUppercase cfg req src tag) := by
  have hother (hack : req.method = .ack ∨ txnKey req = none) (key : Str) :
      writer key (.handle req src) = none := by
    rcases hack with hack | hkey
    · simp [writer, hack]
    · simp [writer, hkey]
  simp only [Server.arrive, hsrc, Bool.not_true, Bool.false_eq_true, if_false]
  by_cases hack : req.method = .ack
  · simp only [if_pos hack]
    refine Agrees.emit ?_ (hother (.inl hack))
    cases dialogKey req with
    | none =>
        exact h.update (u := fun s ↦ { s with tasks := s.tasks ++ [(req, src)] })
          (fun _ _ _ ↦ rfl) fun _ ↦ rfl
    | some key =>
        dsimp only
        rw [h.pendingAck]
        cases g.pendingAck.get? key with
        | none =>
            exact h.update (u := fun s ↦ { s with tasks := s.tasks ++ [(req, src)] })
              (fun _ _ _ ↦ rfl) fun _ ↦ rfl
        | some i =>
            exact h.update (u := fun s ↦ { s.stopResend i with
              pendingAck := g.pendingAck.erase key
              tasks := s.tasks ++ [(req, src)] }) (fun _ _ _ ↦ rfl) fun _ ↦ rfl
  · simp only [if_neg hack]
    cases hkey : txnKey req with
    | none =>
        refine Agrees.emit ?_ (hother (.inr hkey))
        exact h.update (u := fun s ↦ { s with tasks := s.tasks ++ [(req, src)] })
          (fun _ _ _ ↦ rfl) fun _ ↦ rfl
    | some key =>
        -- A refusal that is not met any more is as good as none.
        have hlive : liveTxn g.now f.cache key = liveTxn g.now g.cache key := by
          obtain heq | ⟨hrefused, bytes, time, hget, hold⟩ := h.entry key
          · exact heq.symm
          · have hnone : liveTxn g.now g.cache key = none := by
              simpa [meetsNoRefusal, hsrc, hack, hkey, hrefused] using hmeets
            rw [hnone]
            unfold liveTxn at hnone ⊢
            rw [hget, Option.filter_eq_none_iff] at hnone
            rw [Option.filter_eq_none_iff]
            intro txn htxn hyoung
            have hage : ¬ g.now - time < txnLifetime := fun hlt ↦ hnone _ rfl (decide_eq_true hlt)
            have := of_decide_eq_true hyoung
            have := hold txn htxn
            omega
        dsimp only [claimTxn]
        rw [h.now, hlive]
        cases liveTxn g.now g.cache key with
        | some txn =>
            dsimp only
            cases txn with
            | completed bytes time => exact h.emit fun _ ↦ rfl
            | inProgress since provisional =>
                cases provisional with
                | none => exact h
                | some bytes => exact h.emit fun _ ↦ rfl
        | none =>
            dsimp only
            refine ⟨?_, ?_, ?_, ?_⟩
            · rw [h.rest]
              rfl
            · rw [Server.emit, Server.emit, visible_append, visible_append, h.out]
            · intro k txn hget
              dsimp only [Server.emit] at hget ⊢
              rw [Map.get?_insert] at hget
              split at hget
              · rw [← Option.some.inj hget, ServerTxn.started]
              · exact h.started k txn hget
            · intro k
              by_cases heq : k = key
              · subst heq
                refine .inl ?_
                unfold liveTxn
                dsimp only [Server.emit]
                rw [Map.get?_insert_self, Map.get?_insert_self]
              · refine (h.entry k).of_eq rfl ?_ ?_ ?_
                · exact (Map.get?_insert ..).trans (if_neg heq)
                · exact (Map.get?_insert ..).trans (if_neg heq)
                · exact refused_append_other (by simp [writer, hkey, Ne.symm heq])

theorem timer (h : Agrees cfg g f) (i : Nat) : Agrees cfg (g.timer i) (f.timer i) := by
  have hget : f.resends[i]? = g.resends[i]? := by rw [h.resends]
  unfold Server.timer
  rw [hget]
  cases g.resends[i]? with
  | none => exact h
  | some r =>
      dsimp only
      have hiff : (r.done = true ∨ f.now < r.wakeAt) ↔ (r.done = true ∨ g.now < r.wakeAt) := by
        rw [h.now]
      by_cases hskip : r.done = true ∨ g.now < r.wakeAt
      · rw [if_pos hskip, if_pos (hiff.mpr hskip)]
        exact h
      · rw [if_neg hskip, if_neg (mt hiff.mp hskip)]
        by_cases hstopped : r.stopped = true
        · rw [if_pos hstopped, if_pos hstopped]
          exact h.update
            (u := fun s ↦ { s with resends := s.resends.set i { r with done := true } })
            (fun _ _ _ ↦ rfl) fun _ ↦ rfl
        · rw [if_neg hstopped, if_neg hstopped]
          have hsent := h.emit (o := .replay r.bytes r.dest) fun _ ↦ rfl
          by_cases hmore : r.elapsed + r.delay < 32 * 1000
          · rw [if_pos hmore, if_pos hmore]
            exact hsent.update
              (u := fun s ↦ { s with
                resends := s.resends.set i
                  { r with
                    elapsed := r.elapsed + r.delay
                    delay := min (r.delay * 2) 4000
                    wakeAt := s.now + min (r.delay * 2) 4000 } })
              (fun _ _ _ ↦ rfl) fun _ ↦ rfl
          · rw [if_neg hmore, if_neg hmore]
            exact hsent.update
              (u := fun s ↦ { s with
                resends := s.resends.set i
                  { r with
                    elapsed := r.elapsed + r.delay
                    delay := min (r.delay * 2) 4000
                    done := true }
                pendingAck := if s.pendingAck.get? r.key = some i then s.pendingAck.erase r.key
                  else s.pendingAck })
              (fun _ _ _ ↦ rfl) fun _ ↦ rfl

/-- Both runs let a request through, or both answer it with the same challenge. -/
theorem authorised (h : Agrees cfg g f) (md5Hex : List UInt8 → Str) (req : Request)
    (src : SocketAddr) (tag : Str) :
    ∃ ok g' f', g.authorised toUppercase md5Hex cfg req src tag = (ok, g') ∧
      f.authorised toUppercase md5Hex cfg req src tag = (ok, f') ∧ Agrees cfg g' f' := by
  have hcheck : checkAuth md5Hex cfg.toCoreConfig f.now tag f.nonceSeen req =
      checkAuth md5Hex cfg.toCoreConfig g.now tag g.nonceSeen req := by
    rw [h.now, h.nonceSeen]
  unfold Server.authorised
  rw [hcheck]
  rcases checkAuth md5Hex cfg.toCoreConfig g.now tag g.nonceSeen req with ⟨seen, _ | resp⟩
  · exact ⟨true, _, _, rfl, rfl, h.update (u := fun s ↦ { s with nonceSeen := seen })
      (fun _ _ _ ↦ rfl) fun _ ↦ rfl⟩
  · have hseen := h.update (u := fun s ↦ { s with nonceSeen := seen }) (fun _ _ _ ↦ rfl) fun _ ↦ rfl
    exact ⟨false, _, _, rfl, rfl, hseen.respond toUppercase req src resp⟩

/-- A request that is let through goes to the gateway. -/
theorem pass (h : Agrees cfg g f) (md5Hex : List UInt8 → Str) (req : Request) (src : SocketAddr)
    (tag : Str) :
    Agrees cfg
      (match g.authorised toUppercase md5Hex cfg req src tag with
        | (false, s) => s
        | (true, s) => s.emit (.event req src))
      (match f.authorised toUppercase md5Hex cfg req src tag with
        | (false, s) => s
        | (true, s) => s.emit (.event req src)) := by
  obtain ⟨ok, g', f', hg, hf, h'⟩ := h.authorised toUppercase md5Hex req src tag
  rw [hg, hf]
  cases ok with
  | false => exact h'
  | true => exact h'.emit fun _ ↦ rfl

theorem handle (h : Agrees cfg g f) (md5Hex : List UInt8 → Str) (req : Request) (src : SocketAddr)
    (tag : Str) :
    Agrees cfg (g.handle toUppercase md5Hex cfg req src tag)
      (f.handle toUppercase md5Hex cfg req src tag) := by
  obtain ⟨ok, g', f', hg, hf, h'⟩ := h.authorised toUppercase md5Hex req src tag
  have hpass := h.pass toUppercase md5Hex req src tag
  unfold Server.handle
  cases req.method with
  | register =>
      dsimp only
      unfold handleRegister
      rw [hg, hf]
      cases ok with
      | false => exact h'
      | true =>
          dsimp only
          cases req.headers.toAddr with
          | none => exact h'.respond toUppercase req src _
          | some addr =>
              dsimp only
              have hm : registerContacts f'.now f'.registrar addr.uri.bare.show req src =
                  registerContacts g'.now g'.registrar addr.uri.bare.show req src := by
                rw [h'.registrar, h'.now]
              rw [hm]
              generalize registerContacts g'.now g'.registrar addr.uri.bare.show req src = m
              have hresp : registerResponse cfg f'.now ((m.get? addr.uri.bare.show).getD []) tag req =
                  registerResponse cfg g'.now ((m.get? addr.uri.bare.show).getD []) tag req := by
                rw [h'.now]
              rw [hresp]
              exact (h'.update (u := fun s ↦ { s with registrar := m }) (fun _ _ _ ↦ rfl)
                fun _ ↦ rfl).respond toUppercase req src _
  | options =>
      dsimp only
      unfold handleOptions
      rw [h.modemReady]
      exact h.respond toUppercase req src _
  | ack => exact h.emit fun _ ↦ rfl
  | invite | bye | cancel | info | message => exact hpass
  | notify | subscribe | update | prack | refer => exact h.respond toUppercase req src _

/-- A step of both runs. -/
theorem step (h : Agrees cfg g f) (md5Hex : List UInt8 → Str) {e : Event}
    (hkeeps : keeps cfg e = true) (hmeets : meetsNoRefusal cfg g e = true) :
    Agrees cfg (g.step toUppercase md5Hex cfg e) (f.step toUppercase md5Hex cfg e) := by
  cases e with
  | tick ms => exact h.tick ms
  | request req src tag => exact h.arrive toUppercase hkeeps hmeets
  | handle i tag =>
      have hget : f.tasks[i]? = g.tasks[i]? := by rw [h.tasks]
      rw [Server.step, Server.step, hget]
      cases g.tasks[i]? with
      | none => exact h
      | some task =>
          exact (h.update (u := fun s ↦ { s with tasks := s.tasks.eraseIdx i }) (fun _ _ _ ↦ rfl)
            fun _ ↦ rfl).handle toUppercase md5Hex task.1 task.2 tag
  | respond req src resp => exact h.respond toUppercase req src resp
  | timer i => exact h.timer i
  | gc => exact h.gc
  | modem ready =>
      exact h.update (u := fun s ↦ { s with modemReady := ready }) (fun _ _ _ ↦ rfl) fun _ ↦ rfl

/-- A step that only the run as it is takes. -/
theorem step_refused (h : Agrees cfg g f) (md5Hex : List UInt8 → Str) {e : Event}
    (hkeeps : keeps cfg e = false) : Agrees cfg (g.step toUppercase md5Hex cfg e) f := by
  cases e with
  | request req src tag =>
      have hsrc : cfg.sourceAllowed src.ip = false := hkeeps
      have harrive : g.arrive toUppercase cfg req src tag =
          g.respond toUppercase cfg req src (makeResponse cfg.toCoreConfig tag req 403 none) := by
        unfold Server.arrive
        rw [hsrc]
        rfl
      rw [Server.step, harrive]
      exact h.refuse toUppercase req hsrc tag
  | tick | handle | respond | timer | gc | modem => cases hkeeps

theorem run (md5Hex : List UInt8 → Str) {es : List Event} (h : Agrees cfg g f)
    (hrun : Run.Guarded (Server.step toUppercase md5Hex cfg)
      (fun s e ↦ meetsNoRefusal cfg s e = true) g es) :
    Agrees cfg (Run.run (Server.step toUppercase md5Hex cfg) g es)
      (Run.run (Server.step toUppercase md5Hex cfg) f (es.filter (keeps cfg))) := by
  induction es generalizing g f with
  | nil => exact h
  | cons e es ih =>
      cases hkeeps : keeps cfg e with
      | true =>
          rw [List.filter_cons_of_pos hkeeps]
          exact ih (h.step toUppercase md5Hex hkeeps hrun.1) hrun.2
      | false =>
          rw [List.filter_cons_of_neg (by simp [hkeeps])]
          exact ih (h.step_refused toUppercase md5Hex hkeeps) hrun.2

end Agrees

/-- **Sources that are not allowed have no influence** on what the allowed ones see, at any time
of a run in which no allowed request meets a refusal: without the refused requests, the same
requests are passed on and the same bytes are sent to the allowed sources. -/
theorem visible_eq_of_meetsNoRefusal (toUppercase : Char → Str) (md5Hex : List UInt8 → Str)
    (cfg : ServerConfig) {es : List Event}
    (hrun : Run.Guarded (Server.step toUppercase md5Hex cfg)
      (fun s e ↦ meetsNoRefusal cfg s e = true) .init es) :
    ∀ pre, pre <+: es →
      visible cfg (after toUppercase md5Hex cfg pre).out =
        visible cfg (after toUppercase md5Hex cfg (pre.filter (keeps cfg))).out := by
  rintro pre ⟨rest, rfl⟩
  have hinit : Agrees cfg init init := .refl init fun key txn hget ↦ by
    simp [init] at hget
  exact (hinit.run toUppercase md5Hex (Run.guarded_append.mp hrun).1).out.symm

theorem visible_eq_of_meetsNoRefusal_late :
    visible oneHost (after (fun c ↦ [c.toUpper]) (fun _ ↦ []) oneHost
        [.request aMessage stranger [], .tick 32000, .request aMessage home []]).out =
      visible oneHost (after (fun c ↦ [c.toUpper]) (fun _ ↦ []) oneHost
        [.tick 32000, .request aMessage home []]).out :=
  have hrun : Run.Guarded (Server.step (fun c ↦ [c.toUpper]) (fun _ ↦ []) oneHost)
      (fun s e ↦ meetsNoRefusal oneHost s e = true) .init
      [.request aMessage stranger [], .tick 32000, .request aMessage home []] := by
    decide +kernel
  visible_eq_of_meetsNoRefusal _ _ oneHost hrun _ (List.prefix_refl _)

/-- A refused request takes the transaction of one that comes after it: that one is answered with
the refusal and not passed on. -/
theorem refusal_is_replayed_to_others :
    ¬ ∀ es : List Event,
      visible oneHost (after (fun c ↦ [c.toUpper]) (fun _ ↦ []) oneHost es).out =
        visible oneHost
          (after (fun c ↦ [c.toUpper]) (fun _ ↦ []) oneHost (es.filter (keeps oneHost))).out := by
  intro h
  exact absurd (h [.request aMessage stranger [], .request aMessage home []]) (by decide +kernel)

end Parameters

end Server

end Modem2Sip.Sip
