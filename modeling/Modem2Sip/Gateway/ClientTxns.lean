import Modem2Sip.Gateway.Loop

/-!
# Client transactions and their handles

`send_request` registers a transaction under its branch, sends, and only then makes the
handle whose drop takes the registration out again.  When the send fails there is no
handle and the registration stays.  It also stays out of step when two transactions
have one branch, since the handle that is dropped first takes out the registration of
both.  In all other runs the registered branches are those of the live handles.
-/

namespace Modem2Sip.Gateway.ClientTxns

open Text Net Sip Run

/-- The core, and the handles that its callers hold. -/
structure Held where
  core : State
  handles : List ClientTxn

inductive Event where
  | send (env : Env) (req : Request) (dest : SocketAddr)
  | response (resp : Response)
  /-- The handle with this channel is dropped, if there is one. -/
  | drop (chan : Nat)

def step (s : Held) : Event → Held
  | .send env req dest =>
    { core := (s.core.sendRequest env req dest).1
      handles := s.handles ++ (s.core.sendRequest env req dest).2.toList }
  | .response resp => { s with core := s.core.onResponse resp }
  | .drop chan =>
    match s.handles.find? (·.chan == chan) with
    | some txn => { core := s.core.dropTxn txn, handles := s.handles.erase txn }
    | none => s

/-- The registered branches are those of the live handles. -/
def Exact (s : Held) : Prop :=
  ∀ branch, s.core.clientTxns.get? branch ≠ none ↔ ∃ txn ∈ s.handles, txn.branch = branch

/-- What a step has to keep: the branches are exact after it, and a request that is refused leaves
the registrations as they were. -/
def Kept (s : Held) (e : Event) : Prop :=
  Exact (step s e) ∧ ∀ env req dest, e = .send env req dest →
    (s.core.sendRequest env req dest).2 = none →
      (step s e).core.clientTxns = s.core.clientTxns

/-- The socket takes a request that has a branch, and no other handle has the branch of one that is
dropped. -/
def Clean (s : Held) : Event → Prop
  | .send env req _ => req.headers.topVia.bind Via.branch ≠ none → env.sendOk s.core.log.length = true
  | .response _ => True
  | .drop chan => ∀ txn ∈ s.handles, txn.chan = chan →
      ∀ other ∈ s.handles, other.branch = txn.branch → other = txn

/-- The invariant: the channels of the handles are different ones, and channels of the past, as are
those of the registrations. -/
structure Inv (s : Held) : Prop where
  exact : Exact s
  nodup : (s.handles.map ClientTxn.chan).Nodup
  handles_lt : ∀ txn ∈ s.handles, txn.chan < s.core.nextChan
  entries_lt : ∀ branch entry, s.core.clientTxns.get? branch = some entry →
    entry.chan < s.core.nextChan

variable {s : Held}

/-! ## One step -/

/-- A request without a branch is refused at once. -/
theorem sendRequest_of_none {env : Env} {req : Request} {dest : SocketAddr}
    (h : req.headers.topVia.bind Via.branch = none) (g : State) :
    g.sendRequest env req dest = (g, none) := by
  rw [State.sendRequest, h]

theorem sendRequest_of_some {req : Request} {branch : Str}
    (h : req.headers.topVia.bind Via.branch = some branch) (env : Env) (dest : SocketAddr) (g : State) :
    (g.sendRequest env req dest).1.clientTxns =
        g.clientTxns.insert branch ⟨req.method, g.nextChan, false⟩ ∧
      (g.sendRequest env req dest).1.nextChan = g.nextChan + 1 ∧
      (g.sendRequest env req dest).2 =
        if env.sendOk g.log.length = true then some ⟨branch, g.nextChan⟩ else none := by
  rw [State.sendRequest, h]
  exact ⟨rfl, rfl, rfl⟩

/-- A response changes no branch, and no channel. -/
theorem onResponse_get? (g : State) (resp : Response) :
    (g.onResponse resp).nextChan = g.nextChan ∧ ∀ branch,
      ((g.onResponse resp).clientTxns.get? branch).map ClientTxnEntry.chan =
        (g.clientTxns.get? branch).map ClientTxnEntry.chan := by
  unfold State.onResponse
  dsimp only
  split
  · rename_i branch _ method _ _
    split
    · rename_i entry hentry
      split
      · exact ⟨rfl, fun _ ↦ rfl⟩
      · refine ⟨rfl, fun branch' ↦ ?_⟩
        change ((Map.insert _ _ _).get? branch').map _ = _
        rw [Map.get?_insert]
        split
        · rename_i heq
          subst heq
          exact (congrArg (Option.map ClientTxnEntry.chan) hentry).symm
        · rfl
    · exact ⟨rfl, fun _ ↦ rfl⟩
  · exact ⟨rfl, fun _ ↦ rfl⟩

theorem onResponse_ne_none (g : State) (resp : Response) (branch : Str) :
    (g.onResponse resp).clientTxns.get? branch ≠ none ↔ g.clientTxns.get? branch ≠ none := by
  have h := (onResponse_get? g resp).2 branch
  refine not_congr ((Option.map_eq_none_iff (f := ClientTxnEntry.chan)).symm.trans ?_)
  rw [h, Option.map_eq_none_iff]

/-- No other handle has the channel of one that was found. -/
theorem Inv.unique (h : Inv s) {txn txn' : ClientTxn} (ht : txn ∈ s.handles) (ht' : txn' ∈ s.handles)
    (heq : txn.chan = txn'.chan) : txn = txn' := List.inj_on_of_nodup_map h.nodup ht ht' heq

theorem clean_send (h : Inv s) {env : Env} {req : Request} {dest : SocketAddr} :
    Clean s (.send env req dest) ↔ Kept s (.send env req dest) := by
  cases hbranch : req.headers.topVia.bind Via.branch with
  | none =>
    have hsame : step s (.send env req dest) = s := by
      rw [step, sendRequest_of_none hbranch, Option.toList_none, List.append_nil]
    refine iff_of_true (fun hne ↦ absurd hbranch hne) ⟨?_, fun _ _ _ _ _ ↦ by rw [hsame]⟩
    rw [hsame]
    exact h.exact
  | some branch =>
    obtain ⟨htxns, hnext, hresult⟩ := sendRequest_of_some hbranch env dest s.core
    by_cases hok : env.sendOk s.core.log.length = true
    · rw [if_pos hok] at hresult
      refine iff_of_true (fun _ ↦ hok) ⟨fun branch' ↦ ?_, ?_⟩
      · rw [step, htxns, hresult, Map.get?_insert, Option.toList_some]
        constructor
        · intro hne
          by_cases heq : branch' = branch
          · exact ⟨_, List.mem_append_right _ (List.mem_singleton_self _), heq.symm⟩
          · rw [if_neg heq] at hne
            obtain ⟨txn, htxn, rfl⟩ := (h.exact branch').mp hne
            exact ⟨txn, List.mem_append_left _ htxn, rfl⟩
        · rintro ⟨txn, htxn, rfl⟩
          split
          · simp
          · rename_i hne
            rcases List.mem_append.mp htxn with htxn | htxn
            · exact (h.exact txn.branch).mpr ⟨txn, htxn, rfl⟩
            · rw [List.mem_singleton.mp htxn] at hne
              exact absurd rfl hne
      · rintro env' req' dest' heq hnone
        cases heq
        rw [hresult] at hnone
        cases hnone
    · rw [if_neg hok] at hresult
      refine iff_of_false (fun hclean ↦ hok (hclean (by rw [hbranch]; simp))) ?_
      rintro ⟨-, hkept⟩
      have hmap := hkept env req dest rfl hresult
      rw [step, htxns] at hmap
      have hentry : s.core.clientTxns.get? branch = some ⟨req.method, s.core.nextChan, false⟩ := by
        rw [← hmap, Map.get?_insert_self]
      exact absurd (h.entries_lt branch _ hentry) (Nat.lt_irrefl _)

theorem clean_drop (h : Inv s) {chan : Nat} : Clean s (.drop chan) ↔ Kept s (.drop chan) := by
  cases hfind : s.handles.find? (·.chan == chan) with
  | none =>
    have hsame : step s (.drop chan) = s := by rw [step, hfind]
    refine iff_of_true (fun txn htxn hchan ↦ ?_) ⟨by rw [hsame]; exact h.exact, ?_⟩
    · exact absurd (beq_iff_eq.mpr hchan) (List.find?_eq_none.mp hfind txn htxn)
    · rintro env req dest ⟨⟩
  | some txn =>
    have htxn := List.mem_of_find?_eq_some hfind
    have hchan : txn.chan = chan := by simpa using List.find?_some hfind
    have hnodup : s.handles.Nodup := h.nodup.of_map
    have hexact : Exact (step s (.drop chan)) ↔ ∀ branch,
        (if branch = txn.branch then none else s.core.clientTxns.get? branch) ≠ none ↔
          ∃ t ∈ s.handles.erase txn, t.branch = branch := by
      rw [step, hfind, Exact]
      refine forall_congr' fun branch ↦ ?_
      rw [← Map.get?_erase]
      rfl
    constructor
    · intro hclean
      refine ⟨hexact.mpr fun branch ↦ ?_, by rintro env req dest ⟨⟩⟩
      split
      · rename_i heq
        refine iff_of_false (fun hne ↦ hne rfl) ?_
        rintro ⟨t, ht, rfl⟩
        obtain ⟨hne, ht⟩ := hnodup.mem_erase_iff.mp ht
        exact hne (hclean txn htxn hchan t ht heq)
      · rename_i hne
        rw [h.exact branch]
        constructor
        · rintro ⟨t, ht, rfl⟩
          exact ⟨t, (List.mem_erase_of_ne fun heq ↦ hne (congrArg _ heq)).mpr ht, rfl⟩
        · rintro ⟨t, ht, rfl⟩
          exact ⟨t, List.mem_of_mem_erase ht, rfl⟩
    · rintro ⟨hkept, -⟩ t ht hchan' other hother hbranch
      obtain rfl := h.unique ht htxn (hchan'.trans hchan.symm)
      by_contra hne
      have hnone := (hexact.mp hkept t.branch).mpr
        ⟨other, (List.mem_erase_of_ne hne).mpr hother, hbranch⟩
      exact hnone (if_pos rfl)

theorem clean_iff_kept (s : Held) (e : Event) (h : Inv s) : Clean s e ↔ Kept s e := by
  cases e with
  | send env req dest => exact clean_send h
  | response resp =>
    refine iff_of_true trivial ⟨fun branch ↦ ?_, ?_⟩
    · exact (onResponse_ne_none s.core resp branch).trans (h.exact branch)
    · rintro env req dest ⟨⟩
  | drop chan => exact clean_drop h

theorem inv_step (s : Held) (e : Event) (h : Inv s) (hkept : Kept s e) : Inv (step s e) := by
  obtain ⟨hexact, -⟩ := hkept
  cases e with
  | send env req dest =>
    cases hbranch : req.headers.topVia.bind Via.branch with
    | none =>
      rwa [step, sendRequest_of_none hbranch, Option.toList_none, List.append_nil]
    | some branch =>
      obtain ⟨htxns, hnext, hresult⟩ := sendRequest_of_some hbranch env dest s.core
      have hnew : ∀ txn ∈ (s.core.sendRequest env req dest).2.toList, txn.chan = s.core.nextChan := by
        intro txn htxn
        rw [hresult] at htxn
        split at htxn
        · rw [List.mem_singleton.mp htxn]
        · cases htxn
      refine ⟨hexact, ?_, fun txn htxn ↦ ?_, fun branch' entry hentry ↦ ?_⟩
      · rw [step, List.map_append, List.nodup_append]
        refine ⟨h.nodup, ?_, ?_⟩
        · rw [hresult]
          split
          · exact List.nodup_singleton _
          · exact List.nodup_nil
        · intro chan hchan chan' hchan' heq
          obtain ⟨txn, htxn, rfl⟩ := List.mem_map.mp hchan
          obtain ⟨txn', htxn', rfl⟩ := List.mem_map.mp hchan'
          rw [hnew txn' htxn'] at heq
          exact absurd heq (Nat.ne_of_lt (h.handles_lt txn htxn))
      · change txn.chan < (s.core.sendRequest env req dest).1.nextChan
        rw [hnext]
        rcases List.mem_append.mp htxn with htxn | htxn
        · exact Nat.lt_succ_of_lt (h.handles_lt txn htxn)
        · exact Nat.lt_succ_of_le (Nat.le_of_eq (hnew txn htxn))
      · change (s.core.sendRequest env req dest).1.clientTxns.get? branch' = some entry at hentry
        change entry.chan < (s.core.sendRequest env req dest).1.nextChan
        rw [htxns, Map.get?_insert] at hentry
        rw [hnext]
        split at hentry
        · cases hentry
          exact Nat.lt_succ_self _
        · exact Nat.lt_succ_of_lt (h.entries_lt branch' entry hentry)
  | response resp =>
    obtain ⟨hnext, hentries⟩ := onResponse_get? s.core resp
    refine ⟨hexact, h.nodup, fun txn htxn ↦ ?_, fun branch entry hentry ↦ ?_⟩
    · exact (h.handles_lt txn htxn).trans_eq hnext.symm
    · change (s.core.onResponse resp).clientTxns.get? branch = some entry at hentry
      have hchan := hentries branch
      rw [hentry] at hchan
      obtain ⟨entry', hentry', heq⟩ := Option.map_eq_some_iff.mp hchan.symm
      exact heq ▸ (h.entries_lt branch entry' hentry').trans_eq hnext.symm
  | drop chan =>
    cases hfind : s.handles.find? (·.chan == chan) with
    | none => rwa [step, hfind]
    | some txn =>
      have hstep : step s (.drop chan) =
          { core := s.core.dropTxn txn, handles := s.handles.erase txn } := by
        rw [step, hfind]
      rw [hstep] at hexact ⊢
      refine ⟨hexact, ?_, fun t ht ↦ ?_, fun branch entry hentry ↦ ?_⟩
      · exact h.nodup.sublist (List.erase_sublist.map _)
      · exact h.handles_lt t (List.mem_of_mem_erase ht)
      · change (s.core.clientTxns.erase txn.branch).get? branch = some entry at hentry
        rw [Map.get?_erase] at hentry
        split at hentry
        · cases hentry
        · exact h.entries_lt branch entry hentry

/-! ## Runs -/

/-- No transaction yet. -/
def start (now : Nat) : Held where
  core := .init now
  handles := []

theorem inv_start (now : Nat) : Inv (start now) where
  exact branch := by
    refine iff_of_false (fun h ↦ h (Map.get?_empty branch)) ?_
    rintro ⟨txn, htxn, -⟩
    cases htxn
  nodup := List.nodup_nil
  handles_lt txn htxn := by cases htxn
  entries_lt branch entry hentry := by
    rw [start, State.init, Map.get?_empty] at hentry
    cases hentry

/-- A run keeps the registrations exact in all of its steps, and those that are refused change none,
just when all its steps are clean. -/
theorem guarded_iff_exact (now : Nat) (es : List Event) :
    Guarded step Clean (start now) es ↔
      ∀ before e after, es = before ++ e :: after → Kept (run step (start now) before) e :=
  guarded_iff_kept clean_iff_kept inv_step (inv_start now)

namespace Sample

/-- A keep-alive of ours. -/
def options : Request where
  method := .options
  uri := .new none "gw.local" none
  headers := ⟨[("via", "SIP/2.0/UDP 10.0.0.1:5060;rport;branch=z9hG4bK01")]⟩
  body := []

def unreachable : Env := { Gateway.Sample.env with sendOk := fun _ ↦ false }

end Sample

/-- The socket refuses the request, and its registration is there to stay. -/
theorem send_refused_leaks :
    ¬ Kept (start 0) (.send Sample.unreachable Sample.options Gateway.Sample.peer) ∧
    (step (start 0) (.send Sample.unreachable Sample.options Gateway.Sample.peer)).handles = [] ∧
    (step (start 0) (.send Sample.unreachable Sample.options Gateway.Sample.peer)).core.clientTxns.get?
      "z9hG4bK01" = some ⟨.options, 0, false⟩ := by
  have hentry : (step (start 0) (.send Sample.unreachable Sample.options
      Gateway.Sample.peer)).core.clientTxns.get? "z9hG4bK01" = some ⟨.options, 0, false⟩ := by
    decide +kernel
  have hhandles : (step (start 0) (.send Sample.unreachable Sample.options
      Gateway.Sample.peer)).handles = [] := by decide +kernel
  refine ⟨?_, hhandles, hentry⟩
  rintro ⟨hexact, -⟩
  obtain ⟨txn, htxn, -⟩ := (hexact "z9hG4bK01").mp (by rw [hentry]; simp)
  rw [hhandles] at htxn
  cases htxn

end Modem2Sip.Gateway.ClientTxns
