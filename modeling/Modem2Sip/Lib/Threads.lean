import Modem2Sip.Lib.Prog

/-!
# Programs side by side

Threads run programs that call on one world.  A step is one call of one thread, so that between any two
calls of a thread the others may make any of theirs.  A thread keeps what it has done so far, and its
*phase* is what an automaton makes of that.  A program *conforms* if every call that it can come to is
legal in the phase in which it is made; then an invariant of the phases and the state that every legal
call keeps holds wherever the threads have come to.
-/

universe u v w x y z

namespace Prog

variable {Call : Type u} {Answer : Call → Type v} {α β : Type w} {σ : Type x} {Q : Type y} {ι : Type z}

/-! ## Phases -/

/-- Every call is legal in its phase, and the program ends in a phase and with a value as asked. -/
def Conforms (next : Q → Event Call Answer → Q) (legal : Q → Call → Prop) (post : Q → α → Prop) :
    Q → Prog Call Answer α → Prop
  | q, .done a => post q a
  | q, .call c k => legal q c ∧ ∀ r, Conforms next legal post (next q ⟨c, r⟩) (k r)

namespace Conforms

variable {next : Q → Event Call Answer → Q} {legal : Q → Call → Prop} {q : Q} {p : Prog Call Answer α}

theorem mono {post post' : Q → α → Prop} (h : Conforms next legal post q p)
    (hpost : ∀ q a, post q a → post' q a) : Conforms next legal post' q p := by
  induction p generalizing q with
  | done a => exact hpost q a h
  | call c k ih => exact ⟨h.1, fun r ↦ ih r (h.2 r)⟩

theorem bind {post : Q → α → Prop} {post' : Q → β → Prop} {f : α → Prog Call Answer β}
    (h : Conforms next legal post q p) (hf : ∀ q a, post q a → Conforms next legal post' q (f a)) :
    Conforms next legal post' q (p.bind f) := by
  induction p generalizing q with
  | done a => exact hf q a h
  | call c k ih => exact ⟨h.1, fun r ↦ ih r (h.2 r)⟩

/-- A call that is legal in no phase is never made. -/
theorem only {post : Q → α → Prop} {P : Call → Prop} (h : Conforms next legal post q p)
    (hlegal : ∀ q c, legal q c → P c) : p.Only P := by
  induction p generalizing q with
  | done a => trivial
  | call c k ih => exact ⟨hlegal q c h.1, fun r ↦ ih r (h.2 r)⟩

theorem ask {c : Call} (h : legal q c) :
    Conforms next legal (fun q' r ↦ q' = next q ⟨c, r⟩) q (Prog.ask c : Prog Call Answer (Answer c)) :=
  ⟨h, fun _ ↦ rfl⟩

/-- Calls that are legal in a phase and do not leave it. -/
theorem of_only {P : Call → Prop} (h : p.Only P) (hlegal : ∀ c, P c → legal q c)
    (hstay : ∀ c r, P c → next q ⟨c, r⟩ = q) : Conforms next legal (fun q' _ ↦ q' = q) q p := by
  induction p with
  | done a => rfl
  | call c k ih =>
      refine ⟨hlegal c h.1, fun r ↦ ?_⟩
      rw [hstay c r h.1]
      exact ih r (h.2 r)

/-- The rest of a program runs where the first part does not fail. -/
theorem attempt {ε : Type w} {p : ExceptT ε (Prog Call Answer) α}
    {f : α → ExceptT ε (Prog Call Answer) β} {P : Q → Except ε α → Prop}
    {R : Q → Except ε β → Prop} (h : Conforms next legal P q (p : Prog Call Answer (Except ε α)))
    (hf : ∀ q a, P q (.ok a) → Conforms next legal R q (f a : Prog Call Answer (Except ε β)))
    (he : ∀ q e, P q (.error e) → R q (.error e)) :
    Conforms next legal R q (p >>= f : ExceptT ε (Prog Call Answer) β) := by
  refine h.bind fun q' r hr ↦ ?_
  cases r with
  | ok a => exact hf q' a hr
  | error e => exact he q' e hr

theorem outcome {ε : Type w} {p : ExceptT ε (Prog Call Answer) α} {post : Q → Except ε α → Prop}
    (h : Conforms next legal post q (p : Prog Call Answer (Except ε α))) :
    Conforms next legal (fun q' r ↦ ∃ r', r = .ok r' ∧ post q' r') q
      (Prog.outcome p : Prog Call Answer (Except ε (Except ε α))) :=
  h.bind fun _ r hr ↦ ⟨r, rfl, hr⟩

end Conforms

/-! ## Threads -/

/-- A thread: what it was started for, what it has done and what it has still to do. -/
structure Thread (ι : Type z) (Call : Type u) (Answer : Call → Type v) (α : Type w) where
  job : ι
  past : List (Event Call Answer)
  rest : Prog Call Answer α

/-- Threads, and the state that they share. -/
structure Pool (ι : Type z) (Call : Type u) (Answer : Call → Type v) (α : Type w) (σ : Type x) where
  threads : List (Thread ι Call Answer α)
  state : σ

section

variable (next : Q → Event Call Answer → Q) (q₀ : Q)

def Thread.phase (t : Thread ι Call Answer α) : Q := t.past.foldl next q₀

def Pool.phases (P : Pool ι Call Answer α σ) : List Q := P.threads.map (Thread.phase next q₀)

/-- A thread is started, or one makes its next call.  Whether it may is up to the phases of the others,
the state and the call. -/
inductive Pool.Step (W : World Call Answer σ) (p : ι → Prog Call Answer α)
    (ok : List Q → σ → Call → Prop) : Pool ι Call Answer α σ → Pool ι Call Answer α σ → Prop
  | start (ts : List (Thread ι Call Answer α)) (s : σ) (i : ι) :
    Step W p ok ⟨ts, s⟩ ⟨ts ++ [⟨i, [], p i⟩], s⟩
  | call {ts us : List (Thread ι Call Answer α)} {i : ι} {past : List (Event Call Answer)} {c : Call}
      {k : Answer c → Prog Call Answer α} {r : Answer c} {s s' : σ} :
    ok ((ts ++ us).map (Thread.phase next q₀)) s c → W s c r s' →
      Step W p ok ⟨ts ++ ⟨i, past, .call c k⟩ :: us, s⟩ ⟨ts ++ ⟨i, past ++ [⟨c, r⟩], k r⟩ :: us, s'⟩

/-- Any number of steps. -/
def Pool.Reaches (W : World Call Answer σ) (p : ι → Prog Call Answer α)
    (ok : List Q → σ → Call → Prop) : Pool ι Call Answer α σ → Pool ι Call Answer α σ → Prop :=
  Relation.ReflTransGen (Pool.Step next q₀ W p ok)

/-- What the threads have still to do conforms, from the phases that they are in. -/
def Pool.Conforming (legal : Q → Call → Prop) (P : Pool ι Call Answer α σ) : Prop :=
  ∀ t ∈ P.threads, Conforms next legal (fun _ _ ↦ True) (t.phase next q₀) t.rest

end

namespace Pool

variable {next : Q → Event Call Answer → Q} {q₀ : Q} {W : World Call Answer σ}
  {p : ι → Prog Call Answer α} {ok : List Q → σ → Call → Prop} {legal : Q → Call → Prop}
  {P P' : Pool ι Call Answer α σ}

theorem phase_snoc (i : ι) (past : List (Event Call Answer)) (e : Event Call Answer)
    (rest rest' : Prog Call Answer α) :
    Thread.phase next q₀ ⟨i, past ++ [e], rest'⟩ = next (Thread.phase next q₀ ⟨i, past, rest⟩) e :=
  List.foldl_append

/-- A step keeps what a thread that is started and every legal call keep. -/
theorem Step.invariant (Inv : List Q → σ → Prop)
    (hp : ∀ i, Conforms next legal (fun _ _ ↦ True) q₀ (p i))
    (hstart : ∀ qs s, Inv qs s → Inv (qs ++ [q₀]) s)
    (hcall : ∀ qs q rs s c r s', Inv (qs ++ q :: rs) s → legal q c → ok (qs ++ rs) s c → W s c r s' →
      Inv (qs ++ next q ⟨c, r⟩ :: rs) s')
    (h : Step next q₀ W p ok P P') (hP : P.Conforming next q₀ legal) (hInv : Inv (P.phases next q₀) P.state) :
    P'.Conforming next q₀ legal ∧ Inv (P'.phases next q₀) P'.state := by
  cases h with
  | start ts s i =>
      refine ⟨List.forall_mem_append.mpr ⟨hP, List.forall_mem_singleton.mpr (hp i)⟩, ?_⟩
      rw [phases, List.map_append, List.map_singleton]
      exact hstart _ _ hInv
  | @call ts us i past c k r s s' hok hW =>
      obtain ⟨hbefore, hrest⟩ := List.forall_mem_append.mp hP
      obtain ⟨⟨hlegal, hnext⟩, hafter⟩ := List.forall_mem_cons.mp hrest
      constructor
      · refine List.forall_mem_append.mpr ⟨hbefore, List.forall_mem_cons.mpr ⟨?_, hafter⟩⟩
        rw [phase_snoc i past ⟨c, r⟩ (.call c k)]
        exact hnext r
      · rw [phases, List.map_append, List.map_cons] at hInv ⊢
        rw [List.map_append] at hok
        rw [phase_snoc i past ⟨c, r⟩ (.call c k)]
        exact hcall _ _ _ _ c r s' hInv hlegal hok hW

/-- And so do any number of steps. -/
theorem Reaches.invariant (Inv : List Q → σ → Prop)
    (hp : ∀ i, Conforms next legal (fun _ _ ↦ True) q₀ (p i))
    (hstart : ∀ qs s, Inv qs s → Inv (qs ++ [q₀]) s)
    (hcall : ∀ qs q rs s c r s', Inv (qs ++ q :: rs) s → legal q c → ok (qs ++ rs) s c → W s c r s' →
      Inv (qs ++ next q ⟨c, r⟩ :: rs) s')
    (h : Reaches next q₀ W p ok P P') (hP : P.Conforming next q₀ legal)
    (hInv : Inv (P.phases next q₀) P.state) :
    P'.Conforming next q₀ legal ∧ Inv (P'.phases next q₀) P'.state := by
  induction h with
  | refl => exact ⟨hP, hInv⟩
  | tail _ hstep ih => exact hstep.invariant Inv hp hstart hcall ih.1 ih.2

/-- A thread whose calls are never held up makes them one after the other. -/
theorem Reaches.of_runs {s s' : σ} {es : List (Event Call Answer)} {rest rest' : Prog Call Answer α}
    (h : Runs W s rest es s' rest') (hok : ∀ e ∈ es, ∀ qs s, ok qs s e.1)
    (ts : List (Thread ι Call Answer α)) (i : ι) (past : List (Event Call Answer)) :
    Reaches next q₀ W p ok ⟨ts ++ [⟨i, past, rest⟩], s⟩ ⟨ts ++ [⟨i, past ++ es, rest'⟩], s'⟩ := by
  induction h generalizing past with
  | refl =>
      rw [List.append_nil]
      exact .refl
  | @call s s₁ s₂ c k r es q hW _ ih =>
      obtain ⟨hc, hes⟩ := List.forall_mem_cons.mp hok
      have hstep : Pool.Step next q₀ W p ok ⟨ts ++ [⟨i, past, .call c k⟩], s⟩
          ⟨ts ++ [⟨i, past ++ [⟨c, r⟩], k r⟩], s₁⟩ := .call (hc _ _) hW
      have hrest := ih hes (past ++ [⟨c, r⟩])
      rw [List.append_assoc, List.singleton_append] at hrest
      exact .head hstep hrest

/-- A thread is started, and does so. -/
theorem Reaches.of_job {s s' : σ} {es : List (Event Call Answer)} {i : ι} {rest : Prog Call Answer α}
    (h : Runs W s (p i) es s' rest) (hok : ∀ e ∈ es, ∀ qs s, ok qs s e.1)
    (ts : List (Thread ι Call Answer α)) :
    Reaches next q₀ W p ok ⟨ts, s⟩ ⟨ts ++ [⟨i, es, rest⟩], s'⟩ :=
  .head (.start ts s i) (of_runs h hok ts i [])

end Pool

end Prog
