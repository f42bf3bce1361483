import Mathlib.Data.List.Basic
import Mathlib.Logic.Relation

/-!
# Programs that call on a world

A *program* is a tree of calls: it makes a call, and how it goes on depends on the answer.  What a
call does is left to a *world*, a relation between a state, a call, an answer and the state after it;
a failure is an answer like any other.  A *run* follows the answers of the world from a state, to the
end of the program or to any point before it, and leaves a trace of calls and answers.

`Prog.wp` is the weakest precondition: what a state has to satisfy for every complete run from it to
end as asked.
-/

universe u v w x

/-- Programs that make calls and end with a value. -/
inductive Prog (Call : Type u) (Answer : Call → Type v) (α : Type w) where
  | done (a : α)
  | call (c : Call) (k : Answer c → Prog Call Answer α)

namespace Prog

variable {Call : Type u} {Answer : Call → Type v} {α β : Type w} {σ : Type x}

/-- One program, and another one that goes on with its value. -/
def bind : Prog Call Answer α → (α → Prog Call Answer β) → Prog Call Answer β
  | .done a, f => f a
  | .call c k, f => .call c fun r ↦ (k r).bind f

instance : Monad (Prog Call Answer) where
  pure := .done
  bind := bind

theorem bind_assoc {γ : Type w} (p : Prog Call Answer α) (f : α → Prog Call Answer β)
    (g : β → Prog Call Answer γ) : (p.bind f).bind g = p.bind fun a ↦ (f a).bind g := by
  induction p with
  | done a => rfl
  | call c k ih => exact congrArg (Prog.call c) (funext ih)

/-- A single call. -/
def ask (c : Call) : Prog Call Answer (Answer c) := .call c .done

/-- A call and its answer. -/
abbrev Event (Call : Type u) (Answer : Call → Type v) := (c : Call) × Answer c

/-- How a world may answer a call, and the state that it is in then. -/
abbrev World (Call : Type u) (Answer : Call → Type v) (σ : Type x) := σ → (c : Call) → Answer c → σ → Prop

variable {W : World Call Answer σ}

/-! ## Runs -/

/-- The program has come as far as `q`, with these events. -/
inductive Runs (W : World Call Answer σ) :
    σ → Prog Call Answer α → List (Event Call Answer) → σ → Prog Call Answer α → Prop
  | refl (s : σ) (p : Prog Call Answer α) : Runs W s p [] s p
  | call {s s' s'' : σ} {c : Call} {k : Answer c → Prog Call Answer α} {r : Answer c}
      {es : List (Event Call Answer)} {q : Prog Call Answer α} :
      W s c r s' → Runs W s' (k r) es s'' q → Runs W s (.call c k) (⟨c, r⟩ :: es) s'' q

namespace Runs

variable {s s' : σ} {p q : Prog Call Answer α} {es : List (Event Call Answer)}

theorem of_done {a : α} (h : Runs W s (.done a) es s' q) : es = [] ∧ s' = s ∧ q = .done a := by
  cases h with
  | refl => exact ⟨rfl, rfl, rfl⟩

theorem trans {s'' : σ} {fs : List (Event Call Answer)} {r : Prog Call Answer α}
    (h : Runs W s p es s' q) (h' : Runs W s' q fs s'' r) : Runs W s p (es ++ fs) s'' r := by
  induction h with
  | refl => exact h'
  | call hW _ ih => exact .call hW (ih h')

theorem bind (h : Runs W s p es s' q) (f : α → Prog Call Answer β) :
    Runs W s (p.bind f) es s' (q.bind f) := by
  induction h with
  | refl => exact .refl _ _
  | call hW _ ih => exact .call hW ih

/-- What every event of the run keeps holds where the run has come to. -/
theorem invariant {I : σ → Prop} {P : Event Call Answer → Prop} (h : Runs W s p es s' q)
    (hstep : ∀ s c r s', I s → P ⟨c, r⟩ → W s c r s' → I s') (hes : ∀ e ∈ es, P e) (hs : I s) :
    I s' := by
  induction h with
  | refl => exact hs
  | call hW _ ih =>
      rw [List.forall_mem_cons] at hes
      exact ih hes.2 (hstep _ _ _ _ hs hes.1 hW)

/-- A run of one program and another has come to a point of the first, or has left it behind. -/
theorem of_bind {p : Prog Call Answer α} {f : α → Prog Call Answer β} {q : Prog Call Answer β}
    (h : Runs W s (p.bind f) es s' q) :
    (∃ q', Runs W s p es s' q' ∧ q = q'.bind f) ∨
      ∃ es₁ es₂ a s₁, es = es₁ ++ es₂ ∧ Runs W s p es₁ s₁ (.done a) ∧ Runs W s₁ (f a) es₂ s' q := by
  induction p generalizing s es with
  | done a => exact .inr ⟨[], es, a, s, rfl, .refl s _, h⟩
  | call c k ih =>
      cases h with
      | refl => exact .inl ⟨.call c k, .refl _ _, rfl⟩
      | call hW hrest =>
          rcases ih _ hrest with ⟨q', hq', rfl⟩ | ⟨es₁, es₂, a, s₁, rfl, hfirst, hsecond⟩
          · exact .inl ⟨q', .call hW hq', rfl⟩
          · exact .inr ⟨_, es₂, a, s₁, rfl, .call hW hfirst, hsecond⟩

end Runs

/-! ## Which calls a program may make -/

/-- Every call that the program can come to satisfies `P`. -/
def Only (P : Call → Prop) : Prog Call Answer α → Prop
  | .done _ => True
  | .call c k => P c ∧ ∀ r, Only P (k r)

namespace Only

variable {P Q : Call → Prop} {p : Prog Call Answer α}

theorem mono (h : p.Only P) (hPQ : ∀ c, P c → Q c) : p.Only Q := by
  induction p with
  | done a => trivial
  | call c k ih => exact ⟨hPQ c h.1, fun r ↦ ih r (h.2 r)⟩

theorem bind {f : α → Prog Call Answer β} (h : p.Only P) (hf : ∀ a, (f a).Only P) :
    (p.bind f).Only P := by
  induction p with
  | done a => exact hf a
  | call c k ih => exact ⟨h.1, fun r ↦ ih r (h.2 r)⟩

theorem ask {c : Call} (h : P c) : (Prog.ask c : Prog Call Answer (Answer c)).Only P :=
  ⟨h, fun _ ↦ trivial⟩

/-- The events of a run are among the calls of the program. -/
theorem of_mem {s s' : σ} {q : Prog Call Answer α} {es : List (Event Call Answer)} (h : p.Only P)
    (hrun : Runs W s p es s' q) : (∀ e ∈ es, P e.1) ∧ q.Only P := by
  induction hrun with
  | refl => exact ⟨nofun, h⟩
  | call _ _ ih =>
      obtain ⟨hes, hq⟩ := ih (h.2 _)
      exact ⟨List.forall_mem_cons.mpr ⟨h.1, hes⟩, hq⟩

end Only

/-! ## Weakest preconditions -/

/-- Every complete run from the state ends with a trace, a value and a state as asked. -/
def wp (W : World Call Answer σ) :
    Prog Call Answer α → (List (Event Call Answer) → α → σ → Prop) → σ → Prop
  | .done a, Q, s => Q [] a s
  | .call c k, Q, s => ∀ r s', W s c r s' → wp W (k r) (fun es ↦ Q (⟨c, r⟩ :: es)) s'

variable {Q R : List (Event Call Answer) → α → σ → Prop} {p : Prog Call Answer α} {s : σ}

theorem wp_iff : p.wp W Q s ↔ ∀ es a s', Runs W s p es s' (.done a) → Q es a s' := by
  induction p generalizing Q s with
  | done a =>
      constructor
      · intro h es b s' hrun
        obtain ⟨rfl, rfl, heq⟩ := hrun.of_done
        cases heq
        exact h
      · exact fun h ↦ h [] a s (.refl s _)
  | call c k ih =>
      constructor
      · intro h es b s' hrun
        cases hrun with
        | call hW hrest => exact (ih _).mp (h _ _ hW) _ _ _ hrest
      · exact fun h r s' hW ↦ (ih r).mpr fun es a s'' hrest ↦ h _ a s'' (.call hW hrest)

theorem wp_mono (h : p.wp W Q s) (hQR : ∀ es a s', Q es a s' → R es a s') : p.wp W R s :=
  wp_iff.mpr fun es a s' hrun ↦ hQR es a s' (wp_iff.mp h es a s' hrun)

theorem wp_bind {f : α → Prog Call Answer β} {Q : List (Event Call Answer) → β → σ → Prop} :
    (p.bind f).wp W Q s ↔
      p.wp W (fun es a s' ↦ (f a).wp W (fun es' ↦ Q (es ++ es')) s') s := by
  induction p generalizing Q s with
  | done a => exact Iff.rfl
  | call c k ih => exact forall_congr' fun r ↦ forall_congr' fun s' ↦ imp_congr_right fun _ ↦ ih r

theorem wp_and (hQ : p.wp W Q s) (hR : p.wp W R s) : p.wp W (fun es a s' ↦ Q es a s' ∧ R es a s') s :=
  wp_iff.mpr fun es a s' hrun ↦ ⟨wp_iff.mp hQ es a s' hrun, wp_iff.mp hR es a s' hrun⟩

theorem Only.wp {P : Call → Prop} (h : p.Only P) : p.wp W (fun es _ _ ↦ ∀ e ∈ es, P e.1) s :=
  wp_iff.mpr fun _ _ _ hrun ↦ (h.of_mem hrun).1

/-! ## Every point of a run -/

/-- Wherever a run from the state has come to, and however it was cut, the state there is as asked. -/
def Always (W : World Call Answer σ) (I : σ → Prop) (p : Prog Call Answer α) (s : σ) : Prop :=
  ∀ es s' q, Runs W s p es s' q → I s'

namespace Always

variable {I : σ → Prop}

theorem wp (h : p.Always W I s) : p.wp W (fun _ _ s' ↦ I s') s :=
  wp_iff.mpr fun es a s' hrun ↦ h es s' (.done a) hrun

theorem done {a : α} (hs : I s) : Always W I (.done a) s := by
  intro es s' q hrun
  obtain ⟨-, rfl, -⟩ := hrun.of_done
  exact hs

theorem bind {f : α → Prog Call Answer β} (h : p.Always W I s)
    (hf : p.wp W (fun _ a s' ↦ (f a).Always W I s') s) : (p.bind f).Always W I s := by
  intro es s' q hrun
  rcases hrun.of_bind with ⟨q', hq', -⟩ | ⟨es₁, es₂, a, s₁, -, hfirst, hsecond⟩
  · exact h es s' q' hq'
  · exact wp_iff.mp hf es₁ a s₁ hfirst es₂ s' q hsecond

/-- What every call of the program keeps. -/
theorem of_only {P : Call → Prop} (h : p.Only P)
    (hstep : ∀ s c r s', I s → P c → W s c r s' → I s') (hs : I s) : p.Always W I s := by
  intro es s' q hrun
  exact hrun.invariant (fun s₁ c r s₂ hI hP ↦ hstep s₁ c r s₂ hI hP) (h.of_mem hrun).1 hs

end Always

/-! ## Every call of a run -/

/-- Whenever a run from the state comes to a call, the events so far, the call and the state are as
asked. -/
def AtCalls (W : World Call Answer σ) (Q : List (Event Call Answer) → Call → σ → Prop)
    (p : Prog Call Answer α) (s : σ) : Prop :=
  ∀ es s' c k, Runs W s p es s' (.call c k) → Q es c s'

namespace AtCalls

variable {Q : List (Event Call Answer) → Call → σ → Prop}

theorem done {a : α} : AtCalls W Q (.done a) s := by
  intro es s' c k hrun
  obtain ⟨-, -, heq⟩ := hrun.of_done
  cases heq

theorem mono {R : List (Event Call Answer) → Call → σ → Prop} (h : p.AtCalls W Q s)
    (hQR : ∀ es c s', Q es c s' → R es c s') : p.AtCalls W R s :=
  fun es s' c k hrun ↦ hQR es c s' (h es s' c k hrun)

theorem call {c : Call} {k : Answer c → Prog Call Answer α} (hc : Q [] c s)
    (hk : ∀ r s', W s c r s' → AtCalls W (fun es ↦ Q (⟨c, r⟩ :: es)) (k r) s') :
    AtCalls W Q (.call c k) s := by
  intro es s' c' k' hrun
  cases hrun with
  | refl => exact hc
  | call hW hrest => exact hk _ _ hW _ _ _ _ hrest

theorem of_only {P : Call → Prop} (h : p.Only P) (hQ : ∀ es c s', P c → Q es c s') :
    p.AtCalls W Q s := by
  intro es s' c k hrun
  exact hQ es c s' (h.of_mem hrun).2.1

theorem bind {f : α → Prog Call Answer β} (h : p.AtCalls W Q s)
    (hf : p.wp W (fun es a s' ↦ (f a).AtCalls W (fun es' ↦ Q (es ++ es')) s') s) :
    (p.bind f).AtCalls W Q s := by
  intro es s' c k hrun
  rcases hrun.of_bind with ⟨q, hq, heq⟩ | ⟨es₁, es₂, a, s₁, rfl, hfirst, hsecond⟩
  · cases q with
    | done a =>
        have hcall : Q (es ++ []) c s' := wp_iff.mp hf es a s' hq [] s' c k (heq ▸ .refl s' _)
        rwa [List.append_nil] at hcall
    | call c' k' =>
        cases heq
        exact h es s' c k' hq
  · exact wp_iff.mp hf es₁ a s₁ hfirst es₂ s' c k hsecond

theorem attempt {ε : Type w} {p : ExceptT ε (Prog Call Answer) α}
    {f : α → ExceptT ε (Prog Call Answer) β} (h : AtCalls W Q (p : Prog Call Answer (Except ε α)) s)
    (hf : Prog.wp W p (fun es r s' ↦ ∀ a, r = .ok a →
      AtCalls W (fun es' ↦ Q (es ++ es')) (f a : Prog Call Answer (Except ε β)) s') s) :
    AtCalls W Q (p >>= f : ExceptT ε (Prog Call Answer) β) s := by
  refine h.bind (wp_mono hf ?_)
  rintro es (e | a) s' hrest
  · exact done
  · exact hrest a rfl

end AtCalls

/-! ## A record of the run -/

section Record

variable {L : Type*} (W : World Call Answer σ) (record : L → Event Call Answer → L)
  (ok : L → σ → Call → Prop)

/-- Whenever a run comes to a call, it is one that the record of the run so far allows. -/
def Obeys (p : Prog Call Answer α) (l : L) (s : σ) : Prop :=
  p.AtCalls W (fun es c s' ↦ ok (es.foldl record l) s' c) s

variable {W record ok} {l : L}

theorem Obeys.done {a : α} : Obeys W record ok (.done a) l s := AtCalls.done

theorem Obeys.call {c : Call} {k : Answer c → Prog Call Answer α} (hc : ok l s c)
    (hk : ∀ r s', W s c r s' → Obeys W record ok (k r) (record l ⟨c, r⟩) s') :
    Obeys W record ok (.call c k) l s := AtCalls.call hc hk

end Record

section Ends

variable {Q : List (Event Call Answer) → α → σ → Prop} {es : List (Event Call Answer)}

/-- Every complete run from the state, where these events lie behind, ends as asked. -/
def Ends (W : World Call Answer σ) (Q : List (Event Call Answer) → α → σ → Prop) (p : Prog Call Answer α)
    (es : List (Event Call Answer)) (s : σ) : Prop := p.wp W (fun es' ↦ Q (es ++ es')) s

theorem Ends.done {a : α} (h : Q es a s) : Ends W Q (.done a) es s := by
  change Q (es ++ []) a s
  rwa [List.append_nil]

theorem Ends.call {c : Call} {k : Answer c → Prog Call Answer α}
    (h : ∀ r s', W s c r s' → Ends W Q (k r) (es ++ [⟨c, r⟩]) s') : Ends W Q (.call c k) es s := by
  intro r s' hW
  refine wp_mono (h r s' hW) ?_
  intro es' a s'' hQ
  rwa [List.append_assoc] at hQ

end Ends

/-- The state after runs of some of the programs, each of them complete or cut. -/
def Tries {ι : Type*} (W : World Call Answer σ) (p : ι → Prog Call Answer α) : σ → σ → Prop :=
  Relation.ReflTransGen fun s s' ↦ ∃ i es q, Runs W s (p i) es s' q

/-- What every run keeps all along holds afterwards, however the runs were cut. -/
theorem Tries.invariant {ι : Type*} {p : ι → Prog Call Answer α} {I : σ → Prop} {s s' : σ}
    (h : Tries W p s s') (hp : ∀ i s, I s → (p i).Always W I s) (hs : I s) : I s' := by
  induction h with
  | refl => exact hs
  | tail _ hrun ih =>
      obtain ⟨i, es, q, hrun⟩ := hrun
      exact hp i _ ih es _ q hrun

/-! ## Programs that may fail -/

/-- The rest of a program runs where the first part does not fail. -/
theorem wp_attempt {ε : Type w} {p : ExceptT ε (Prog Call Answer) α} {f : α → ExceptT ε (Prog Call Answer) β}
    {Q : List (Event Call Answer) → Except ε β → σ → Prop} :
    Prog.wp W (p >>= f : ExceptT ε (Prog Call Answer) β) Q s ↔
      Prog.wp W p (fun es r s' ↦
        match r with
        | .ok a => Prog.wp W (f a) (fun es' ↦ Q (es ++ es')) s'
        | .error e => Q es (.error e) s') s := by
  refine wp_bind.trans (Iff.of_eq (congrArg (Prog.wp W p · s) ?_))
  funext es r s'
  cases r with
  | ok a => rfl
  | error e => exact congrArg (Q · _ _) (List.append_nil es)

/-- The rest of a program runs with the answer of a call, unless it is a failure. -/
theorem wp_attempt_call {ε : Type w} {c : Call} {g : Answer c → Except ε α}
    {f : α → ExceptT ε (Prog Call Answer) β} {Q : List (Event Call Answer) → Except ε β → σ → Prop} :
    Prog.wp W (ExceptT.mk (.call c fun r ↦ .done (g r)) >>= f : ExceptT ε (Prog Call Answer) β) Q s ↔
      ∀ r s', W s c r s' →
        match g r with
        | .ok a => Prog.wp W (f a) (fun es ↦ Q (⟨c, r⟩ :: es)) s'
        | .error e => Q [⟨c, r⟩] (.error e) s' :=
  wp_attempt

theorem Always.attempt {ε : Type w} {I : σ → Prop} {p : ExceptT ε (Prog Call Answer) α}
    {f : α → ExceptT ε (Prog Call Answer) β} (h : Always W I (p : Prog Call Answer (Except ε α)) s)
    (hf : Prog.wp W p (fun _ r s' ↦ ∀ a, r = .ok a → Always W I (f a : Prog Call Answer (Except ε β)) s') s) :
    Always W I (p >>= f : ExceptT ε (Prog Call Answer) β) s := by
  refine h.bind (wp_mono (wp_and h.wp hf) ?_)
  rintro es (e | a) s' ⟨hI, hrest⟩
  · exact Always.done hI
  · exact hrest a rfl

/-- A program whose failure is looked at: it does not fail itself. -/
def outcome {ε : Type w} (p : ExceptT ε (Prog Call Answer) α) :
    ExceptT ε (Prog Call Answer) (Except ε α) :=
  ExceptT.mk (Prog.bind p fun r ↦ .done (.ok r))

theorem wp_outcome {ε : Type w} {p : ExceptT ε (Prog Call Answer) α}
    {Q : List (Event Call Answer) → Except ε (Except ε α) → σ → Prop} :
    Prog.wp W (outcome p) Q s ↔ Prog.wp W p (fun es r ↦ Q es (.ok r)) s := by
  refine wp_bind.trans (Iff.of_eq (congrArg (Prog.wp W p · s) ?_))
  funext es r s'
  exact congrArg (Q · _ _) (List.append_nil es)

theorem Only.attempt {ε : Type w} {P : Call → Prop} {p : ExceptT ε (Prog Call Answer) α}
    {f : α → ExceptT ε (Prog Call Answer) β} (h : Only P (p : Prog Call Answer (Except ε α)))
    (hf : ∀ a, Only P (f a : Prog Call Answer (Except ε β))) :
    Only P (p >>= f : ExceptT ε (Prog Call Answer) β) := by
  refine h.bind fun r ↦ ?_
  cases r with
  | ok a => exact hf a
  | error e => trivial

/-- Calls that fail and calls that do not: the first one that fails is the failure of the program, and
without one it does not fail. -/
def Strict {ε : Type w} (fails : Event Call Answer → Bool) : Prog Call Answer (Except ε α) → Prop
  | .done r => r.isOk = true
  | .call c k => ∀ r, if fails ⟨c, r⟩ = true then ∃ e, k r = .done (.error e) else Strict fails (k r)

namespace Strict

variable {ε : Type w} {fails : Event Call Answer → Bool}

theorem bind {p : ExceptT ε (Prog Call Answer) α} {f : α → ExceptT ε (Prog Call Answer) β}
    (h : Strict fails (p : Prog Call Answer (Except ε α)))
    (hf : ∀ a, Strict fails (f a : Prog Call Answer (Except ε β))) :
    Strict fails (p >>= f : ExceptT ε (Prog Call Answer) β) := by
  induction p with
  | done r =>
      cases r with
      | ok a => exact hf a
      | error e => cases h
  | call c k ih =>
      intro r
      have hr := h r
      split
      · rename_i hfails
        rw [if_pos hfails] at hr
        obtain ⟨e, he⟩ := hr
        exact ⟨e, congrArg (Prog.bind · _) he⟩
      · rename_i hfails
        rw [if_neg hfails] at hr
        exact ih r hr

/-- One call whose failure is the failure of the program. -/
theorem single {c : Call} {f : Answer c → Except ε α} (h : ∀ r, fails ⟨c, r⟩ = !(f r).isOk) :
    Strict fails (.call c fun r ↦ .done (f r)) := by
  intro r
  change if fails ⟨c, r⟩ = true then ∃ e, Prog.done (f r) = Prog.done (.error e) else (f r).isOk = true
  rw [h r]
  cases f r with
  | ok a => exact rfl
  | error e => exact ⟨e, rfl⟩

/-- A complete run fails exactly if one of its calls has failed. -/
theorem isOk_iff {p : Prog Call Answer (Except ε α)} {s s' : σ} {es : List (Event Call Answer)}
    {r : Except ε α} (h : Strict fails p) (hrun : Runs W s p es s' (.done r)) :
    r.isOk = true ↔ ∀ e ∈ es, fails e = false := by
  induction p generalizing s es with
  | done r' =>
      obtain ⟨rfl, -, heq⟩ := hrun.of_done
      cases heq
      exact iff_of_true h nofun
  | call c k ih =>
      cases hrun with
      | @call _ _ _ _ _ a es _ hW hrest =>
          have ha := h a
          rw [List.forall_mem_cons]
          split at ha
          · rename_i hfails
            obtain ⟨e, he⟩ := ha
            rw [he] at hrest
            obtain ⟨-, -, heq⟩ := hrest.of_done
            cases heq
            exact iff_of_false nofun fun hall ↦ absurd hfails (Bool.not_eq_true _ ▸ hall.1)
          · rename_i hfails
            rw [ih a ha hrest, and_iff_right (Bool.not_eq_true _ ▸ hfails)]

end Strict

/-! ## One program after the other -/

/-- Complete runs, each from where the one before it has ended, with their traces and values. -/
inductive Series {ι : Type*} (W : World Call Answer σ) (p : ι → Prog Call Answer α) :
    σ → List (ι × List (Event Call Answer) × α) → σ → Prop
  | nil (s : σ) : Series W p s [] s
  | cons {s s' s'' : σ} {i : ι} {es : List (Event Call Answer)} {a : α}
      {runs : List (ι × List (Event Call Answer) × α)} :
      Runs W s (p i) es s' (.done a) → Series W p s' runs s'' → Series W p s ((i, es, a) :: runs) s''

namespace Series

variable {ι : Type*} {P : ι → Prog Call Answer α} {s' : σ}
  {runs : List (ι × List (Event Call Answer) × α)}

/-- What every run keeps holds where the last one has ended. -/
theorem invariant {I : σ → Prop} {ok : ι × List (Event Call Answer) × α → Prop} (h : Series W P s runs s')
    (hrun : ∀ s i es a s', I s → ok (i, es, a) → Runs W s (P i) es s' (.done a) → I s')
    (hok : ∀ r ∈ runs, ok r) (hs : I s) : I s' := by
  induction h with
  | nil s => exact hs
  | cons hfirst _ ih =>
      rw [List.forall_mem_cons] at hok
      exact ih hok.2 (hrun _ _ _ _ _ hs hok.1 hfirst)

end Series

end Prog
