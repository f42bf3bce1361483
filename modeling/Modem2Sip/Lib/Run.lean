import Mathlib.Data.List.Induction

/-!
# Runs of a step function

A deterministic system is a function `step : S → E → S` that takes the state
through one event.  A *run* feeds it a list of events; a *guarded* run is one in
which every event satisfies a condition in the state that it meets.  An invariant
that every guarded step keeps holds wherever a guarded run ends, which is the one
induction that the developments built on this need.  A run without end comes to a
goal if what is before it has a rank that no step raises, and that some step which
is sure to come lowers.
-/

universe u v

namespace Run

variable {S : Type u} {E : Type v} (step : S → E → S)

/-- The state after a list of events. -/
def run (s : S) (es : List E) : S := es.foldl step s

@[simp] theorem run_nil (s : S) : run step s [] = s := rfl

@[simp] theorem run_cons (s : S) (e : E) (es : List E) :
    run step s (e :: es) = run step (step s e) es := rfl

theorem run_append (s : S) (es fs : List E) :
    run step s (es ++ fs) = run step (run step s es) fs := List.foldl_append

/-- Every event of the run satisfies `ok` in the state it is taken in. -/
def Guarded (ok : S → E → Prop) : S → List E → Prop
  | _, [] => True
  | s, e :: es => ok s e ∧ Guarded ok (step s e) es

instance decidableGuarded (ok : S → E → Prop) [∀ s e, Decidable (ok s e)] :
    ∀ s es, Decidable (Guarded step ok s es)
  | _, [] => inferInstanceAs (Decidable True)
  | s, e :: es =>
    have := decidableGuarded ok (step s e) es
    inferInstanceAs (Decidable (ok s e ∧ _))

variable {step} {ok : S → E → Prop}

theorem guarded_append {s : S} {es fs : List E} :
    Guarded step ok s (es ++ fs) ↔
      Guarded step ok s es ∧ Guarded step ok (run step s es) fs := by
  induction es generalizing s with
  | nil => simp [Guarded]
  | cons e es ih => simp [Guarded, ih, and_assoc]

/-- A condition on the events alone may be moved into the guard. -/
theorem Guarded.and {P : E → Prop} {s : S} {es : List E} (hrun : Guarded step ok s es)
    (hP : ∀ e ∈ es, P e) : Guarded step (fun s e ↦ P e ∧ ok s e) s es := by
  induction es generalizing s with
  | nil => trivial
  | cons e es ih =>
      exact ⟨⟨hP e List.mem_cons_self, hrun.1⟩, ih hrun.2 fun e he ↦ hP e (List.mem_cons_of_mem _ he)⟩

/-- An invariant of the guarded steps holds at the end of every guarded run. -/
theorem Guarded.invariant {Inv : S → Prop}
    (hstep : ∀ s e, Inv s → ok s e → Inv (step s e)) {s : S} {es : List E}
    (hrun : Guarded step ok s es) (hs : Inv s) : Inv (run step s es) := by
  induction es generalizing s with
  | nil => exact hs
  | cons e es ih => exact ih hrun.2 (hstep s e hs hrun.1)

/-- An invariant of every step holds at the end of every run. -/
theorem invariant {Inv : S → Prop} (hstep : ∀ s e, Inv s → Inv (step s e))
    {s : S} (es : List E) (hs : Inv s) : Inv (run step s es) := by
  induction es generalizing s with
  | nil => exact hs
  | cons e es ih => exact ih (hstep s e hs)

/-- If what a step may do is exactly what keeps the invariant, the guarded runs are those that
never leave it. -/
theorem guarded_iff {Inv : S → Prop} (hstep : ∀ s e, Inv s → (ok s e ↔ Inv (step s e)))
    {s : S} {es : List E} (hs : Inv s) :
    Guarded step ok s es ↔ ∀ pre, pre <+: es → Inv (run step s pre) := by
  constructor
  · rintro hrun pre ⟨rest, rfl⟩
    exact (guarded_append.mp hrun).1.invariant (fun s e hs h ↦ (hstep s e hs).mp h) hs
  · intro h
    induction es generalizing s with
    | nil => trivial
    | cons e es ih =>
        have hnext : Inv (step s e) := h [e] ⟨es, rfl⟩
        refine ⟨(hstep s e hs).mpr hnext, ih hnext fun pre hpre ↦ ?_⟩
        exact h (e :: pre) (List.cons_prefix_cons.mpr ⟨rfl, hpre⟩)

/-- If what a step may do is exactly what it has to keep, and the invariant is kept along with that,
the guarded runs are those in which every step keeps it. -/
theorem guarded_iff_kept {Inv : S → Prop} {kept : S → E → Prop}
    (hstep : ∀ s e, Inv s → (ok s e ↔ kept s e)) (hinv : ∀ s e, Inv s → kept s e → Inv (step s e))
    {s : S} {es : List E} (hs : Inv s) :
    Guarded step ok s es ↔
      ∀ before e after, es = before ++ e :: after → kept (run step s before) e := by
  induction es generalizing s with
  | nil =>
      refine iff_of_true trivial fun before e after heq ↦ ?_
      exact absurd heq.symm (List.append_ne_nil_of_right_ne_nil _ (List.cons_ne_nil _ _))
  | cons e es ih =>
      constructor
      · rintro ⟨hok, hrest⟩ before e' after heq
        have hkept := (hstep s e hs).mp hok
        cases before with
        | nil =>
            obtain ⟨rfl, -⟩ := List.cons.inj heq
            exact hkept
        | cons x before =>
            obtain ⟨rfl, htail⟩ := List.cons.inj heq
            exact (ih (hinv s e hs hkept)).mp hrest before e' after htail
      · intro h
        have hkept : kept s e := h [] e es rfl
        refine ⟨(hstep s e hs).mpr hkept, (ih (hinv s e hs hkept)).mpr fun before e' after heq ↦ ?_⟩
        exact h (e :: before) e' after (congrArg (e :: ·) heq)

/-- What a step may break, unless a later step restores it: it holds at the end of a run exactly if
every step that broke it has such a step behind it. -/
theorem holds_iff_restored {P : S → Prop} {restores : E → Prop} {breaks : S → E → Prop}
    (hstep : ∀ s e, P (step s e) ↔ restores e ∨ P s ∧ ¬ breaks s e)
    (hbreaks : ∀ s e, breaks s e → ¬ restores e) {s : S} (hs : P s) (es : List E) :
    P (run step s es) ↔ ∀ before e after, es = before ++ e :: after →
      breaks (run step s before) e → ∃ r ∈ after, restores r := by
  induction es using List.reverseRecOn with
  | nil =>
      refine iff_of_true hs fun before e after heq ↦ ?_
      exact absurd heq.symm (List.append_ne_nil_of_right_ne_nil _ (List.cons_ne_nil _ _))
  | append_singleton es e' ih =>
      rw [run_append, run_cons, run_nil, hstep, ih]
      constructor
      · rintro hlast before e after heq hbreak
        rcases List.eq_nil_or_concat after with rfl | ⟨after, r, rfl⟩
        · -- The last step is the one that breaks it.
          obtain ⟨rfl, hlast_eq⟩ := List.append_inj' heq rfl
          obtain rfl := (List.cons.inj hlast_eq).1
          rcases hlast with hrestore | ⟨-, hnot⟩
          · exact absurd hrestore (hbreaks _ _ hbreak)
          · exact absurd hbreak hnot
        · rw [List.concat_eq_append, ← List.cons_append, ← List.append_assoc] at heq
          obtain ⟨hes, hlast_eq⟩ := List.append_inj' heq rfl
          obtain rfl := (List.cons.inj hlast_eq).1
          rcases hlast with hrestore | ⟨hbefore, -⟩
          · exact ⟨e', by simp, hrestore⟩
          · obtain ⟨r, hr, hrestore⟩ := hbefore before e after hes hbreak
            exact ⟨r, by simp [hr], hrestore⟩
      · intro h
        by_cases hrestore : restores e'
        · exact .inl hrestore
        · refine .inr ⟨fun before e after heq hbreak ↦ ?_, fun hbreak ↦ ?_⟩
          · obtain ⟨r, hr, hr'⟩ := h before e (after ++ [e']) (by rw [heq]; simp) hbreak
            rcases List.mem_append.mp hr with hr | hr
            · exact ⟨r, hr, hr'⟩
            · rw [List.mem_singleton.mp hr] at hr'
              exact absurd hr' hrestore
          · obtain ⟨r, hr, -⟩ := h es e' [] rfl hbreak
            exact absurd hr List.not_mem_nil

/-! ## Runs without end -/

/-- The state after so many events of a run without end. -/
def after (step : S → E → S) (s : S) (es : Nat → E) : Nat → S
  | 0 => s
  | n + 1 => step (after step s es n) (es n)

/-- Ranks are well founded, every step keeps the rank or lowers it, and from wherever the run is there
is a step ahead that lowers it: then the goal is ahead. -/
theorem eventually_of_rank {ι : Type*} {lower : ι → ι → Prop} (hwf : WellFounded lower)
    {s : Nat → S} {P : ι → S → Prop} {Q : S → Prop}
    (hstep : ∀ n i, P i (s n) → Q (s n) ∨ ∃ j, P j (s (n + 1)) ∧ (j = i ∨ lower j i))
    (hhelp : ∀ n i, P i (s n) → ∃ m, n ≤ m ∧
      (P i (s m) → Q (s m) ∨ ∃ j, P j (s (m + 1)) ∧ lower j i))
    {n : Nat} {i : ι} (h : P i (s n)) : ∃ m, Q (s m) := by
  induction i using hwf.induction generalizing n with
  | h i ih =>
      obtain ⟨m, hle, hlowers⟩ := hhelp n i h
      obtain ⟨k, rfl⟩ := Nat.exists_eq_add_of_le hle
      -- Up to the step that helps the rank stays, or the goal comes sooner.
      have hwalk : ∀ k, (∃ m, Q (s m)) ∨ P i (s (n + k)) := by
        intro k
        induction k with
        | zero => exact .inr h
        | succ k ihk =>
            rcases ihk with hgoal | hat
            · exact .inl hgoal
            · rcases hstep (n + k) i hat with hgoal | ⟨j, hj, rfl | hlt⟩
              · exact .inl ⟨_, hgoal⟩
              · exact .inr hj
              · exact .inl (ih j hlt hj)
      rcases hwalk k with hgoal | hat
      · exact hgoal
      · rcases hlowers hat with hgoal | ⟨j, hj, hlt⟩
        · exact ⟨_, hgoal⟩
        · exact ih j hlt hj

end Run
