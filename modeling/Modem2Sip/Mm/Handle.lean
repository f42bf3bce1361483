import Modem2Sip.Lib.Prog
import Modem2Sip.Lib.Text

/-!
# Calls of the modem

`ModemHandle` of `mm/mod.rs`, as far as calls are made and ended: `dial`, `hangup` and `delete_call`.
ModemManager keeps an object for every call.  It may refuse to let go of one, above all while its call has not
terminated, and one that stays behind is in the way of the next call.
-/

namespace Modem2Sip.Mm.Handle

open Text

/-! ## The operations -/

inductive Call where
  | createCall (number : Str)
  | callProxy (path : Str)
  | start (path : Str)
  | hangup (path : Str)
  | hangupAll
  | deleteCall (path : Str)
  | state (path : Str)
  /-- In milliseconds. -/
  | now
  | sleep (ms : Nat)

abbrev Call.Answer : Call → Type
  | .createCall _ => Except Str Str
  | .state _ => Except Str Int
  | .now => Nat
  | .sleep _ => Unit
  | _ => Except Str Unit

/-- A task that is given up where it takes too long. -/
abbrev Task (α : Type) : Type := Prog Call Call.Answer (Option α)

/-- `call_state::TERMINATED`. -/
def terminated : Int := 7

/-- `TERMINATE_TIMEOUT`. -/
def terminateTimeout : Nat := 3000

variable {α : Type}

/-- The loop of `wait_terminated`, so many rounds of it. -/
def pollTerminated (path : Str) (deadline : Nat) (k : Bool → Task α) : Nat → Task α
  | 0 => .done none
  | n + 1 => .call (.state path) fun
    | .error _ => k true
    | .ok s =>
      if s = terminated then k true
      else .call .now fun t ↦
        if deadline ≤ t then k false
        else .call (.sleep 100) fun _ ↦ pollTerminated path deadline k n

/-- `wait_terminated`. -/
def waitTerminated (n : Nat) (path : Str) (k : Bool → Task α) : Task α :=
  .call .now fun t ↦ pollTerminated path (t + terminateTimeout) k n

/-- `release_call`. -/
def releaseCall (n : Nat) (path : Str) (k : Task α) : Task α :=
  let delete : Task α := .call (.deleteCall path) fun _ ↦ k
  waitTerminated n path fun
    | true => delete
    | false => .call .hangupAll fun _ ↦ waitTerminated n path fun _ ↦ delete

def dial (n : Nat) (number : Str) : Task (Except Str Str) :=
  .call (.createCall number) fun
    | .error e => .done (some (.error ("Voice.CreateCall: " ++ e)))
    | .ok path => .call (.callProxy path) fun
      | .error e => .done (some (.error e))
      | .ok () => .call (.start path) fun
        | .ok () => .done (some (.ok path))
        | .error e => releaseCall n path (.done (some (.error ("Call.Start failed: " ++ e))))

def hangup (n : Nat) (path : Str) : Task (Except Str Unit) :=
  .call (.callProxy path) fun
    | .error e => .done (some (.error e))
    | .ok () => .call (.hangup path) fun _ ↦ releaseCall n path (.done (some (.ok ())))

def deleteCall (path : Str) : Task Unit := .call (.deleteCall path) fun _ ↦ .done (some ())

/-- What the gateway does with the modem, one after the other. -/
inductive Op where
  | dial (number : Str)
  | hangup (path : Str)
  | deleteCall (path : Str)

/-- One operation after the other.  The result is the calls that were dialled and have not been hung up,
with those that are given. -/
def serve (n : Nat) : List Op → List Str → Task (List Str)
  | [], held => .done (some held)
  | .dial number :: ops, held => (dial n number).bind fun
    | none => .done none
    | some (.error _) => serve n ops held
    | some (.ok path) => serve n ops (path :: held)
  | .hangup path :: ops, held => (hangup n path).bind fun
    | none => .done none
    | some _ => serve n ops (held.filter (· ≠ path))
  | .deleteCall path :: ops, held => (deleteCall path).bind fun _ ↦ serve n ops held

/-! ## ModemManager -/

/-- The object of a call. -/
structure Object where
  state : Int
  /-- The call was made here. -/
  dialled : Bool
  /-- How long after a `HangupAll` it was refused to delete the object, at most. -/
  refused : Nat
  /-- It was refused to delete the object although the call had terminated. -/
  kept : Bool

structure Manager where
  clock : Nat
  /-- When everything was last hung up. -/
  hungUp : Option Nat
  objects : Str → Option Object

namespace Manager

def set (s : Manager) (path : Str) (object : Option Object) : Manager :=
  { s with objects := Function.update s.objects path object }

@[simp] theorem set_objects_self (s : Manager) (path : Str) (object : Option Object) :
    (s.set path object).objects path = object := Function.update_self ..

theorem set_objects_of_ne (s : Manager) {path path' : Str} (hne : path' ≠ path) (object : Option Object) :
    (s.set path object).objects path' = s.objects path' := Function.update_of_ne hne ..

/-- How long ago everything was hung up. -/
def since (s : Manager) : Nat := s.hungUp.elim 0 (s.clock - ·)

/-- Other calls come and go, and the calls of the gateway change their state, of which `terminated` is the
last one. -/
structure Meanwhile (s s' : Manager) : Prop where
  clock : s.clock ≤ s'.clock
  hungUp : s'.hungUp = s.hungUp
  objects : ∀ path o', s'.objects path = some o' → o'.dialled = true →
    ∃ o, s.objects path = some o ∧ o.dialled = true ∧ o'.refused = o.refused ∧ o'.kept = o.kept ∧
      (o.state = terminated → o'.state = terminated)

/-- The object after it was refused to delete it. -/
def refuse (s : Manager) (o : Object) : Object :=
  if o.state = terminated then { o with kept := true } else { o with refused := max o.refused s.since }

/-- What ModemManager does when it is called.  Everything may fail at any time. -/
def Does (s : Manager) : (c : Call) → c.Answer → Manager → Prop
  | .createCall _, .ok path, s' =>
    s.objects path = none ∧ ∃ state, s' = s.set path (some ⟨state, true, 0, false⟩)
  | .state path, .ok state, s' => (∃ o, s.objects path = some o ∧ o.state = state) ∧ s' = s
  | .hangupAll, _, s' => s' = { s with hungUp := some s.clock }
  | .deleteCall path, .ok (), s' => s' = s.set path none
  | .deleteCall path, .error _, s' => s' = s.set path ((s.objects path).map s.refuse)
  | .now, t, s' => t = s.clock ∧ s' = s
  | .sleep ms, _, s' => s' = { s with clock := s.clock + ms }
  | _, _, s' => s' = s

def world : Prog.World Call Call.Answer Manager := fun s c r s' ↦
  ∃ s₁ s₂, Meanwhile s s₁ ∧ s₁.Does c r s₂ ∧ Meanwhile s₂ s'

end Manager

open Manager

abbrev History : Type := List (Prog.Event Call Call.Answer)

/-- Why the object of a call may still be there: it was refused to delete it although its call had terminated,
or although everything had been hung up three seconds ago; or its proxy or its state was not to be had. -/
def Excused (es : History) (path : Str) (o : Object) : Prop :=
  o.kept = true ∨ terminateTimeout ≤ o.refused ∨ (∃ e, ⟨.callProxy path, .error e⟩ ∈ es) ∨ ∃ e, ⟨.state path, .error e⟩ ∈ es

/-- The objects of our calls are those of the calls that are held. -/
def Kept (held : List Str) (es : History) (s : Manager) : Prop :=
  ∀ path o, s.objects path = some o → o.dialled = true → path ∈ held ∨ Excused es path o

/-! ## One call after the other -/

section Steps

variable {held : List Str} {es : History} {s s' : Manager} {path : Str}

theorem Excused.append {o : Object} (h : Excused es path o) (more : History) :
    Excused (es ++ more) path o := by
  rcases h with h | h | ⟨e, he⟩ | ⟨e, he⟩
  · exact .inl h
  · exact .inr (.inl h)
  · exact .inr (.inr (.inl ⟨e, List.mem_append_left _ he⟩))
  · exact .inr (.inr (.inr ⟨e, List.mem_append_left _ he⟩))

theorem Kept.append (h : Kept held es s) (more : History) : Kept held (es ++ more) s :=
  fun path o ho hdialled ↦ (h path o ho hdialled).imp_right fun hex ↦ hex.append more

theorem Kept.meanwhile (h : Kept held es s) (hs : Meanwhile s s') : Kept held es s' := by
  intro path o' ho' hdialled
  obtain ⟨o, ho, hd, hrefused, hkept, -⟩ := hs.objects path o' ho' hdialled
  refine (h path o ho hd).imp_right fun hex ↦ ?_
  unfold Excused at hex ⊢
  rwa [hrefused, hkept]

theorem Kept.mono {held' : List Str} (h : Kept held es s) (hsub : ∀ p ∈ held, p ∈ held') :
    Kept held' es s := fun path o ho hdialled ↦ (h path o ho hdialled).imp_left (hsub path)

namespace Manager

theorem Meanwhile.trans {s'' : Manager} (h : Meanwhile s s') (h' : Meanwhile s' s'') : Meanwhile s s'' where
  clock := h.clock.trans h'.clock
  hungUp := h'.hungUp.trans h.hungUp
  objects path o'' ho'' hdialled := by
    obtain ⟨o', ho', hdialled', hrefused', hkept', hterm'⟩ := h'.objects path o'' ho'' hdialled
    obtain ⟨o, ho, hd, hrefused, hkept, hterm⟩ := h.objects path o' ho' hdialled'
    exact ⟨o, ho, hd, hrefused'.trans hrefused, hkept'.trans hkept, fun hstate ↦ hterm' (hterm hstate)⟩

/-- A call that only asks. -/
theorem Meanwhile.of_asked {c : Call} {r : c.Answer} (hW : world s c r s')
    (hdoes : ∀ s₁ s₂ : Manager, s₁.Does c r s₂ → s₂ = s₁) : Meanwhile s s' := by
  obtain ⟨s₁, s₂, hbefore, hstep, hafter⟩ := hW
  obtain rfl := hdoes s₁ s₂ hstep
  exact hbefore.trans hafter

theorem Meanwhile.of_state {state : Int} (hW : world s (.state path) (.ok state) s') :
    Meanwhile s s' ∧ (state = terminated →
      ∀ o, s'.objects path = some o → o.dialled = true → o.state = terminated) := by
  obtain ⟨s₁, _, hbefore, ⟨⟨o, ho, hstate⟩, rfl⟩, hafter⟩ := hW
  refine ⟨hbefore.trans hafter, fun hterm o' ho' hdialled ↦ ?_⟩
  obtain ⟨o₂, ho₂, -, -, -, hkeeps⟩ := hafter.objects path o' ho' hdialled
  obtain rfl := Option.some.inj (ho.symm.trans ho₂)
  exact hkeeps (hstate.trans hterm)

theorem Meanwhile.of_now {t : Nat} (hW : world s .now t s') :
    Meanwhile s s' ∧ s.clock ≤ t ∧ t ≤ s'.clock := by
  obtain ⟨s₁, _, hbefore, ⟨rfl, rfl⟩, hafter⟩ := hW
  exact ⟨hbefore.trans hafter, hbefore.clock, hafter.clock⟩

theorem Meanwhile.of_sleep {ms : Nat} {r : Unit} (hW : world s (.sleep ms) r s') :
    Meanwhile s s' ∧ s.clock + ms ≤ s'.clock := by
  obtain ⟨s₁, _, hbefore, rfl, hafter⟩ := hW
  have hlater : Meanwhile s₁ { s₁ with clock := s₁.clock + ms } :=
    ⟨Nat.le_add_right _ _, rfl, fun path o ho hdialled ↦ ⟨o, ho, hdialled, rfl, rfl, id⟩⟩
  exact ⟨(hbefore.trans hlater).trans hafter, (Nat.add_le_add_right hbefore.clock ms).trans hafter.clock⟩

/-- What `DeleteCall` leaves. -/
theorem of_deleteCall {r : Except Str Unit} (h : s.Does (.deleteCall path) r s') {path' : Str} {o : Object}
    (ho : s'.objects path' = some o) : (path' ≠ path ∧ s.objects path' = some o) ∨
      ∃ o₁, path' = path ∧ s.objects path' = some o₁ ∧ o = s.refuse o₁ := by
  by_cases hpath : path' = path
  · subst hpath
    rcases r with e | ⟨⟩
    · obtain rfl := h
      rw [set_objects_self, Option.map_eq_some_iff] at ho
      obtain ⟨o₁, ho₁, rfl⟩ := ho
      exact .inr ⟨o₁, rfl, ho₁, rfl⟩
    · obtain rfl := h
      rw [set_objects_self] at ho
      cases ho
  · left
    rcases r with e | ⟨⟩
    · obtain rfl := h
      rw [set_objects_of_ne s hpath] at ho
      exact ⟨hpath, ho⟩
    · obtain rfl := h
      rw [set_objects_of_ne s hpath] at ho
      exact ⟨hpath, ho⟩

@[simp] theorem refuse_dialled (s : Manager) (o : Object) : (s.refuse o).dialled = o.dialled := by
  unfold refuse
  split
  · rfl
  · rfl

/-- What is left of a call that has terminated was refused. -/
theorem refuse_kept (s : Manager) {o : Object} (h : o.state = terminated) : (s.refuse o).kept = true := by
  rw [refuse, if_pos h]

theorem kept_refuse (s : Manager) {o : Object} (h : o.kept = true) : (s.refuse o).kept = true := by
  unfold refuse
  split
  · rfl
  · exact h

theorem refused_le (s : Manager) (o : Object) : o.refused ≤ (s.refuse o).refused := by
  unfold refuse
  split
  · exact le_rfl
  · exact le_max_left _ _

/-- The delay is on record, unless the call had terminated. -/
theorem since_le (s : Manager) {o : Object} (h : o.state ≠ terminated) : s.since ≤ (s.refuse o).refused := by
  rw [refuse, if_neg h]
  exact le_max_right _ _

end Manager

theorem Kept.hangupAll {r : Except Str Unit} (h : Kept held es s) (hW : world s .hangupAll r s') :
    Kept held es s' ∧ ∃ t, s'.hungUp = some t ∧ t ≤ s'.clock := by
  obtain ⟨s₁, _, hbefore, rfl, hafter⟩ := hW
  have h₁ : Kept held es { s₁ with hungUp := some s₁.clock } :=
    fun path o ho ↦ h.meanwhile hbefore path o ho
  exact ⟨h₁.meanwhile hafter, s₁.clock, hafter.hungUp, hafter.clock⟩

/-- The call has ended, as far as one can tell. -/
def Over (path : Str) (es : History) (s : Manager) : Prop :=
  (∀ o, s.objects path = some o → o.dialled = true → o.state = terminated) ∨
    ∃ e, ⟨.state path, .error e⟩ ∈ es

theorem Over.meanwhile (h : Over path es s) (hs : Meanwhile s s') : Over path es s' := by
  refine h.imp_left fun hterm o' ho' hdialled ↦ ?_
  obtain ⟨o, ho, hd, -, -, hstate⟩ := hs.objects path o' ho' hdialled
  exact hstate (hterm o ho hd)

variable {α β : Type} {f : Option α → Task β} {Q : History → Option β → Manager → Prop}

/-- The loop ends by itself, since time passes. -/
theorem ends_pollTerminated {k : Bool → Task α} (n : Nat) {deadline : Nat} {hungUp : Option Nat}
    (hn : 0 < n) (hdeadline : deadline + 100 ≤ s.clock + 100 * n) (h : Kept held es s)
    (hhungUp : s.hungUp = hungUp)
    (hk : ∀ b es' s', Kept held es' s' → s'.hungUp = hungUp → (b = true → Over path es' s') →
      (b = false → deadline ≤ s'.clock) → Prog.Ends world Q ((k b).bind f) es' s') :
    Prog.Ends world Q ((pollTerminated path deadline k n).bind f) es s := by
  induction n generalizing es s with
  | zero => exact absurd hn (lt_irrefl 0)
  | succ n ih =>
      refine .call ?_
      rintro (e | st) s₁ hW
      · have hs := Meanwhile.of_asked hW fun _ _ h ↦ h
        exact hk true _ s₁ ((h.meanwhile hs).append _) (hs.hungUp.trans hhungUp)
          (fun _ ↦ .inr ⟨e, List.mem_append_right _ List.mem_cons_self⟩) nofun
      obtain ⟨hs₁, hterm⟩ := Meanwhile.of_state hW
      have h₁ := (h.meanwhile hs₁).append [⟨.state path, .ok st⟩]
      have hhungUp₁ := hs₁.hungUp.trans hhungUp
      dsimp only
      split
      · rename_i hst
        exact hk true _ s₁ h₁ hhungUp₁ (fun _ ↦ .inl (hterm hst)) nofun
      refine .call ?_
      intro t s₂ hW₂
      obtain ⟨hs₂, ht, ht'⟩ := Meanwhile.of_now hW₂
      have h₂ := (h₁.meanwhile hs₂).append [⟨.now, t⟩]
      have hhungUp₂ := hs₂.hungUp.trans hhungUp₁
      dsimp only
      split
      · rename_i hle
        exact hk false _ s₂ h₂ hhungUp₂ nofun fun _ ↦ hle.trans ht'
      -- Another round takes a tenth of a second, at least.
      rename_i hlt
      refine .call ?_
      intro r s₃ hW₃
      obtain ⟨hs₃, hclock⟩ := Meanwhile.of_sleep hW₃
      have hclock₁ := hs₁.clock
      refine ih (by omega) (by omega) ((h₂.meanwhile hs₃).append _) (hs₃.hungUp.trans hhungUp₂)

/-- `wait_terminated` needs 31 rounds at most. -/
theorem ends_waitTerminated {k : Bool → Task α} (n : Nat) {hungUp : Option Nat} (h : Kept held es s)
    (hhungUp : s.hungUp = hungUp)
    (hk : ∀ b es' s', Kept held es' s' → s'.hungUp = hungUp → (b = true → Over path es' s') →
      (b = false → s.clock + terminateTimeout ≤ s'.clock) → Prog.Ends world Q ((k b).bind f) es' s') :
    Prog.Ends world Q ((waitTerminated (31 + n) path k).bind f) es s := by
  refine .call ?_
  intro t s₁ hW
  obtain ⟨hs₁, ht, ht'⟩ := Meanwhile.of_now hW
  refine ends_pollTerminated (31 + n) (by omega) ?_ ((h.meanwhile hs₁).append _)
    (hs₁.hungUp.trans hhungUp) ?_
  · unfold terminateTimeout
    omega
  · intro b es' s' h' hhungUp' hover hwaited
    exact hk b es' s' h' hhungUp' hover fun hb ↦ (Nat.add_le_add_right ht _).trans (hwaited hb)

/-- It may be expected that the object can be deleted, or it has been long enough. -/
def Ready (path : Str) (es : History) (s : Manager) : Prop :=
  Over path es s ∨ terminateTimeout ≤ s.since

theorem Ready.meanwhile (h : Ready path es s) (hs : Meanwhile s s') : Ready path es s' := by
  refine h.imp (fun hover ↦ hover.meanwhile hs) fun hsince ↦ hsince.trans ?_
  unfold Manager.since
  rw [hs.hungUp]
  cases s.hungUp with
  | none => exact le_rfl
  | some t => exact Nat.sub_le_sub_right hs.clock t

/-- Whether ModemManager deletes the object or not. -/
theorem Kept.deleteCall {r : Except Str Unit} (h : Kept (path :: held) es s) (hready : Ready path es s)
    (hW : world s (.deleteCall path) r s') : Kept (held.filter (· ≠ path)) es s' := by
  obtain ⟨s₁, s₂, hbefore, hstep, hafter⟩ := hW
  refine Kept.meanwhile ?_ hafter
  intro path' o ho hdialled
  rcases of_deleteCall hstep ho with ⟨hne, ho₁⟩ | ⟨o₁, rfl, ho₁, rfl⟩
  · refine (h.meanwhile hbefore path' o ho₁ hdialled).imp_left fun hmem ↦ ?_
    exact List.mem_filter.mpr ⟨(List.mem_cons.mp hmem).resolve_left hne, decide_eq_true hne⟩
  · right
    by_cases hterm : o₁.state = terminated
    · exact .inl (s₁.refuse_kept hterm)
    · rcases hready.meanwhile hbefore with (hover | herror) | hsince
      · rw [refuse_dialled] at hdialled
        exact absurd (hover o₁ ho₁ hdialled) hterm
      · exact .inr (.inr (.inr herror))
      · exact .inr (.inl (hsince.trans (s₁.since_le hterm)))

theorem ends_releaseCall {k : Task α} (n : Nat) (h : Kept (path :: held) es s)
    (hk : ∀ es' s', Kept (held.filter (· ≠ path)) es' s' → Prog.Ends world Q (k.bind f) es' s') :
    Prog.Ends world Q ((releaseCall (31 + n) path k).bind f) es s := by
  have hdelete (es' : History) (s' : Manager) (h' : Kept (path :: held) es' s')
      (hready : Ready path es' s') :
      Prog.Ends world Q (Prog.bind (.call (.deleteCall path) fun _ ↦ k) f) es' s' :=
    .call fun r s'' hW ↦ hk _ s'' ((h'.deleteCall hready hW).append _)
  refine ends_waitTerminated n h rfl ?_
  intro b es₁ s₁ h₁ hhungUp₁ hover _
  cases b with
  | true => exact hdelete es₁ s₁ h₁ (.inl (hover rfl))
  | false =>
      refine .call ?_
      intro r s₂ hW
      obtain ⟨h₂, t, hhungUp₂, ht⟩ := h₁.hangupAll hW
      refine ends_waitTerminated n (h₂.append _) hhungUp₂ ?_
      intro b es₃ s₃ h₃ hhungUp₃ hover₃ hwaited
      refine hdelete es₃ s₃ h₃ ?_
      cases b with
      | true => exact .inl (hover₃ rfl)
      | false =>
          right
          have hclock := hwaited rfl
          rw [Manager.since, hhungUp₃, Option.elim_some]
          omega

theorem Kept.createCall {number : Str} (h : Kept held es s) (hW : world s (.createCall number) (.ok path) s') :
    Kept (path :: held) es s' := by
  obtain ⟨s₁, _, hbefore, ⟨-, state, rfl⟩, hafter⟩ := hW
  refine Kept.meanwhile ?_ hafter
  intro path' o ho hdialled
  by_cases hpath : path' = path
  · exact .inl (hpath ▸ List.mem_cons_self)
  · rw [set_objects_of_ne s₁ hpath] at ho
    exact (h.meanwhile hbefore path' o ho hdialled).imp_left (List.mem_cons_of_mem path)

/-- To be without a proxy is an excuse. -/
theorem Kept.of_callProxy {e : Str} (h : Kept (path :: held) es s) (he : ⟨.callProxy path, .error e⟩ ∈ es) :
    Kept (held.filter (· ≠ path)) es s := by
  intro path' o ho hdialled
  by_cases hpath : path' = path
  · subst hpath
    exact .inr (.inr (.inr (.inl ⟨e, he⟩)))
  · refine (h path' o ho hdialled).imp_left fun hmem ↦ ?_
    exact List.mem_filter.mpr ⟨(List.mem_cons.mp hmem).resolve_left hpath, decide_eq_true hpath⟩

theorem Kept.of_filter (h : Kept (held.filter (· ≠ path)) es s) : Kept held es s :=
  h.mono fun _ hp ↦ List.mem_of_mem_filter hp

theorem ends_dial {f : Option (Except Str Str) → Task β} (n : Nat) (number : Str) (h : Kept held es s)
    (hok : ∀ path es' s', Kept (path :: held) es' s' → Prog.Ends world Q (f (some (.ok path))) es' s')
    (herror : ∀ e es' s', Kept held es' s' → Prog.Ends world Q (f (some (.error e))) es' s') :
    Prog.Ends world Q ((dial (31 + n) number).bind f) es s := by
  refine .call ?_
  rintro (e | path) s₁ hW
  · exact herror _ _ s₁ ((h.meanwhile (.of_asked hW fun _ _ h ↦ h)).append _)
  have h₁ := (h.createCall hW).append [⟨.createCall number, .ok path⟩]
  refine .call ?_
  rintro (e | ⟨⟩) s₂ hW₂
  · have h₂ := (h₁.meanwhile (.of_asked hW₂ fun _ _ h ↦ h)).append [⟨.callProxy path, .error e⟩]
    exact herror e _ s₂ (h₂.of_callProxy (List.mem_append_right _ List.mem_cons_self)).of_filter
  have h₂ := (h₁.meanwhile (.of_asked hW₂ fun _ _ h ↦ h)).append [⟨.callProxy path, .ok ()⟩]
  refine .call ?_
  rintro (e | ⟨⟩) s₃ hW₃
  · have h₃ := (h₂.meanwhile (.of_asked hW₃ fun _ _ h ↦ h)).append [⟨.start path, .error e⟩]
    exact ends_releaseCall n h₃ fun es' s' h' ↦ herror _ es' s' h'.of_filter
  · exact hok path _ s₃ ((h₂.meanwhile (.of_asked hW₃ fun _ _ h ↦ h)).append _)

theorem ends_hangup {f : Option (Except Str Unit) → Task β} (n : Nat) (path : Str) (h : Kept held es s)
    (hk : ∀ r es' s', Kept (held.filter (· ≠ path)) es' s' → Prog.Ends world Q (f (some r)) es' s') :
    Prog.Ends world Q ((hangup (31 + n) path).bind f) es s := by
  have h₀ : Kept (path :: held) es s := h.mono fun _ hp ↦ List.mem_cons_of_mem path hp
  refine .call ?_
  rintro (e | ⟨⟩) s₁ hW
  · have h₁ := (h₀.meanwhile (.of_asked hW fun _ _ h ↦ h)).append [⟨.callProxy path, .error e⟩]
    exact hk _ _ s₁ (h₁.of_callProxy (List.mem_append_right _ List.mem_cons_self))
  have h₁ := (h₀.meanwhile (.of_asked hW fun _ _ h ↦ h)).append [⟨.callProxy path, .ok ()⟩]
  refine .call ?_
  intro r s₂ hW₂
  have hs₂ := Meanwhile.of_asked hW₂ fun _ _ h ↦ h
  exact ends_releaseCall n ((h₁.meanwhile hs₂).append _) fun es' s' h' ↦ hk _ es' s' h'

/-- To delete an object in passing leaves none behind. -/
theorem Kept.deleted {r : Except Str Unit} (h : Kept held es s) (hW : world s (.deleteCall path) r s') :
    Kept held es s' := by
  obtain ⟨s₁, s₂, hbefore, hstep, hafter⟩ := hW
  refine Kept.meanwhile ?_ hafter
  intro path' o ho hdialled
  rcases of_deleteCall hstep ho with ⟨-, ho₁⟩ | ⟨o₁, rfl, ho₁, rfl⟩
  · exact h.meanwhile hbefore path' o ho₁ hdialled
  · rw [refuse_dialled] at hdialled
    refine (h.meanwhile hbefore path' o₁ ho₁ hdialled).imp_right fun hex ↦ ?_
    rcases hex with hkept | hrefused | hasked
    · exact .inl (s₁.kept_refuse hkept)
    · exact .inr (.inl (hrefused.trans (s₁.refused_le o₁)))
    · exact .inr (.inr hasked)

/-- The operations end, and what they leave behind is held or excused. -/
def Released (es : History) (r : Option (List Str)) (s : Manager) : Prop := ∃ held, r = some held ∧ Kept held es s

theorem ends_serve (n : Nat) (ops : List Op) (h : Kept held es s) :
    Prog.Ends world Released (serve (31 + n) ops held) es s := by
  induction ops generalizing held es s with
  | nil => exact .done ⟨held, rfl, h⟩
  | cons op ops ih =>
      cases op with
      | dial number => exact ends_dial n number h (fun _ _ _ h' ↦ ih h') fun _ _ _ h' ↦ ih h'
      | hangup path => exact ends_hangup n path h fun _ _ _ h' ↦ ih h'
      | deleteCall path => exact .call fun r s' hW ↦ ih ((h.deleted hW).append _)

end Steps

end Modem2Sip.Mm.Handle
