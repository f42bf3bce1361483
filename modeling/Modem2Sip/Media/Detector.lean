import Mathlib.Data.List.Infix
import Modem2Sip.Lib.Run

/-!
# Digits in the downlink

What `sender_loop` does with the tones that `detect_dtmf_detailed` finds.  A frame is 20 ms of audio;
a digit is to be reported when it is there for three frames, and not again before it goes away.
-/

namespace Modem2Sip.Media

/-- What a turn of the loop meets: does a tone for the card wait, and which digit is in the frame? -/
structure Frame where
  pending : Bool
  digit : Option Char
deriving DecidableEq, Repr

/-- What becomes of a frame. -/
inductive Heard where
  /-- The detector is not asked. -/
  | skipped
  /-- It finds no digit. -/
  | missed
  | hit (digit : Char) (reported : Bool)
deriving DecidableEq, Repr

/-- The variables of the loop. -/
structure Detector where
  candidate : Option Char
  streak : Nat
  reported : Option Char
  gap : Nat
  guard : Nat
deriving DecidableEq, Repr

namespace Detector

/-- `DTMF_FRAMES`. -/
def dtmfFrames : Nat := 3

/-- `saturating_add(1)` of a `u8`. -/
def saturatingSucc (n : Nat) : Nat := min (n + 1) 255

/-- While a tone is played, and for half a second after it, the modem may echo it. -/
def tick (s : Detector) (pending : Bool) : Detector :=
  { s with guard := if pending then 25 else s.guard - 1 }

/-- The streak with one more frame of the digit. -/
def streakWith (s : Detector) (d : Char) : Nat :=
  if s.candidate = some d then saturatingSucc s.streak else 1

/-- A digit is found.  Is it reported? -/
def hit (s : Detector) (d : Char) : Detector × Bool :=
  if dtmfFrames ≤ s.streakWith d ∧ s.reported ≠ some d then
    (⟨some d, s.streakWith d, some d, 0, s.guard⟩, true)
  else (⟨some d, s.streakWith d, s.reported, 0, s.guard⟩, false)

/-- No digit is found: the second time in a row, the digit has gone away. -/
def miss (s : Detector) : Detector :=
  let gap := saturatingSucc s.gap
  if 2 ≤ gap then ⟨none, 0, none, gap, s.guard⟩ else { s with gap := gap }

/-- One frame; `listening` if there is a channel to report to. -/
def frame (listening : Bool) (s : Detector) (f : Frame) : Detector × Heard :=
  let s := s.tick f.pending
  if listening ∧ s.guard = 0 then
    match f.digit with
    | some d => ((s.hit d).1, .hit d (s.hit d).2)
    | none => (s.miss, .missed)
  else (s, .skipped)

/-- Before the first frame. -/
def start : Detector := ⟨none, 0, none, 0, 0⟩

end Detector

/-- The loop with what it has heard, the newest first; `interrupted` says that since the streak of
the candidate began there was a frame without it. -/
structure Listening where
  detector : Detector
  heard : List Heard
  interrupted : Bool
deriving DecidableEq, Repr

namespace Listening

def step (listening : Bool) (u : Listening) (f : Frame) : Listening :=
  let (s, heard) := u.detector.frame listening f
  { detector := s
    heard := heard :: u.heard
    interrupted :=
      match heard with
      | .hit d _ => decide (u.detector.candidate = some d) && u.interrupted
      | _ => true }

def start : Listening := ⟨.start, [], false⟩

/-- The frames that the detector was asked about. -/
def seen (heard : List Heard) : List Heard := heard.filter (· ≠ .skipped)

/-- The two frames before have the digit. -/
def Present (d : Char) (before : List Heard) : Prop :=
  ∃ b b' rest, before = .hit d b :: .hit d b' :: rest

/-- Another digit is reported, or two frames in a row are without one. -/
def Divided (d : Char) (between : List Heard) : Prop :=
  (∃ e ≠ d, .hit e true ∈ between) ∨ [.missed, .missed] <:+: seen between

/-- No report of the digit is without such a division after it. -/
def Apart (d : Char) (heard : List Heard) : Prop :=
  ∀ between before, heard = between ++ .hit d true :: before → Divided d between

/-- Every report is of a digit that was there for three frames, and that had gone away since it was
reported last. -/
def NoPhantom (heard : List Heard) : Prop :=
  ∀ d before, .hit d true :: before <:+ heard → Present d before ∧ Apart d before

/-- A streak that was interrupted is not completed. -/
def Uninterrupted (listening : Bool) (u : Listening) (f : Frame) : Prop :=
  ∀ d, f.digit = some d → listening = true → (u.detector.tick f.pending).guard = 0 →
    u.detector.candidate = some d → u.detector.streak + 1 = Detector.dtmfFrames →
    u.detector.reported ≠ some d → u.interrupted = false

/-! ## What the loop remembers -/

/-- How the variables of the loop go with what it has heard. -/
structure Tracked (u : Listening) : Prop where
  streak_pos : ∀ d, u.detector.candidate = some d → 0 < u.detector.streak
  reported : Detector.dtmfFrames ≤ u.detector.streak → u.detector.reported = u.detector.candidate
  one : ∀ d, u.detector.candidate = some d → u.detector.streak = 1 →
    (u.interrupted = false ↔ ∃ b rest, u.heard = .hit d b :: rest)
  two : ∀ d, u.detector.candidate = some d → u.detector.streak = 2 →
    (u.interrupted = false ↔ Present d u.heard)
  gap : 0 < u.detector.gap → ∃ rest, seen u.heard = .missed :: rest
  apart : ∀ d, u.detector.reported = some d ∨ Apart d u.heard

theorem Divided.cons {d : Char} {between : List Heard} (h : Divided d between) (x : Heard) :
    Divided d (x :: between) := by
  rcases h with ⟨e, hne, he⟩ | h
  · exact .inl ⟨e, hne, List.mem_cons_of_mem _ he⟩
  · exact .inr (h.trans ((List.suffix_cons x between).filter _).isInfix)

/-- A frame that is no report of the digit leaves the earlier ones as far apart as they are. -/
theorem Apart.cons {d : Char} {heard : List Heard} {x : Heard} (hx : x ≠ .hit d true)
    (h : ∀ between before, heard = between ++ .hit d true :: before → Divided d (x :: between)) :
    Apart d (x :: heard) := by
  intro between before heq
  cases between with
  | nil => exact absurd (List.cons.inj heq).1 hx
  | cons y between =>
      obtain ⟨rfl, htail⟩ := List.cons.inj heq
      exact h between before htail

theorem Apart.keep {d : Char} {heard : List Heard} {x : Heard} (h : Apart d heard)
    (hx : x ≠ .hit d true) : Apart d (x :: heard) :=
  .cons hx fun between before heq ↦ (h between before heq).cons x

/-- A report of another digit divides. -/
theorem apart_report {d e : Char} (heard : List Heard) (hne : e ≠ d) :
    Apart d (.hit e true :: heard) := by
  refine .cons (fun heq ↦ hne (Heard.hit.inj heq).1) fun between before _ ↦ ?_
  exact .inl ⟨e, hne, List.mem_cons_self⟩

/-- So does the second frame in a row without a digit. -/
theorem apart_missed {heard rest : List Heard} (h : seen heard = .missed :: rest) (d : Char) :
    Apart d (.missed :: heard) := by
  refine .cons Heard.noConfusion fun between before heq ↦ ?_
  rw [heq, seen, List.filter_append] at h
  cases hseen : seen between with
  | nil =>
      rw [seen] at hseen
      rw [hseen] at h
      cases h
  | cons y between' =>
      rw [seen] at hseen
      rw [hseen] at h
      obtain ⟨rfl, -⟩ := List.cons.inj h
      refine .inr ⟨[], between', ?_⟩
      rw [seen, List.filter_cons_of_pos (by decide), hseen]
      rfl

theorem noPhantom_cons {x : Heard} {heard : List Heard} :
    NoPhantom (x :: heard) ↔
      (∀ d, x = .hit d true → Present d heard ∧ Apart d heard) ∧ NoPhantom heard := by
  constructor
  · intro h
    refine ⟨?_, fun d before hsuffix ↦ h d before (hsuffix.trans (List.suffix_cons _ _))⟩
    rintro d rfl
    exact h d heard List.suffix_rfl
  · rintro ⟨hnew, h⟩ d before hsuffix
    rcases List.suffix_cons_iff.mp hsuffix with heq | hsuffix
    · obtain ⟨hhead, rfl⟩ := List.cons.inj heq
      exact hnew d hhead.symm
    · exact h d before hsuffix

theorem NoPhantom.suffix {heard heard' : List Heard} (h : NoPhantom heard) (hsuffix : heard' <:+ heard) :
    NoPhantom heard' := fun d before hbefore ↦ h d before (hbefore.trans hsuffix)

theorem tracked_start : start.Tracked where
  streak_pos := fun _ h ↦ absurd h (Option.some_ne_none _).symm
  reported := fun _ ↦ rfl
  one := fun _ h ↦ absurd h (Option.some_ne_none _).symm
  two := fun _ h ↦ absurd h (Option.some_ne_none _).symm
  gap := fun h ↦ absurd h (Nat.lt_irrefl _)
  apart := fun _ ↦ .inr fun _ _ h ↦ absurd h.symm (List.append_ne_nil_of_right_ne_nil _ (List.cons_ne_nil _ _))

/-! ## One frame -/

variable {u : Listening} {listening : Bool} {f : Frame} {d : Char}

/-- A frame without a digit is not the newest of a streak that was not interrupted. -/
theorem one_of_silent {x : Heard} (hx : ∀ d b, x ≠ .hit d b) (d : Char) (heard : List Heard) :
    true = false ↔ ∃ b rest, x :: heard = .hit d b :: rest := by
  constructor
  · exact fun h ↦ Bool.noConfusion h
  · rintro ⟨b, rest, heq⟩
    exact absurd (List.cons.inj heq).1 (hx d b)

theorem two_of_silent {x : Heard} (hx : ∀ d b, x ≠ .hit d b) (d : Char) (heard : List Heard) :
    true = false ↔ Present d (x :: heard) := by
  constructor
  · exact fun h ↦ Bool.noConfusion h
  · rintro ⟨b, b', rest, heq⟩
    exact absurd (List.cons.inj heq).1 (hx d b)

/-- A frame for which the detector is not asked interrupts the streak, and nothing else. -/
theorem Tracked.skip (h : u.Tracked) (guard : Nat) :
    Tracked ⟨{ u.detector with guard := guard }, .skipped :: u.heard, true⟩ where
  streak_pos := h.streak_pos
  reported := h.reported
  one := fun d _ _ ↦ one_of_silent (fun _ _ ↦ Heard.noConfusion) d _
  two := fun d _ _ ↦ two_of_silent (fun _ _ ↦ Heard.noConfusion) d _
  gap := h.gap
  apart := fun d ↦ (h.apart d).imp_right fun hapart ↦ hapart.keep Heard.noConfusion

/-- So does a first frame without a digit; with the second, everything is forgotten. -/
theorem Tracked.miss (h : u.Tracked) : Tracked ⟨u.detector.miss, .missed :: u.heard, true⟩ := by
  have hseen : seen (.missed :: u.heard) = .missed :: seen u.heard := List.filter_cons_of_pos (by decide)
  rw [Detector.miss]
  split
  · rename_i hgap
    refine ⟨?_, ?_, ?_, ?_, fun _ ↦ ⟨_, hseen⟩, fun d ↦ .inr ?_⟩
    · exact fun _ hnone ↦ absurd hnone (Option.some_ne_none _).symm
    · exact fun _ ↦ rfl
    · exact fun _ hnone ↦ absurd hnone (Option.some_ne_none _).symm
    · exact fun _ hnone ↦ absurd hnone (Option.some_ne_none _).symm
    · have hpos : 0 < u.detector.gap := by
        rw [Detector.saturatingSucc] at hgap
        omega
      obtain ⟨rest, hrest⟩ := h.gap hpos
      exact apart_missed hrest d
  · refine ⟨h.streak_pos, h.reported, ?_, ?_, fun _ ↦ ⟨_, hseen⟩, fun d ↦ ?_⟩
    · exact fun d _ _ ↦ one_of_silent (fun _ _ ↦ Heard.noConfusion) d _
    · exact fun d _ _ ↦ two_of_silent (fun _ _ ↦ Heard.noConfusion) d _
    · exact (h.apart d).imp_right fun hapart ↦ hapart.keep Heard.noConfusion

/-- A report is of the third hit of a streak, of a digit that is not the one reported last. -/
theorem Tracked.hit_eq_true_iff (h : u.Tracked) (d : Char) :
    (u.detector.hit d).2 = true ↔
      u.detector.candidate = some d ∧ u.detector.streak + 1 = Detector.dtmfFrames ∧
        u.detector.reported ≠ some d := by
  have hreported := h.reported
  rw [Detector.dtmfFrames] at hreported
  rw [Detector.hit, Detector.dtmfFrames, Detector.streakWith, Detector.saturatingSucc]
  by_cases hcand : u.detector.candidate = some d
  · rw [if_pos hcand]
    rw [hcand] at hreported
    split
    · rename_i hnew
      refine iff_of_true rfl ⟨hcand, ?_, hnew.2⟩
      have hlt : ¬ 3 ≤ u.detector.streak := fun hle ↦ hnew.2 (hreported hle)
      omega
    · rename_i hnew
      refine iff_of_false Bool.false_ne_true fun ⟨_, hstreak, hne⟩ ↦ hnew ⟨?_, hne⟩
      omega
  · rw [if_neg hcand, if_neg fun hle ↦ absurd hle.1 (by decide)]
    exact iff_of_false Bool.false_ne_true fun hall ↦ hcand hall.1

/-- The variables after a hit. -/
theorem candidate_hit (s : Detector) (d : Char) : (s.hit d).1.candidate = some d := by
  rw [Detector.hit]
  split
  · rfl
  · rfl

theorem streak_hit (s : Detector) (d : Char) :
    (s.hit d).1.streak = s.streakWith d := by
  rw [Detector.hit]
  split
  · rfl
  · rfl

theorem gap_hit (s : Detector) (d : Char) : (s.hit d).1.gap = 0 := by
  rw [Detector.hit]
  split
  · rfl
  · rfl

theorem reported_hit (s : Detector) (d : Char) :
    (s.hit d).1.reported = if (s.hit d).2 then some d else s.reported := by
  rw [Detector.hit]
  split
  · rfl
  · rfl

/-- A digit that is found joins its streak, or begins one. -/
theorem Tracked.hit (h : u.Tracked) (d : Char) :
    Tracked ⟨(u.detector.hit d).1, .hit d (u.detector.hit d).2 :: u.heard,
      decide (u.detector.candidate = some d) && u.interrupted⟩ where
  streak_pos := by
    intro d' _
    change 0 < (u.detector.hit d).1.streak
    rw [streak_hit, Detector.streakWith, Detector.saturatingSucc]
    split
    · omega
    · exact Nat.one_pos
  reported := by
    intro hle
    change (u.detector.hit d).1.reported = (u.detector.hit d).1.candidate
    change 3 ≤ (u.detector.hit d).1.streak at hle
    rw [streak_hit] at hle
    rw [reported_hit, candidate_hit, Detector.hit]
    split
    · rfl
    · rename_i hnew
      by_contra hne
      exact hnew ⟨hle, hne⟩
  one := by
    intro d' hcand hstreak
    change (u.detector.hit d).1.candidate = some d' at hcand
    change (u.detector.hit d).1.streak = 1 at hstreak
    rw [candidate_hit, Option.some_inj] at hcand
    subst hcand
    refine iff_of_true ?_ ⟨_, _, rfl⟩
    rw [streak_hit, Detector.streakWith, Detector.saturatingSucc] at hstreak
    split at hstreak
    · rename_i hcand
      have hpos := h.streak_pos d hcand
      omega
    · rename_i hcand
      exact Bool.and_eq_false_iff.mpr (.inl (decide_eq_false hcand))
  two := by
    intro d' hcand hstreak
    change (u.detector.hit d).1.candidate = some d' at hcand
    change (u.detector.hit d).1.streak = 2 at hstreak
    rw [candidate_hit, Option.some_inj] at hcand
    subst hcand
    rw [streak_hit, Detector.streakWith, Detector.saturatingSucc] at hstreak
    split at hstreak
    · rename_i hcand
      change (decide (u.detector.candidate = some d) && u.interrupted) = false ↔ _
      rw [decide_eq_true hcand, Bool.true_and, h.one d hcand (by omega)]
      constructor
      · rintro ⟨b, rest, heq⟩
        exact ⟨_, b, rest, congrArg (List.cons _) heq⟩
      · rintro ⟨_, b, rest, heq⟩
        exact ⟨b, rest, (List.cons.inj heq).2⟩
    · cases hstreak
  gap := by
    intro hpos
    change 0 < (u.detector.hit d).1.gap at hpos
    rw [gap_hit] at hpos
    exact absurd hpos (Nat.lt_irrefl 0)
  apart := by
    intro d'
    change (u.detector.hit d).1.reported = some d' ∨ _
    rw [reported_hit]
    cases hnew : (u.detector.hit d).2 with
    | false =>
        refine (h.apart d').imp id fun hapart ↦ hapart.keep fun heq ↦ ?_
        exact Bool.false_ne_true (Heard.hit.inj heq).2
    | true =>
        by_cases heq : d = d'
        · exact .inl (congrArg some heq)
        · exact .inr (apart_report u.heard heq)

theorem Tracked.step (h : u.Tracked) : (u.step listening f).Tracked := by
  have htick : Tracked ⟨u.detector.tick f.pending, u.heard, u.interrupted⟩ :=
    ⟨h.streak_pos, h.reported, h.one, h.two, h.gap, h.apart⟩
  rw [Listening.step, Detector.frame]
  dsimp only
  split
  · cases f.digit with
    | none => exact htick.miss
    | some d => exact htick.hit d
  · exact h.skip _

/-- A frame adds a report of a digit that was not there for three frames, exactly if it completes a
streak that was interrupted. -/
theorem noPhantom_step_iff (h : u.Tracked) (hheard : NoPhantom u.heard) :
    NoPhantom (u.step listening f).heard ↔ Uninterrupted listening u f := by
  have htick : Tracked ⟨u.detector.tick f.pending, u.heard, u.interrupted⟩ :=
    ⟨h.streak_pos, h.reported, h.one, h.two, h.gap, h.apart⟩
  change NoPhantom ((u.detector.frame listening f).2 :: u.heard) ↔ _
  rw [noPhantom_cons, and_iff_left hheard, Detector.frame]
  split
  · rename_i hasked
    cases hdigit : f.digit with
    | none =>
        refine iff_of_true (fun d heq ↦ Heard.noConfusion heq) fun d hd ↦ ?_
        rw [hdigit] at hd
        cases hd
    | some d =>
        constructor
        · intro hnew d' hd' hlistening hguard hcand hstreak hne
          rw [hdigit, Option.some_inj] at hd'
          subst hd'
          have hhit := (htick.hit_eq_true_iff d).mpr ⟨hcand, hstreak, hne⟩
          have hpresent := (hnew d (congrArg (Heard.hit d) hhit)).1
          exact (h.two d hcand (Nat.succ.inj hstreak)).mpr hpresent
        · rintro hok d' heq
          obtain ⟨rfl, hhit⟩ := Heard.hit.inj heq
          obtain ⟨hcand, hstreak, hne⟩ := (htick.hit_eq_true_iff d).mp hhit
          have hwhole := hok d hdigit hasked.1 hasked.2 hcand hstreak hne
          refine ⟨(h.two d hcand (Nat.succ.inj hstreak)).mp hwhole, ?_⟩
          exact (h.apart d).resolve_left hne
  · rename_i hasked
    refine iff_of_true (fun d heq ↦ Heard.noConfusion heq) fun d _ hlistening hguard _ _ _ ↦ ?_
    exact absurd ⟨hlistening, hguard⟩ hasked

/-! ## Runs -/

theorem heard_suffix_run (u : Listening) (listening : Bool) (fs : List Frame) :
    u.heard <:+ (Run.run (step listening) u fs).heard := by
  induction fs generalizing u with
  | nil => exact List.suffix_rfl
  | cons f fs ih => exact (List.suffix_cons _ _).trans (ih (u.step listening f))

/-- Whatever the frames are, the reports are sound exactly if no streak is completed that a missed or
a skipped frame has interrupted. -/
theorem noPhantom_iff (listening : Bool) (fs : List Frame) :
    NoPhantom (Run.run (step listening) start fs).heard ↔
      Run.Guarded (step listening) (Uninterrupted listening) start fs := by
  have htracked : ∀ fs, (Run.run (step listening) start fs).Tracked := fun fs ↦
    Run.invariant (fun u f h ↦ Tracked.step h) fs tracked_start
  have hstart : start.Tracked ∧ NoPhantom start.heard := by
    refine ⟨tracked_start, fun d before hsuffix ↦ ?_⟩
    exact absurd (List.suffix_nil.mp hsuffix) (List.cons_ne_nil _ _)
  have hstep : ∀ u f, u.Tracked ∧ NoPhantom u.heard →
      (Uninterrupted listening u f ↔ (step listening u f).Tracked ∧ NoPhantom (step listening u f).heard) := by
    rintro u f ⟨h, hheard⟩
    rw [and_iff_right h.step, noPhantom_step_iff h hheard]
  rw [Run.guarded_iff hstep hstart]
  constructor
  · rintro h pre ⟨rest, rfl⟩
    rw [Run.run_append] at h
    exact ⟨htracked pre, h.suffix (heard_suffix_run _ listening rest)⟩
  · exact fun h ↦ (h fs List.prefix_rfl).2

/-- Two frames, one without the digit, and a third are reported. -/
theorem not_noPhantom_of_missed :
    ¬ NoPhantom (Run.run (step true) start
      [⟨false, some '5'⟩, ⟨false, some '5'⟩, ⟨false, none⟩, ⟨false, some '5'⟩]).heard := by
  intro h
  obtain ⟨b, b', rest, heq⟩ := (h '5' [.missed, .hit '5' false, .hit '5' false] List.suffix_rfl).1
  cases heq

end Listening

end Modem2Sip.Media
