import Mathlib.Data.Rat.Floor
import Mathlib.Tactic.Linarith
import Mathlib.Tactic.NormNum
import Modem2Sip.Lib.Transducer
import Modem2Sip.Media.Tones

/-!
# Resampling

`Resampler` of `audio/codec.rs`, between the rate of the card and that of the network.  The audio comes
in pieces, and the place between two samples and the last sample are carried from one piece to the next.

Places are rational numbers here.  The program has them in `f64`, which is the same when one of the rates
is the other one times a power of two.
-/

namespace Modem2Sip.Media

/-! ## The loop -/

/-- `f64::round`: halves go away from zero. -/
def roundAway (q : ℚ) : Int := if 0 ≤ q then ⌊q + 1 / 2⌋ else ⌈q - 1 / 2⌉

/-- The sample for a value, within the range of `i16`. -/
def toSample (q : ℚ) : Sample := Int16.ofInt (max (-2 ^ 15) (min (2 ^ 15 - 1) (roundAway q)))

/-- The neighbour on the left of a sample; that of the first one came before. -/
def leftOf (last : Sample) (input : List Sample) (idx : Nat) : Option Sample :=
  if idx = 0 then some last else input[idx - 1]?

/-- The sample at a place, between its neighbours.  An index out of range would be a panic. -/
def sampleAt (last : Sample) (input : List Sample) (pos : ℚ) : Option Sample := do
  let idx := ⌊pos⌋.toNat
  let a ← leftOf last input idx
  let b ← input[idx]?
  return toSample (a.toInt + (b.toInt - a.toInt) * (pos - idx))

/-- The loop of `process`, which is left with the samples and the place that it has come to.  It does not
come to an end when the fuel is used up. -/
def resampleLoop (step : ℚ) (last : Sample) (input : List Sample) : Nat → ℚ → Option (List Sample × ℚ)
  | fuel, pos =>
    if pos < input.length then
      match fuel with
      | 0 => none
      | fuel + 1 => do
        let sample ← sampleAt last input pos
        let (samples, pos) ← resampleLoop step last input fuel (pos + step)
        return (sample :: samples, pos)
    else some ([], pos)

structure Resampler where
  fromRate : Nat
  toRate : Nat
  last : Sample
  pos : ℚ

namespace Resampler

def new (fromRate toRate : Nat) : Resampler := ⟨fromRate, toRate, 0, 0⟩

/-- How far apart the samples are that are put out. -/
def step (r : Resampler) : ℚ := r.fromRate / r.toRate

/-- `process`, with as much fuel as there are places in the input. -/
def process (r : Resampler) (input : List Sample) : Option (List Sample × Resampler) :=
  if r.fromRate = r.toRate then some (input, r)
  else
    (resampleLoop r.step r.last input ⌈(input.length - r.pos) / r.step⌉.toNat r.pos).map
      fun (samples, pos) ↦
        (samples, { r with pos := pos - input.length, last := input.getLast?.getD r.last })

end Resampler

/-! ## What the loop puts out -/

section Loop

variable {step pos pos' : ℚ} {last : Sample} {input xs ys samples samples' : List Sample}

/-- The loop goes from one place to another, and puts out these samples. -/
inductive Steps (step : ℚ) (last : Sample) (input : List Sample) : ℚ → List Sample → ℚ → Prop where
  | stop {pos : ℚ} : input.length ≤ pos → Steps step last input pos [] pos
  | next {pos pos' : ℚ} {sample : Sample} {samples : List Sample} : pos < input.length →
      sampleAt last input pos = some sample → Steps step last input (pos + step) samples pos' →
      Steps step last input pos (sample :: samples) pos'

theorem Steps.loop {fuel : Nat} (h : Steps step last input pos samples pos') (hfuel : samples.length ≤ fuel) :
    resampleLoop step last input fuel pos = some (samples, pos') := by
  induction h generalizing fuel with
  | stop hend =>
    unfold resampleLoop
    exact if_neg (not_lt.mpr hend)
  | next hlt hsample _ ih =>
    obtain ⟨fuel, rfl⟩ := Nat.exists_eq_succ_of_ne_zero (Nat.ne_zero_of_lt hfuel)
    rw [resampleLoop, if_pos hlt]
    dsimp only
    rw [hsample, ih (Nat.le_of_succ_le_succ hfuel)]
    rfl

/-- There are no more samples than steps to the end of the input. -/
theorem Steps.length_le (h : Steps step last input pos samples pos') {n : Nat}
    (hn : input.length - pos ≤ n * step) : samples.length ≤ n := by
  induction h generalizing n with
  | stop => exact Nat.zero_le n
  | next hlt _ _ ih =>
    cases n with
    | zero =>
      rw [Nat.cast_zero, zero_mul] at hn
      linarith
    | succ n =>
      refine Nat.succ_le_succ (ih ?_)
      rw [Nat.cast_succ] at hn
      linarith

theorem Steps.le (h : Steps step last input pos samples pos') : input.length ≤ pos' := by
  induction h with
  | stop hend => exact hend
  | next _ _ _ ih => exact ih

/-- The index of a place inside the input is one of the input. -/
theorem floor_lt {n : Nat} (hpos : 0 ≤ pos) (hlt : pos < n) : ⌊pos⌋.toNat < n := by
  have hfloor : ⌊pos⌋ < n := Int.floor_lt.mpr (by exact_mod_cast hlt)
  have hnonneg : 0 ≤ ⌊pos⌋ := Int.floor_nonneg.mpr hpos
  omega

theorem exists_leftOf (last : Sample) {idx : Nat} (h : idx < input.length) :
    ∃ a, leftOf last input idx = some a := by
  rw [leftOf]
  split
  · exact ⟨last, rfl⟩
  · exact ⟨_, List.getElem?_eq_getElem (by omega)⟩

theorem exists_sampleAt (last : Sample) (hpos : 0 ≤ pos) (hlt : pos < input.length) :
    ∃ sample, sampleAt last input pos = some sample := by
  have hidx := floor_lt hpos hlt
  obtain ⟨a, ha⟩ := exists_leftOf last hidx
  rw [sampleAt, ha, List.getElem?_eq_getElem hidx]
  exact ⟨_, rfl⟩

/-- The loop comes to its end, and no index is out of range. -/
theorem exists_steps (last : Sample) (hstep : 0 < step) (hpos : 0 ≤ pos) :
    ∃ samples pos', Steps step last input pos samples pos' := by
  obtain ⟨n, hn⟩ : ∃ n : Nat, (input.length - pos) / step ≤ n := ⟨_, Nat.le_ceil _⟩
  rw [div_le_iff₀ hstep] at hn
  induction n generalizing pos with
  | zero =>
    rw [Nat.cast_zero, zero_mul] at hn
    exact ⟨[], pos, .stop (by linarith)⟩
  | succ n ih =>
    rcases lt_or_ge pos input.length with hlt | hend
    · obtain ⟨sample, hsample⟩ := exists_sampleAt last hpos hlt
      rw [Nat.cast_succ] at hn
      obtain ⟨samples, pos', hrest⟩ := ih (add_nonneg hpos hstep.le) (by linarith)
      exact ⟨_, _, .next hlt hsample hrest⟩
    · exact ⟨[], pos, .stop hend⟩

/-! ### Pieces -/

theorem leftOf_append_left (last : Sample) {idx : Nat} (h : idx < xs.length) :
    leftOf last (xs ++ ys) idx = leftOf last xs idx := by
  rw [leftOf, leftOf, List.getElem?_append_left (by omega)]

theorem leftOf_append_right (last : Sample) (idx : Nat) :
    leftOf last (xs ++ ys) (idx + xs.length) = leftOf (xs.getLast?.getD last) ys idx := by
  rw [leftOf, leftOf]
  cases idx with
  | zero =>
    rw [if_pos rfl, Nat.zero_add]
    cases xs using List.reverseRecOn with
    | nil => rfl
    | append_singleton xs x =>
      rw [if_neg (by simp), List.getLast?_concat, List.length_append, List.length_singleton,
        Nat.add_sub_cancel, List.append_assoc, List.getElem?_append_right (le_refl _), Nat.sub_self]
      rfl
  | succ idx =>
    rw [if_neg (by omega), if_neg (Nat.succ_ne_zero idx), List.getElem?_append_right (by omega)]
    congr 1
    omega

/-- In front of the end of a piece, nothing behind it is looked at. -/
theorem sampleAt_append_left (last : Sample) (hpos : 0 ≤ pos) (hlt : pos < xs.length) :
    sampleAt last (xs ++ ys) pos = sampleAt last xs pos := by
  have hidx := floor_lt hpos hlt
  rw [sampleAt, sampleAt, List.getElem?_append_left hidx, leftOf_append_left last hidx]

/-- Behind its end, only its last sample is. -/
theorem sampleAt_append_right (last : Sample) (hpos : 0 ≤ pos) :
    sampleAt last (xs ++ ys) (pos + xs.length) = sampleAt (xs.getLast?.getD last) ys pos := by
  have hidx : ⌊pos + xs.length⌋.toNat = ⌊pos⌋.toNat + xs.length := by
    have hnonneg : 0 ≤ ⌊pos⌋ := Int.floor_nonneg.mpr hpos
    rw [Int.floor_add_natCast]
    omega
  have hplace : pos + xs.length - (↑(⌊pos⌋.toNat + xs.length) : ℚ) = pos - ⌊pos⌋.toNat := by
    rw [Nat.cast_add]
    ring
  rw [sampleAt, sampleAt, hidx, hplace, leftOf_append_right,
    List.getElem?_append_right (Nat.le_add_left _ _), Nat.add_sub_cancel]

/-- The loop over what is behind a piece. -/
theorem Steps.append_right (hstep : 0 ≤ step) (hpos : 0 ≤ pos)
    (h : Steps step (xs.getLast?.getD last) ys pos samples pos') :
    Steps step last (xs ++ ys) (pos + xs.length) samples (pos' + xs.length) := by
  induction h with
  | stop hend =>
    refine .stop ?_
    rw [List.length_append, Nat.cast_add]
    linarith
  | next hlt hsample _ ih =>
    refine .next ?_ ?_ ?_
    · rw [List.length_append, Nat.cast_add]
      linarith
    · rw [sampleAt_append_right last hpos]
      exact hsample
    · rw [add_right_comm]
      exact ih (add_nonneg hpos hstep)

/-- The loop over a piece and the loop over the next one are the loop over both. -/
theorem Steps.append (hstep : 0 ≤ step) (hpos : 0 ≤ pos) {pos'' : ℚ}
    (h : Steps step last xs pos samples pos')
    (h' : Steps step (xs.getLast?.getD last) ys (pos' - xs.length) samples' pos'') :
    Steps step last (xs ++ ys) pos (samples ++ samples') (pos'' + xs.length) := by
  induction h with
  | stop hend =>
    have hrest := h'.append_right hstep (sub_nonneg.mpr hend)
    rwa [sub_add_cancel] at hrest
  | next hlt hsample _ ih =>
    refine .next ?_ ?_ (ih (add_nonneg hpos hstep) h')
    · rw [List.length_append, Nat.cast_add]
      exact lt_of_lt_of_le hlt (le_add_of_nonneg_right (Nat.cast_nonneg _))
    · rw [sampleAt_append_left last hpos hlt]
      exact hsample

end Loop

/-! ## Between two samples -/

theorem le_roundAway {m : Int} {q : ℚ} (h : m ≤ q) : m ≤ roundAway q := by
  rw [roundAway]
  split
  · exact Int.le_floor.mpr (by linarith)
  · have hlt : m - 1 < ⌈q - 1 / 2⌉ := Int.lt_ceil.mpr (by push_cast; linarith)
    omega

theorem roundAway_le {m : Int} {q : ℚ} (h : q ≤ m) : roundAway q ≤ m := by
  rw [roundAway]
  split
  · have hlt : ⌊q + 1 / 2⌋ < m + 1 := Int.floor_lt.mpr (by push_cast; linarith)
    omega
  · exact Int.ceil_le.mpr (by linarith)

theorem roundAway_intCast (m : Int) : roundAway m = m := le_antisymm (roundAway_le le_rfl) (le_roundAway le_rfl)

/-- What lies between two samples is in the range. -/
theorem toInt_toSample (a b : Sample) {f : ℚ} (hf : 0 ≤ f) (hf' : f ≤ 1) :
    (toSample (a.toInt + (b.toInt - a.toInt) * f)).toInt = roundAway (a.toInt + (b.toInt - a.toInt) * f) := by
  have hbetween : (a.toInt + (b.toInt - a.toInt) * f : ℚ) = a.toInt * (1 - f) + b.toInt * f := by ring
  have hrange (c : Sample) : ((-2 ^ 15 : Int) : ℚ) ≤ c.toInt ∧ (c.toInt : ℚ) ≤ (2 ^ 15 - 1 : Int) := by
    have hlow : (-2 ^ 15 : Int) ≤ c.toInt := Int16.le_toInt c
    have hhigh : c.toInt ≤ 2 ^ 15 - 1 := Int.le_sub_one_of_lt (Int16.toInt_lt c)
    exact ⟨by exact_mod_cast hlow, by exact_mod_cast hhigh⟩
  have hlow : -2 ^ 15 ≤ roundAway (a.toInt + (b.toInt - a.toInt) * f) := by
    refine le_roundAway ?_
    rw [hbetween]
    nlinarith [(hrange a).1, (hrange b).1]
  have hhigh : roundAway (a.toInt + (b.toInt - a.toInt) * f) ≤ 2 ^ 15 - 1 := by
    refine roundAway_le ?_
    rw [hbetween]
    nlinarith [(hrange a).2, (hrange b).2]
  rw [toSample, min_eq_right hhigh, max_eq_right hlow]
  exact Int16.toInt_ofInt_of_le hlow (by omega)

/-- The sample lies between two neighbouring samples, rounded to the nearest value. -/
def Interpolates (last : Sample) (input : List Sample) (sample : Sample) : Prop :=
  ∃ (i : Nat) (a b : Sample) (f : ℚ), leftOf last input i = some a ∧ input[i]? = some b ∧ 0 ≤ f ∧ f ≤ 1 ∧
    sample.toInt = roundAway (a.toInt + (b.toInt - a.toInt) * f)

/-- The sample lies at a place, between the neighbours of this place. -/
def InterpolatesAt (last : Sample) (input : List Sample) (pos : ℚ) (sample : Sample) : Prop :=
  ∃ a b : Sample, leftOf last input ⌊pos⌋.toNat = some a ∧ input[⌊pos⌋.toNat]? = some b ∧
    sample.toInt = roundAway (a.toInt + (b.toInt - a.toInt) * Int.fract pos)

theorem interpolatesAt_of_sampleAt {last sample : Sample} {input : List Sample} {pos : ℚ} (hpos : 0 ≤ pos)
    (h : sampleAt last input pos = some sample) : InterpolatesAt last input pos sample := by
  obtain ⟨a, ha, hrest⟩ := Option.bind_eq_some_iff.mp h
  obtain ⟨b, hb, hsample⟩ := Option.bind_eq_some_iff.mp hrest
  cases hsample
  have hfloor : (⌊pos⌋.toNat : ℚ) = ⌊pos⌋ := by
    exact_mod_cast congrArg (Int.cast : Int → ℚ) (Int.toNat_of_nonneg (Int.floor_nonneg.mpr hpos))
  have hplace : pos - ⌊pos⌋.toNat = Int.fract pos := by rw [hfloor, Int.fract]
  refine ⟨a, b, ha, hb, ?_⟩
  rw [hplace]
  exact toInt_toSample a b (Int.fract_nonneg pos) (Int.fract_lt_one pos).le

theorem InterpolatesAt.interpolates {last sample : Sample} {input : List Sample} {pos : ℚ}
    (h : InterpolatesAt last input pos sample) : Interpolates last input sample := by
  obtain ⟨a, b, ha, hb, hsample⟩ := h
  exact ⟨_, a, b, _, ha, hb, Int.fract_nonneg pos, (Int.fract_lt_one pos).le, hsample⟩

/-- The places are `step` apart, up to the end of the input, and there is one sample for each. -/
structure Follows (step : ℚ) (input samples : List Sample) : Prop where
  count : ∀ k : Nat, k < samples.length ↔ k * step < input.length
  value : ∀ (k : Nat) (sample : Sample), samples[k]? = some sample →
    InterpolatesAt 0 input (k * step) sample

theorem Steps.lt_length_iff {step pos pos' : ℚ} {last : Sample} {input samples : List Sample} (hstep : 0 ≤ step)
    (h : Steps step last input pos samples pos') (k : Nat) :
    k < samples.length ↔ pos + k * step < input.length := by
  induction h generalizing k with
  | stop hend =>
    refine iff_of_false (Nat.not_lt_zero k) (not_lt.mpr (hend.trans ?_))
    exact le_add_of_nonneg_right (mul_nonneg (Nat.cast_nonneg k) hstep)
  | next hlt _ _ ih =>
    cases k with
    | zero =>
      rw [Nat.cast_zero, zero_mul, add_zero]
      exact iff_of_true (Nat.zero_lt_succ _) hlt
    | succ k =>
      rw [List.length_cons, Nat.succ_lt_succ_iff, ih, Nat.cast_succ, add_one_mul, add_assoc, add_comm step]

theorem Steps.interpolatesAt {step pos pos' : ℚ} {last : Sample} {input samples : List Sample} (hstep : 0 ≤ step)
    (hpos : 0 ≤ pos) (h : Steps step last input pos samples pos') (k : Nat) {sample : Sample}
    (hk : samples[k]? = some sample) : InterpolatesAt last input (pos + k * step) sample := by
  induction h generalizing k with
  | stop => cases hk
  | next _ hsample _ ih =>
    cases k with
    | zero =>
      cases hk
      rw [Nat.cast_zero, zero_mul, add_zero]
      exact interpolatesAt_of_sampleAt hpos hsample
    | succ k =>
      have hrest := ih (add_nonneg hpos hstep) k hk
      rwa [Nat.cast_succ, add_one_mul, add_comm (k * step), ← add_assoc]

theorem Steps.follows {step pos' : ℚ} {input samples : List Sample} (hstep : 0 ≤ step)
    (h : Steps step 0 input 0 samples pos') : Follows step input samples where
  count k := by rw [h.lt_length_iff hstep, zero_add]
  value k sample hk := by
    have hplace := h.interpolatesAt hstep le_rfl k hk
    rwa [zero_add] at hplace

theorem Follows.interpolates {step : ℚ} {input samples : List Sample} (h : Follows step input samples) :
    ∀ sample ∈ samples, Interpolates 0 input sample := by
  intro sample hsample
  obtain ⟨k, hk⟩ := List.mem_iff_getElem?.mp hsample
  exact (h.value k sample hk).interpolates

/-- A sample of the input lies between its neighbours, too. -/
theorem interpolates_of_mem (last : Sample) {input : List Sample} {sample : Sample} (h : sample ∈ input) :
    Interpolates last input sample := by
  obtain ⟨i, hi, rfl⟩ := List.getElem_of_mem h
  obtain ⟨a, ha⟩ := exists_leftOf last hi
  refine ⟨i, a, input[i], 1, ha, List.getElem?_eq_getElem hi, zero_le_one, le_rfl, ?_⟩
  rw [mul_one, add_sub_cancel, roundAway_intCast]

/-! ## Pieces of the audio -/

namespace Resampler

variable {r : Resampler} {input xs ys samples samples' : List Sample}

/-- What is so of every resampler that is made and used. -/
structure Inv (r : Resampler) : Prop where
  fromRate_pos : 0 < r.fromRate
  toRate_pos : 0 < r.toRate
  pos_nonneg : 0 ≤ r.pos

theorem Inv.step_pos (h : r.Inv) : 0 < r.step :=
  div_pos (Nat.cast_pos.mpr h.fromRate_pos) (Nat.cast_pos.mpr h.toRate_pos)

theorem process_of_eq (h : r.fromRate = r.toRate) (input : List Sample) : r.process input = some (input, r) :=
  if_pos h

/-- The resampler behind a piece of the audio, when the loop has come to this place. -/
def behind (r : Resampler) (input : List Sample) (pos : ℚ) : Resampler :=
  { r with pos := pos - input.length, last := input.getLast?.getD r.last }

theorem behind_append (r : Resampler) (xs ys : List Sample) (pos pos' : ℚ) :
    r.behind (xs ++ ys) (pos' + xs.length) = (r.behind xs pos).behind ys pos' := by
  have hpos : pos' + xs.length - (xs ++ ys).length = pos' - ys.length := by
    rw [List.length_append, Nat.cast_add]
    ring
  rw [behind, hpos, List.getLast?_append, Option.getD_or]
  rfl

theorem process_of_steps (hI : r.Inv) (hne : r.fromRate ≠ r.toRate) {pos : ℚ}
    (h : Steps r.step r.last input r.pos samples pos) :
    r.process input = some (samples, r.behind input pos) := by
  have hfuel : samples.length ≤ ⌈(input.length - r.pos) / r.step⌉.toNat := by
    refine h.length_le ?_
    rw [← div_le_iff₀ hI.step_pos]
    exact (Int.le_ceil _).trans (by exact_mod_cast Int.self_le_toNat _)
  rw [process, if_neg hne, h.loop hfuel]
  rfl

theorem streaming_process : Transducer.Streaming process Inv where
  nil r hI := by
    by_cases hrate : r.fromRate = r.toRate
    · exact process_of_eq hrate []
    · have hstop : Steps r.step r.last [] r.pos [] r.pos := .stop (Nat.cast_zero.trans_le hI.pos_nonneg)
      refine (process_of_steps hI hrate hstop).trans ?_
      rw [behind, List.length_nil, Nat.cast_zero, sub_zero]
      rfl
  total r xs hI := by
    by_cases hrate : r.fromRate = r.toRate
    · exact ⟨xs, r, process_of_eq hrate xs, hI⟩
    · obtain ⟨samples, pos, hsteps⟩ := exists_steps r.last hI.step_pos hI.pos_nonneg
      refine ⟨samples, _, process_of_steps hI hrate hsteps, hI.fromRate_pos, hI.toRate_pos, ?_⟩
      exact sub_nonneg.mpr hsteps.le
  append r xs out r' ys out' r'' hI hfirst hsecond := by
    by_cases hrate : r.fromRate = r.toRate
    · rw [process_of_eq hrate] at hfirst
      cases hfirst
      rw [process_of_eq hrate] at hsecond
      cases hsecond
      exact process_of_eq hrate _
    · obtain ⟨samples, pos, hsteps⟩ := exists_steps r.last hI.step_pos hI.pos_nonneg
      rw [process_of_steps hI hrate hsteps] at hfirst
      cases hfirst
      have hI' : (r.behind xs pos).Inv := ⟨hI.fromRate_pos, hI.toRate_pos, sub_nonneg.mpr hsteps.le⟩
      obtain ⟨samples', pos', hsteps'⟩ :=
        exists_steps (r.behind xs pos).last hI'.step_pos hI'.pos_nonneg
      rw [process_of_steps hI' hrate hsteps'] at hsecond
      cases hsecond
      have hwhole := hsteps.append hI.step_pos.le hI.pos_nonneg hsteps'
      rw [process_of_steps hI hrate hwhole, behind_append]

/-- However the audio is cut into pieces, what is put out for them is what is put out for the whole: for
each place a value between two neighbouring samples, with silence in front of the first.  The places are
the multiples of the step that lie in the audio; with two equal rates the audio itself is put out. -/
theorem process_pieces {fromRate toRate : Nat} (hfrom : 0 < fromRate) (hto : 0 < toRate)
    (pieces : List (List Sample)) :
    ∃ samples r, Transducer.feed process (new fromRate toRate) pieces = some (samples, r) ∧
      (new fromRate toRate).process pieces.flatten = some (samples, r) ∧
      (∀ sample ∈ samples, Interpolates 0 pieces.flatten sample) ∧
      (fromRate = toRate → samples = pieces.flatten) ∧
      (fromRate ≠ toRate → Follows (fromRate / toRate) pieces.flatten samples) := by
  have hI : (new fromRate toRate).Inv := ⟨hfrom, hto, le_rfl⟩
  obtain ⟨samples, r, hwhole, -⟩ := streaming_process.total (new fromRate toRate) pieces.flatten hI
  refine ⟨samples, r, (streaming_process.feed_eq hI pieces).trans hwhole, hwhole, ?_⟩
  by_cases hrate : fromRate = toRate
  · rw [process_of_eq hrate] at hwhole
    cases hwhole
    exact ⟨fun sample hsample ↦ interpolates_of_mem 0 hsample, fun _ ↦ rfl, absurd hrate⟩
  · have htotal : ∃ samples pos, Steps (new fromRate toRate).step 0 pieces.flatten 0 samples pos :=
      exists_steps 0 hI.step_pos hI.pos_nonneg
    obtain ⟨samples', pos, hsteps⟩ := htotal
    rw [process_of_steps hI hrate hsteps] at hwhole
    cases hwhole
    have hfollows := hsteps.follows hI.step_pos.le
    exact ⟨hfollows.interpolates, fun h ↦ absurd h hrate, fun _ ↦ hfollows⟩

/-- Three samples in three pieces make six, one for each half of a place. -/
theorem process_pieces_doubled :
    ∃ samples r, Transducer.feed process (new 8000 16000) [[100, -7], [], [3]] = some (samples, r) ∧
      (new 8000 16000).process ([[100, -7], [], [3]] : List (List Sample)).flatten = some (samples, r) ∧
      (∀ sample ∈ samples, Interpolates 0 ([[100, -7], [], [3]] : List (List Sample)).flatten sample) ∧
      samples.length = 6 ∧
      ∀ (k : Nat) (sample : Sample), samples[k]? = some sample →
        InterpolatesAt 0 ([[100, -7], [], [3]] : List (List Sample)).flatten (k * (1 / 2)) sample := by
  have hfrom : 0 < 8000 := by decide
  have hto : 0 < 16000 := by decide
  obtain ⟨samples, r, hfeed, hwhole, hall, -, hfollows⟩ :=
    process_pieces hfrom hto [[100, -7], [], [3]]
  obtain ⟨hcount, hvalue⟩ := hfollows (by decide)
  have hstep : ((8000 : Nat) : ℚ) / (16000 : Nat) = 1 / 2 := by norm_num
  rw [hstep] at hcount hvalue
  have hlast : 5 < samples.length := (hcount 5).mpr (by norm_num)
  have hend : ¬ 6 < samples.length := fun h ↦ absurd ((hcount 6).mp h) (by norm_num)
  exact ⟨samples, r, hfeed, hwhole, hall, by omega, hvalue⟩

end Resampler

end Modem2Sip.Media
