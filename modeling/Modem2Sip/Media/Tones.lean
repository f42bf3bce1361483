import Mathlib.Data.List.Chain
import Modem2Sip.Lib.Run
import Modem2Sip.Gateway.Dtmf

/-!
# Tones in the uplink

`AudioRings` as far as the card hears it: the queue of tones, the ring of decoded RTP behind it, and
`send_dtmf_inband`, which queues a tone and a gap for each digit.  The gateway and the card are two
threads, so that the queue may be emptied between any two locks that the sender takes.
-/

namespace Modem2Sip.Media

open Text Gateway Gateway.Dtmf

/-- A sample of 16 bits. -/
abbrev Sample := Int16

/-- `AudioRings`, without the side of the network. -/
structure Rings where
  tone : List Sample
  toModem : List Sample
  target : Nat
  highWater : Nat
  underruns : Nat
  overruns : Nat
  tone_le : tone.length ≤ maxToneSamples

namespace Rings

/-- `queue_tone`: all of the samples, or none. -/
def queueTone (r : Rings) (samples : List Sample) : Option Rings :=
  if h : r.tone.length + samples.length ≤ maxToneSamples then
    some { r with
      tone := r.tone ++ samples
      tone_le := by rwa [List.length_append] }
  else none

/-- `push_from_network`: a backlog above the mark is cut down to the target. -/
def pushFromNetwork (r : Rings) (samples : List Sample) : Rings :=
  let ring := r.toModem ++ samples
  if r.highWater < ring.length then
    { r with toModem := ring.drop (ring.length - r.target), overruns := (r.overruns + 1) % 2 ^ 32 }
  else { r with toModem := ring }

/-- The first `n` samples of a ring, with silence for what is not there. -/
def takePadded (n : Nat) (ring : List Sample) : List Sample := ring.take n ++ List.replicate (n - ring.length) 0

/-- `take_for_card`: a tone takes the place of the audio from the network. -/
def takeForCard (r : Rings) (n : Nat) : List Sample × Rings :=
  if r.tone ≠ [] then
    (takePadded n r.tone,
      { r with
        tone := r.tone.drop n
        toModem := r.toModem.drop n
        tone_le := (List.length_drop (l := r.tone) ▸ Nat.sub_le _ n).trans r.tone_le })
  else
    (takePadded n r.toModem,
      { r with
        toModem := r.toModem.drop n
        underruns := if r.toModem.length < n then (r.underruns + 1) % 2 ^ 32 else r.underruns })

/-! ### What each operation does -/

section Spec

variable (r : Rings) (samples : List Sample) (n : Nat)

theorem pushFromNetwork_below (h : r.toModem.length + samples.length ≤ r.highWater) :
    r.pushFromNetwork samples = { r with toModem := r.toModem ++ samples } := by
  rw [pushFromNetwork]
  exact if_neg (by rw [List.length_append]; exact Nat.not_lt.mpr h)

theorem toModem_pushFromNetwork_above (h : r.highWater < r.toModem.length + samples.length) :
    (r.pushFromNetwork samples).toModem =
      (r.toModem ++ samples).drop (r.toModem.length + samples.length - r.target) := by
  rw [pushFromNetwork, ← List.length_append]
  rw [← List.length_append] at h
  exact (apply_ite toModem _ _ _).trans (if_pos h)

@[simp] theorem target_pushFromNetwork : (r.pushFromNetwork samples).target = r.target := by
  rw [pushFromNetwork]
  exact (apply_ite target _ _ _).trans (ite_self _)

@[simp] theorem highWater_pushFromNetwork : (r.pushFromNetwork samples).highWater = r.highWater := by
  rw [pushFromNetwork]
  exact (apply_ite highWater _ _ _).trans (ite_self _)

@[simp] theorem tone_pushFromNetwork : (r.pushFromNetwork samples).tone = r.tone := by
  rw [pushFromNetwork]
  exact (apply_ite tone _ _ _).trans (ite_self _)

@[simp] theorem target_takeForCard : (r.takeForCard n).2.target = r.target := by
  rw [takeForCard]
  split
  · rfl
  · rfl

@[simp] theorem highWater_takeForCard : (r.takeForCard n).2.highWater = r.highWater := by
  rw [takeForCard]
  split
  · rfl
  · rfl

/-- The audio that the tone talks over is lost. -/
@[simp] theorem toModem_takeForCard : (r.takeForCard n).2.toModem = r.toModem.drop n := by
  rw [takeForCard]
  split
  · rfl
  · rfl

@[simp] theorem tone_takeForCard : (r.takeForCard n).2.tone = r.tone.drop n := by
  rw [takeForCard]
  split
  · rfl
  · rename_i hempty
    rw [not_not.mp hempty, List.drop_nil]

theorem length_takePadded (ring : List Sample) : (takePadded n ring).length = n := by
  rw [takePadded, List.length_append, List.length_take, List.length_replicate]
  omega

theorem length_takeForCard : (r.takeForCard n).1.length = n := by
  rw [takeForCard]
  split
  · exact length_takePadded n r.tone
  · exact length_takePadded n r.toModem

variable {r samples}

theorem exists_queueTone (h : r.tone.length + samples.length ≤ maxToneSamples) :
    ∃ r', r.queueTone samples = some r' := by
  rw [queueTone, dif_pos h]
  exact ⟨_, rfl⟩

theorem queueTone_eq_none (h : maxToneSamples < r.tone.length + samples.length) :
    r.queueTone samples = none := by
  rw [queueTone]
  exact dif_neg (Nat.not_le.mpr h)

theorem queueTone_eq_some {r' : Rings} (h : r.queueTone samples = some r') :
    r'.tone = r.tone ++ samples ∧ r'.toModem = r.toModem ∧ r'.target = r.target ∧
      r'.highWater = r.highWater := by
  rw [queueTone] at h
  split at h
  · cases h
    exact ⟨rfl, rfl, rfl, rfl⟩
  · cases h

end Spec

end Rings

/-- `dtmf_samples`.  The value of a sample is floating-point arithmetic on the two frequencies, the
length of the tone and the place in it. -/
def dtmfSamples (wave : Nat × Nat → Nat → Nat → Sample) (digit : Char) (ms : Nat) : Option (List Sample) :=
  (dtmfFrequencies digit).map fun f ↦ (List.range (samplesOf ms)).map (wave f (samplesOf ms))

theorem length_dtmfSamples {wave : Nat × Nat → Nat → Nat → Sample} {digit : Char} {ms : Nat}
    {samples : List Sample} (h : dtmfSamples wave digit ms = some samples) :
    samples.length = samplesOf ms := by
  obtain ⟨f, -, rfl⟩ := Option.map_eq_some_iff.mp h
  rw [List.length_map, List.length_range]

/-! ## The sender and the card -/

/-- Where `send_dtmf_inband` is: no call, before the tone of the next digit, or before its gap. -/
inductive Stage where
  | idle
  | tone (digits : List Char) (toneMs gapMs : Nat)
  | gap (digits : List Char) (toneMs gapMs : Nat)
deriving DecidableEq, Repr

/-- A tone that was accepted: where it begins in the uplink, its samples, and the gap that is due
after it. -/
structure Tone where
  start : Nat
  samples : List Sample
  gap : Nat
deriving DecidableEq, Repr

def Tone.stop (t : Tone) : Nat := t.start + t.samples.length

/-- The rings, and where the sender is; `emitted` is what the card has taken, `tones` are the tones
that were accepted, and `gapLost` says that the gap of the last of them was not. -/
structure Uplink where
  rings : Rings
  stage : Stage
  emitted : List Sample
  tones : List Tone
  gapLost : Bool

inductive UplinkEvent where
  /-- `send_dtmf_inband` is called. -/
  | send (digits : List Char) (toneMs gapMs : Nat)
  /-- It takes the lock once more. -/
  | advance
  /-- `take_for_card`. -/
  | take (n : Nat)
  /-- `push_from_network`. -/
  | network (samples : List Sample)
deriving Repr

namespace Uplink

/-- Silence for a time. -/
def silence (ms : Nat) : List Sample := List.replicate (samplesOf ms) 0

variable (wave : Nat × Nat → Nat → Nat → Sample)

/-- One tone is queued, or the call is over. -/
def pushTone (u : Uplink) (samples : List Sample) (digits : List Char) (toneMs gapMs : Nat) : Uplink :=
  match u.rings.queueTone samples with
  | none => { u with stage := .idle }
  | some rings =>
    { u with
      rings := rings
      stage := .gap digits toneMs gapMs
      tones := u.tones ++ [⟨u.emitted.length + u.rings.tone.length, samples, samplesOf gapMs⟩] }

/-- The gap is queued if it fits; whether it does is not looked at. -/
def pushGap (u : Uplink) (digits : List Char) (toneMs gapMs : Nat) : Uplink :=
  match u.rings.queueTone (silence gapMs) with
  | none => { u with stage := .tone digits toneMs gapMs, gapLost := true }
  | some rings => { u with rings := rings, stage := .tone digits toneMs gapMs, gapLost := false }

/-- One iteration of the loop of `send_dtmf_inband`, up to the next lock or behind it. -/
def advance (u : Uplink) : Uplink :=
  match u.stage with
  | .idle | .tone [] .. => { u with stage := .idle }
  | .tone (digit :: digits) toneMs gapMs =>
    match dtmfSamples wave digit toneMs with
    | none => { u with stage := .tone digits toneMs gapMs }
    | some samples => u.pushTone samples digits toneMs gapMs
  | .gap digits toneMs gapMs => u.pushGap digits toneMs gapMs

/-- One critical section.  There is one sender, so a call waits for the one before. -/
def step (u : Uplink) : UplinkEvent → Uplink
  | .send digits toneMs gapMs =>
    if u.stage = .idle then { u with stage := .tone (digits.filter fun c ↦ !isWhitespace c) toneMs gapMs }
    else u
  | .advance => u.advance wave
  | .take n =>
    let (out, rings) := u.rings.takeForCard n
    { u with rings := rings, emitted := u.emitted ++ out }
  | .network samples => { u with rings := u.rings.pushFromNetwork samples }

/-- Before the first call. -/
def start (r : Rings) : Uplink := ⟨r, .idle, [], [], false⟩

/-- The samples of the uplink: those that the card has taken, and the tones that wait. -/
def stream (u : Uplink) : List Sample := u.emitted ++ u.rings.tone

/-! ## Without the card in between -/

/-- The queue of tones, as the gateway counts it. -/
def toneQueue (u : Uplink) : ToneQueue := ⟨u.rings.tone.length, u.rings.tone_le⟩

section Alone

variable {toneMs : Nat} {samples : List Sample}

/-- The gap takes its room if there is any, as in the count. -/
theorem toneQueue_pushGap (u : Uplink) (digits : List Char) (toneMs gapMs : Nat) :
    (u.pushGap digits toneMs gapMs).toneQueue =
        (u.toneQueue.queueTone (samplesOf gapMs)).getD u.toneQueue ∧
      (u.pushGap digits toneMs gapMs).stage = .tone digits toneMs gapMs ∧
      (u.pushGap digits toneMs gapMs).tones = u.tones := by
  have hsilence : (silence gapMs).length = samplesOf gapMs := List.length_replicate
  rw [pushGap]
  rcases Nat.lt_or_ge maxToneSamples (u.rings.tone.length + samplesOf gapMs) with hfull | hfit
  · have hroom : u.toneQueue.queueTone (samplesOf gapMs) = none := dif_neg (Nat.not_le.mpr hfull)
    rw [Rings.queueTone_eq_none (hsilence.symm ▸ hfull), hroom]
    exact ⟨rfl, rfl, rfl⟩
  · obtain ⟨rings, hrings⟩ := Rings.exists_queueTone (r := u.rings) (hsilence.symm ▸ hfit)
    have hlength : rings.tone.length = u.rings.tone.length + samplesOf gapMs := by
      rw [(Rings.queueTone_eq_some hrings).1, List.length_append, hsilence]
    have hroom : u.toneQueue.queueTone (samplesOf gapMs) = some ⟨_, hfit⟩ := dif_pos hfit
    rw [hrings, hroom]
    exact ⟨ToneQueue.ext hlength, rfl, rfl⟩

/-- A tone takes its room, or ends the call, as in the count. -/
theorem toneQueue_pushTone (u : Uplink) (digits : List Char) (gapMs : Nat) (hsamples : samples.length = samplesOf toneMs) :
    (u.toneQueue.queueTone (samplesOf toneMs) = none ∧
      u.pushTone samples digits toneMs gapMs = { u with stage := .idle }) ∨
    ∃ q, u.toneQueue.queueTone (samplesOf toneMs) = some q ∧
      (u.pushTone samples digits toneMs gapMs).toneQueue = q ∧
      (u.pushTone samples digits toneMs gapMs).stage = .gap digits toneMs gapMs ∧
      (u.pushTone samples digits toneMs gapMs).tones.map Tone.samples =
        u.tones.map Tone.samples ++ [samples] := by
  rw [pushTone]
  rcases Nat.lt_or_ge maxToneSamples (u.rings.tone.length + samplesOf toneMs) with hfull | hfit
  · rw [Rings.queueTone_eq_none (hsamples.symm ▸ hfull)]
    exact .inl ⟨dif_neg (Nat.not_le.mpr hfull), rfl⟩
  · obtain ⟨rings, hrings⟩ := Rings.exists_queueTone (r := u.rings) (hsamples.symm ▸ hfit)
    have hlength : rings.tone.length = u.rings.tone.length + samplesOf toneMs := by
      rw [(Rings.queueTone_eq_some hrings).1, List.length_append, hsamples]
    rw [hrings]
    exact .inr ⟨_, dif_pos hfit, ToneQueue.ext hlength, rfl, List.map_append⟩

end Alone

/-- From `u` to `u'` the sender comes to its end, with the room and the tones that were counted. -/
structure Played (toneMs : Nat) (u u' : Uplink) (counted : ToneQueue × List Placed) : Prop where
  idle : u'.stage = .idle
  room : u'.toneQueue = counted.1
  tones : ∃ played, u'.tones.map Tone.samples = u.tones.map Tone.samples ++ played ∧
    played.map some = counted.2.map fun d ↦ dtmfSamples wave d.1 toneMs

/-- The loop of `send_dtmf_inband` in one piece: while the card takes nothing, the sender does what
`playFrom` counts. -/
theorem played_playFrom (toneMs gapMs : Nat) (ds : List Placed) {u : Uplink}
    (hstage : u.stage = .tone (ds.map Prod.fst) toneMs gapMs) :
    ∃ n, Played wave toneMs u (Run.run (step wave) u (List.replicate n .advance))
      (u.toneQueue.playFrom (samplesOf toneMs) (samplesOf gapMs) ds) := by
  induction ds generalizing u with
  | nil =>
    refine ⟨1, ?_⟩
    rw [List.replicate_one, Run.run_cons, Run.run_nil, step, advance, hstage]
    exact ⟨rfl, rfl, [], (List.append_nil _).symm, rfl⟩
  | cons d ds ih =>
    rw [List.map_cons] at hstage
    have hfirst : u.step wave .advance = match dtmfSamples wave d.1 toneMs with
        | none => { u with stage := .tone (ds.map Prod.fst) toneMs gapMs }
        | some samples => u.pushTone samples (ds.map Prod.fst) toneMs gapMs := by
      rw [step, advance, hstage]
    rw [ToneQueue.playFrom]
    cases hfreq : dtmfFrequencies d.1 with
    | none =>
      -- A character without a tone is passed over.
      have hnone : dtmfSamples wave d.1 toneMs = none := by rw [dtmfSamples, hfreq, Option.map_none]
      rw [hnone] at hfirst
      obtain ⟨n, hidle, hroom, htones⟩ := ih (congrArg stage hfirst)
      rw [hfirst] at hidle hroom htones
      refine ⟨n + 1, ?_⟩
      rw [List.replicate_succ, Run.run_cons, hfirst]
      exact ⟨hidle, hroom, htones⟩
    | some f =>
      obtain ⟨samples, hsome⟩ : ∃ samples, dtmfSamples wave d.1 toneMs = some samples := by
        rw [dtmfSamples, hfreq]
        exact ⟨_, rfl⟩
      rw [hsome] at hfirst
      replace hfirst : u.step wave .advance = u.pushTone samples (ds.map Prod.fst) toneMs gapMs := hfirst
      rcases toneQueue_pushTone u (ds.map Prod.fst) gapMs (length_dtmfSamples hsome) with
        ⟨hfull, hend⟩ | ⟨q, hq, hqueue, hgap, htones⟩
      · refine ⟨1, ?_⟩
        rw [List.replicate_one, Run.run_cons, Run.run_nil, hfirst, hend, hfull]
        exact ⟨rfl, rfl, [], (List.append_nil _).symm, rfl⟩
      · have hsecond : (u.step wave .advance).step wave .advance =
            (u.pushTone samples (ds.map Prod.fst) toneMs gapMs).pushGap (ds.map Prod.fst) toneMs gapMs := by
          rw [hfirst, step, advance, hgap]
        obtain ⟨hleft, hnext, hkept⟩ := toneQueue_pushGap
          (u.pushTone samples (ds.map Prod.fst) toneMs gapMs) (ds.map Prod.fst) toneMs gapMs
        obtain ⟨n, hidle, hroom, played, hplayed, hsamples⟩ := ih (hsecond ▸ hnext)
        rw [hsecond] at hidle hroom hplayed hsamples
        rw [hleft, hqueue] at hroom hsamples
        refine ⟨n + 2, ?_⟩
        rw [List.replicate_succ, List.replicate_succ, Run.run_cons, Run.run_cons, hsecond, hq]
        refine ⟨hidle, hroom, samples :: played, ?_, ?_⟩
        · rw [hplayed, hkept, htones, List.append_assoc, List.singleton_append]
        · rw [List.map_cons, hsamples, ← hsome]
          rfl

/-- `send_dtmf_inband` as the gateway has it is the sender while the card takes nothing. -/
theorem played_sendDtmfInband (cfg : Config) (digits : List Placed) {u : Uplink} (hidle : u.stage = .idle) :
    ∃ n, Played wave cfg.dtmfToneMs u
      (Run.run (step wave) u
        (.send (digits.map Prod.fst) cfg.dtmfToneMs cfg.dtmfGapMs :: List.replicate n .advance))
      (sendDtmfInband cfg u.toneQueue digits) := by
  have hsend : u.step wave (.send (digits.map Prod.fst) cfg.dtmfToneMs cfg.dtmfGapMs) =
      { u with stage := .tone ((digits.filter fun d ↦ !isWhitespace d.1).map Prod.fst)
                 cfg.dtmfToneMs cfg.dtmfGapMs } := by
    rw [step, if_pos hidle, List.filter_map]
    rfl
  obtain ⟨n, hidle, hroom, htones⟩ := played_playFrom wave cfg.dtmfToneMs cfg.dtmfGapMs
    (digits.filter fun d ↦ !isWhitespace d.1) (congrArg stage hsend)
  rw [hsend] at hidle hroom htones
  refine ⟨n, ?_⟩
  rw [Run.run_cons, hsend]
  exact ⟨hidle, hroom, htones⟩

/-! ## The uplink only grows -/

/-- What is taken is what was first in the queue, and silence behind it. -/
theorem takePadded_append_drop (n : Nat) (ring : List Sample) :
    Rings.takePadded n ring ++ ring.drop n = ring ++ List.replicate (n - ring.length) 0 := by
  rw [Rings.takePadded]
  rcases Nat.le_total n ring.length with h | h
  · rw [Nat.sub_eq_zero_of_le h, List.replicate_zero, List.append_nil, List.append_nil, List.take_append_drop]
  · rw [List.drop_of_length_le h, List.take_of_length_le h, List.append_nil]

/-- The card takes what was queued first, and hears other samples only behind all of it. -/
theorem takeForCard_append_tone (r : Rings) (n : Nat) :
    ∃ more, (r.takeForCard n).1 ++ (r.takeForCard n).2.tone = r.tone ++ more := by
  rw [Rings.takeForCard]
  split
  · exact ⟨_, takePadded_append_drop n r.tone⟩
  · rename_i hempty
    refine ⟨Rings.takePadded n r.toModem, ?_⟩
    dsimp only
    rw [not_not.mp hempty, List.append_nil, List.nil_append]

/-- What is done to the rings only adds to the uplink. -/
theorem stream_step (u : Uplink) (e : UplinkEvent) : u.stream <+: (u.step wave e).stream := by
  cases e with
  | send digits toneMs gapMs =>
      rw [step]
      split
      · exact List.prefix_rfl
      · exact List.prefix_rfl
  | network samples =>
      rw [step, stream, stream, Rings.tone_pushFromNetwork]
  | take n =>
      obtain ⟨more, hmore⟩ := takeForCard_append_tone u.rings n
      refine ⟨more, ?_⟩
      change u.emitted ++ u.rings.tone ++ more =
        u.emitted ++ (u.rings.takeForCard n).1 ++ (u.rings.takeForCard n).2.tone
      rw [List.append_assoc, List.append_assoc, hmore]
  | advance =>
      have hqueue : ∀ samples r', u.rings.queueTone samples = some r' →
          u.stream <+: u.emitted ++ r'.tone := by
        intro samples r' h
        rw [(Rings.queueTone_eq_some h).1, ← List.append_assoc]
        exact List.prefix_append _ _
      rw [step, advance]
      split
      · exact List.prefix_rfl
      · exact List.prefix_rfl
      · split
        · exact List.prefix_rfl
        · rw [pushTone]
          split
          · exact List.prefix_rfl
          · exact hqueue _ _ ‹_›
      · rw [pushGap]
        split
        · exact List.prefix_rfl
        · exact hqueue _ _ ‹_›

/-! ## Tones and gaps -/

/-- How many samples are silent from one place to another. -/
def silentBetween (samples : List Sample) (a b : Nat) : Nat := ((samples.take b).drop a).count 0

/-- Every accepted tone is in the uplink as a whole, and between two of them there is the gap that is
due. -/
structure Separated (u : Uplink) : Prop where
  whole : ∀ t ∈ u.tones, (u.stream.drop t.start).take t.samples.length = t.samples
  spaced : u.tones.IsChain fun t t' ↦ t.gap ≤ silentBetween u.stream t.stop t'.start

/-- The tone of the next digit does not fit, or the gap before it is not missing. -/
def GapKept (u : Uplink) : UplinkEvent → Prop
  | .advance =>
    match u.stage with
    | .tone (digit :: _) toneMs _ =>
      isDtmf digit = true → u.rings.tone.length + samplesOf toneMs ≤ maxToneSamples → u.gapLost = false
    | _ => True
  | _ => True

/-- The last tone has its gap behind it, or is about to get it, or its gap was lost. -/
def Due (u : Uplink) (t : Tone) : Prop :=
  match u.stage with
  | .gap _ _ gapMs => t.gap = samplesOf gapMs
  | _ => u.gapLost = false → t.gap ≤ silentBetween u.stream t.stop u.stream.length

/-- What every step keeps. -/
structure Kept (u : Uplink) : Prop where
  stop_le : ∀ t ∈ u.tones, t.stop ≤ u.stream.length
  separated : u.Separated
  due : ∀ t ∈ u.tones.getLast?, u.Due t

/-! ### What is there already stays -/

theorem take_drop_of_initial {s s' : List Sample} (h : s <+: s') {a n : Nat} (hle : a + n ≤ s.length) :
    (s'.drop a).take n = (s.drop a).take n := by
  obtain ⟨more, rfl⟩ := h
  rw [List.drop_append_of_le_length (by omega), List.take_append_of_le_length]
  rw [List.length_drop]
  omega

theorem silentBetween_of_initial {s s' : List Sample} (h : s <+: s') (a : Nat) {b : Nat} (hle : b ≤ s.length) :
    silentBetween s' a b = silentBetween s a b := by
  obtain ⟨more, rfl⟩ := h
  rw [silentBetween, silentBetween, List.take_append_of_le_length hle]

theorem silentBetween_mono {s s' : List Sample} (h : s <+: s') {a : Nat} (hle : a ≤ s.length) :
    silentBetween s a s.length ≤ silentBetween s' a s'.length := by
  obtain ⟨more, rfl⟩ := h
  rw [silentBetween, silentBetween, List.take_length, List.take_length,
    List.drop_append_of_le_length hle, List.count_append]
  exact Nat.le_add_right _ _

variable {wave} {u u' : Uplink}

/-- Tones that are there stay as they are while the uplink grows. -/
theorem Kept.grow (h : u.Kept) (htones : u'.tones = u.tones) (hstream : u.stream <+: u'.stream)
    (hdue : ∀ t ∈ u.tones.getLast?, u.Due t → u'.Due t) : u'.Kept where
  stop_le := by
    rw [htones]
    exact fun t ht ↦ (h.stop_le t ht).trans hstream.length_le
  separated := by
    refine ⟨?_, ?_⟩
    · rw [htones]
      intro t ht
      rw [take_drop_of_initial hstream (h.stop_le t ht)]
      exact h.separated.whole t ht
    · rw [htones]
      refine List.IsChain.imp_of_mem_imp (fun t t' _ ht' hgap ↦ ?_) h.separated.spaced
      have hle : t'.start ≤ u.stream.length := (Nat.le_add_right _ _).trans (h.stop_le t' ht')
      rwa [silentBetween_of_initial hstream t.stop hle]
  due := by
    rw [htones]
    exact fun t ht ↦ hdue t ht (h.due t ht)

/-! ### One step -/

/-- Away from its gap, what is due of the last tone stays while the uplink grows. -/
theorem Kept.grow_of_stage (h : u.Kept) (htones : u'.tones = u.tones) (hstream : u.stream <+: u'.stream)
    (hlost : u'.gapLost = u.gapLost) (hstage : ∀ ds n m, u.stage ≠ .gap ds n m)
    (hstage' : ∀ ds n m, u'.stage ≠ .gap ds n m) : u'.Kept := by
  refine h.grow htones hstream fun t ht hdue ↦ ?_
  have hfree : ∀ v : Uplink, (∀ ds n m, v.stage ≠ .gap ds n m) →
      (v.Due t ↔ (v.gapLost = false → t.gap ≤ silentBetween v.stream t.stop v.stream.length)) := by
    intro v hv
    rw [Due]
    split
    · exact absurd ‹_› (hv _ _ _)
    · exact Iff.rfl
  rw [hfree u' hstage', hlost]
  intro hkept
  have hle : t.stop ≤ u.stream.length := h.stop_le t (List.mem_of_getLast? ht)
  exact ((hfree u hstage).mp hdue hkept).trans (silentBetween_mono hstream hle)

/-- What changes neither the sender nor the tones keeps what is due. -/
theorem Kept.grow_of_rest (h : u.Kept) (htones : u'.tones = u.tones) (hstream : u.stream <+: u'.stream)
    (hlost : u'.gapLost = u.gapLost) (hstage : u'.stage = u.stage) : u'.Kept := by
  by_cases hgap : ∀ ds n m, u.stage ≠ .gap ds n m
  · exact h.grow_of_stage htones hstream hlost hgap (hstage ▸ hgap)
  · refine h.grow htones hstream fun t _ hdue ↦ ?_
    push Not at hgap
    obtain ⟨ds, n, m, hgap⟩ := hgap
    rw [Due, hgap] at hdue
    rwa [Due, hstage, hgap]

/-- A tone begins where the uplink ends, so that it is whole, and what was due before it is there. -/
theorem Kept.pushTone (h : u.Kept) {samples : List Sample} {digits : List Char} {toneMs gapMs : Nat}
    (hstage : ∀ ds n m, u.stage ≠ .gap ds n m)
    (hgap : u.rings.tone.length + samples.length ≤ maxToneSamples → u.gapLost = false) :
    (u.pushTone samples digits toneMs gapMs).Kept := by
  rw [Uplink.pushTone]
  cases hq : u.rings.queueTone samples with
  | none => exact h.grow_of_stage rfl List.prefix_rfl rfl hstage fun _ _ _ ↦ Stage.noConfusion
  | some rings =>
      have hkept : u.gapLost = false := by
        refine hgap (not_lt.mp fun hlt ↦ ?_)
        rw [Rings.queueTone, dif_neg (Nat.not_le.mpr hlt)] at hq
        cases hq
      set t : Tone := ⟨u.emitted.length + u.rings.tone.length, samples, samplesOf gapMs⟩ with ht
      have hstart : t.start = u.stream.length := List.length_append.symm
      have hstream : u.emitted ++ rings.tone = u.stream ++ samples := by
        rw [(Rings.queueTone_eq_some hq).1, stream, List.append_assoc]
      have hpre : u.stream <+: u.stream ++ samples := List.prefix_append _ _
      have hlast : ∀ t₀ ∈ u.tones.getLast?, t₀.gap ≤ silentBetween u.stream t₀.stop u.stream.length := by
        intro t₀ ht₀
        have hdue := h.due t₀ ht₀
        rw [Due] at hdue
        split at hdue
        · exact absurd ‹_› (hstage _ _ _)
        · exact hdue hkept
      refine ⟨?_, ⟨?_, ?_⟩, ?_⟩
      · intro t' ht'
        change t'.stop ≤ (u.emitted ++ rings.tone).length
        rw [hstream, List.length_append]
        rcases List.mem_append.mp ht' with ht' | ht'
        · exact Nat.le_add_right_of_le (h.stop_le t' ht')
        · rw [List.mem_singleton.mp ht', Tone.stop, hstart]
      · intro t' ht'
        change ((u.emitted ++ rings.tone).drop t'.start).take t'.samples.length = t'.samples
        rw [hstream]
        rcases List.mem_append.mp ht' with ht' | ht'
        · rw [take_drop_of_initial hpre (h.stop_le t' ht')]
          exact h.separated.whole t' ht'
        · rw [List.mem_singleton.mp ht', hstart, List.drop_left, List.take_length]
      · change (u.tones ++ [t]).IsChain fun t t' ↦
          t.gap ≤ silentBetween (u.emitted ++ rings.tone) t.stop t'.start
        rw [hstream, List.isChain_append]
        refine ⟨?_, List.isChain_singleton _, ?_⟩
        · refine List.IsChain.imp_of_mem_imp (fun t₁ t₂ _ ht₂ hspaced ↦ ?_) h.separated.spaced
          have hle : t₂.start ≤ u.stream.length := (Nat.le_add_right _ _).trans (h.stop_le t₂ ht₂)
          rwa [silentBetween_of_initial hpre t₁.stop hle]
        · rintro t₁ ht₁ t₂ ht₂
          rw [List.head?_singleton, Option.mem_some_iff] at ht₂
          rw [← ht₂, hstart, silentBetween_of_initial hpre t₁.stop le_rfl]
          exact hlast t₁ ht₁
      · intro t' ht'
        change t' ∈ (u.tones ++ [t]).getLast? at ht'
        rw [List.getLast?_concat, Option.mem_some_iff] at ht'
        rw [Due, ← ht']

/-- The gap stands behind the last tone, or it is marked as lost. -/
theorem Kept.pushGap (h : u.Kept) {digits : List Char} {toneMs gapMs : Nat}
    (hstage : u.stage = .gap digits toneMs gapMs) : (u.pushGap digits toneMs gapMs).Kept := by
  rw [Uplink.pushGap]
  cases hq : u.rings.queueTone (silence gapMs) with
  | none => exact h.grow rfl List.prefix_rfl fun t _ _ hlost ↦ absurd hlost (by simp)
  | some rings =>
      have hstream : u.emitted ++ rings.tone = u.stream ++ silence gapMs := by
        rw [(Rings.queueTone_eq_some hq).1, stream, List.append_assoc]
      refine h.grow rfl ⟨silence gapMs, hstream.symm⟩ fun t ht hdue _ ↦ ?_
      change t.gap ≤ silentBetween (u.emitted ++ rings.tone) t.stop (u.emitted ++ rings.tone).length
      have hle : t.stop ≤ u.stream.length := h.stop_le t (List.mem_of_getLast? ht)
      rw [Due, hstage] at hdue
      rw [hstream, silentBetween, List.take_length, List.drop_append_of_le_length hle, List.count_append,
        hdue, silence, List.count_replicate_self]
      exact Nat.le_add_left _ _

theorem Kept.step (h : u.Kept) {e : UplinkEvent} (hgap : u.GapKept e) : (u.step wave e).Kept := by
  have hgrow := stream_step wave u e
  cases e with
  | network samples => exact h.grow_of_rest rfl hgrow rfl rfl
  | take n => exact h.grow_of_rest rfl hgrow rfl rfl
  | send digits toneMs gapMs =>
      rw [Uplink.step] at hgrow ⊢
      split
      · rename_i hidle
        rw [if_pos hidle] at hgrow
        refine h.grow_of_stage rfl hgrow rfl ?_ fun _ _ _ ↦ Stage.noConfusion
        rw [hidle]
        exact fun _ _ _ ↦ Stage.noConfusion
      · exact h
  | advance =>
      rw [Uplink.step, advance]
      rw [GapKept] at hgap
      cases hstage : u.stage with
      | idle =>
          refine h.grow_of_stage rfl List.prefix_rfl rfl ?_ fun _ _ _ ↦ Stage.noConfusion
          rw [hstage]
          exact fun _ _ _ ↦ Stage.noConfusion
      | gap digits toneMs gapMs => exact h.pushGap hstage
      | tone digits toneMs gapMs =>
          have hfree : ∀ ds n m, u.stage ≠ .gap ds n m := by
            rw [hstage]
            exact fun _ _ _ ↦ Stage.noConfusion
          rw [hstage] at hgap
          cases digits with
          | nil => exact h.grow_of_stage rfl List.prefix_rfl rfl hfree fun _ _ _ ↦ Stage.noConfusion
          | cons digit digits =>
              dsimp only
              cases hwave : dtmfSamples wave digit toneMs with
              | none => exact h.grow_of_stage rfl List.prefix_rfl rfl hfree fun _ _ _ ↦ Stage.noConfusion
              | some samples =>
                  refine h.pushTone hfree fun hfit ↦ hgap ?_ ?_
                  · obtain ⟨f, hf, -⟩ := Option.map_eq_some_iff.mp hwave
                    rw [isDtmf, hf, Option.isSome_some]
                  · rwa [← length_dtmfSamples hwave]

theorem kept_start (r : Rings) : (start r).Kept where
  stop_le := fun _ ht ↦ absurd ht List.not_mem_nil
  separated := ⟨fun _ ht ↦ absurd ht List.not_mem_nil, List.isChain_nil⟩
  due := fun _ ht ↦ absurd ht (Option.not_mem_none _)

/-! ### Runs -/

/-- Whatever the order in which the sender and the card take the lock, the tones are whole and apart
as long as none is accepted for which the gap before it was refused. -/
theorem separated_of_gapKept (wave : Nat × Nat → Nat → Nat → Sample) (r : Rings)
    (es : List UplinkEvent) (hrun : Run.Guarded (step wave) GapKept (start r) es) :
    (Run.run (step wave) (start r) es).Separated :=
  (hrun.invariant (fun _ _ h hgap ↦ Kept.step h hgap) (kept_start r)).separated

theorem separated_of_gapKept_one :
    (Run.run (step fun _ _ _ ↦ 1) (start ⟨[], [], 480, 960, 0, 0, Nat.zero_le _⟩)
      [.send ['1', ' ', '2'] 1 1, .advance, .take 4, .advance, .advance, .advance]).Separated :=
  separated_of_gapKept (fun _ _ _ ↦ 1) ⟨[], [], 480, 960, 0, 0, Nat.zero_le _⟩ _
    (by refine ⟨trivial, ?_, trivial, trivial, ?_, trivial, trivial⟩ <;> exact fun _ _ ↦ rfl)

/-- Where the gap behind a tone is refused and the next tone still fits, nothing is between the two. -/
theorem not_separated_of_refused {digit : Char} {digits : List Char} {toneMs gapMs : Nat} {rings : Rings}
    (before : List Tone) (t : Tone) (samples : List Sample)
    (hstage : u.stage = .gap (digit :: digits) toneMs gapMs) (htones : u.tones = before ++ [t])
    (hstop : t.stop = u.stream.length) (hpos : 0 < t.gap)
    (hrefused : u.rings.queueTone (silence gapMs) = none)
    (hsamples : dtmfSamples wave digit toneMs = some samples) (hfit : u.rings.queueTone samples = some rings) :
    ¬ ((u.step wave .advance).step wave .advance).Separated := by
  intro h
  have hgap : u.step wave .advance = { u with stage := .tone (digit :: digits) toneMs gapMs, gapLost := true } := by
    rw [step, advance, hstage]
    dsimp only
    rw [Uplink.pushGap, hrefused]
  have hnext : ((u.step wave .advance).step wave .advance).tones =
      before ++ [t, ⟨u.stream.length, samples, samplesOf gapMs⟩] := by
    rw [hgap, step, advance]
    dsimp only
    rw [hsamples]
    dsimp only
    rw [Uplink.pushTone, hfit, htones, List.append_assoc, stream, List.length_append]
    rfl
  have hspaced := h.spaced
  rw [hnext, List.isChain_append_cons_cons, hstop, silentBetween,
    List.drop_eq_nil_of_le (List.length_take_le _ _), List.count_nil] at hspaced
  exact absurd hspaced.2.1 (Nat.not_le.mpr hpos)

/-- A gap that does not fit in the queue is left out, while the next tone, which is shorter, does fit. -/
theorem not_separated_of_lost_gap :
    ¬ (Run.run (step fun _ _ _ ↦ 1) (start ⟨[], [], 480, 960, 0, 0, Nat.zero_le _⟩)
      [.send ['1', '2'] 1 8001, .advance, .advance, .advance]).Separated := by
  rw [Run.run_cons, Run.run_cons, Run.run_cons, Run.run_cons, Run.run_nil]
  refine not_separated_of_refused [] ⟨0, List.replicate 8 1, 64008⟩ (List.replicate 8 1)
    (?_ : _ = Stage.gap ['2'] 1 8001) ?_ ?_ ?_ (dif_neg ?_) ?_ (dif_pos ?_)
  · decide
  · decide
  · decide
  · decide
  · rw [silence, List.length_replicate]
    decide
  · decide
  · decide

end Uplink

end Modem2Sip.Media
