import Modem2Sip.Lib.Fifo
import Modem2Sip.Media.Tones

/-!
# What the card is given

`AudioRings` as the card sees it: a queue of audio from the network, which is cut down to its newest
samples when it runs long, and a queue of tones, which goes first and refuses what does not fit.  All
operations may follow each other in any order.
-/

namespace Modem2Sip.Media

open Gateway.Dtmf

/-! ## The operations -/

/-- The samples of a time, as `usize` counts them. -/
def usizeOf (w ms : Nat) : Nat := rtpRate * ms % 2 ^ w / 1000

/-- `AudioRings::new`. -/
def Rings.new (w jitterMs periodMs : Nat) : Rings where
  tone := []
  toModem := []
  target := max (usizeOf w (max jitterMs periodMs)) (usizeOf w 20)
  highWater := max (usizeOf w (max jitterMs periodMs)) (usizeOf w 20) * 3 % 2 ^ w
  underruns := 0
  overruns := 0
  tone_le := Nat.zero_le _

inductive RingOp where
  /-- `push_from_network`. -/
  | push (samples : List Sample)
  /-- `queue_tone`. -/
  | queueTone (samples : List Sample)
  /-- `take_for_card`. -/
  | take (n : Nat)

/-- Samples that come one behind the other, and where they are from. -/
inductive Segment where
  | network (samples : List Sample)
  | tone (samples : List Sample)
  | silence (n : Nat)

namespace Segment

def samples : Segment → List Sample
  | network samples => samples
  | tone samples => samples
  | silence n => List.replicate n 0

/-- What is from the network. -/
def fromNetwork : Segment → List Sample
  | network samples => samples
  | tone _ | silence _ => []

def isTone : Segment → Option (List Sample)
  | tone samples => some samples
  | network _ | silence _ => none

end Segment

/-- The rings, and what was done with them: everything that was pushed, the tones that were accepted,
and everything that the card has taken.  The segments say where the samples for the card are from. -/
structure History where
  rings : Rings
  pushed : List Sample
  accepted : List (List Sample)
  taken : List Sample
  segments : List Segment

namespace History

/-- What is taken behind the tones that wait: audio from the network when there are none, and silence
where there is nothing. -/
def behindTones (r : Rings) (n : Nat) : List Segment :=
  if r.tone ≠ [] then [.silence (n - r.tone.length)]
  else [.network (r.toModem.take n), .silence (n - r.toModem.length)]

def step (h : History) : RingOp → History
  | .push samples =>
    { h with rings := h.rings.pushFromNetwork samples, pushed := h.pushed ++ samples }
  | .queueTone samples =>
    match h.rings.queueTone samples with
    | some rings =>
      { h with
        rings := rings
        accepted := h.accepted ++ [samples]
        segments := h.segments ++ [.tone samples] }
    | none => h
  | .take n =>
    { h with
      rings := (h.rings.takeForCard n).2
      taken := h.taken ++ (h.rings.takeForCard n).1
      segments := h.segments ++ behindTones h.rings n }

/-- After these operations on new rings. -/
def after (w jitterMs periodMs : Nat) (ops : List RingOp) : History :=
  Run.run step ⟨Rings.new w jitterMs periodMs, [], [], [], []⟩ ops

/-- Two bounded queues, of which the one with the tones goes first. -/
structure Refines (h : History) : Prop where
  /-- The backlog from the network is bounded. -/
  backlog_le : h.rings.toModem.length ≤ h.rings.highWater
  /-- A push that stays below the mark drops nothing. -/
  push_below : ∀ samples, h.rings.toModem.length + samples.length ≤ h.rings.highWater →
    (h.rings.pushFromNetwork samples).toModem = h.rings.toModem ++ samples
  /-- A push beyond it leaves the newest samples, as many as the target. -/
  push_above : ∀ samples, h.rings.highWater < h.rings.toModem.length + samples.length →
    (h.rings.pushFromNetwork samples).toModem <:+ h.rings.toModem ++ samples ∧
      (h.rings.pushFromNetwork samples).toModem.length = h.rings.target
  /-- The card hears what was pushed, in this order and nothing twice. -/
  network_sublist : (h.segments.flatMap Segment.fromNetwork).Sublist h.pushed
  /-- What it has heard, and then the tones that wait, is one segment after the other. -/
  stream_eq : h.taken ++ h.rings.tone = h.segments.flatMap Segment.samples
  /-- Each tone that was accepted is one of them. -/
  tones_eq : h.segments.filterMap Segment.isTone = h.accepted
  /-- The tones come out first. -/
  tone_drained : ∀ n, (h.rings.takeForCard n).2.tone = h.rings.tone.drop n
  /-- A tone that fits is accepted as a whole. -/
  fitting : ∀ samples, h.rings.tone.length + samples.length ≤ maxToneSamples →
    (h.step (.queueTone samples)).accepted = h.accepted ++ [samples] ∧
      (h.step (.queueTone samples)).rings.tone = h.rings.tone ++ samples
  /-- A tone that does not fit is refused, and leaves nothing behind. -/
  refused : ∀ samples, maxToneSamples < h.rings.tone.length + samples.length →
    h.rings.queueTone samples = none ∧ h.step (.queueTone samples) = h
  length_taken : ∀ n, (h.rings.takeForCard n).1.length = n

/-! ## Every run -/

/-- What every operation keeps. -/
structure Inv (h : History) : Prop where
  target_le : h.rings.target ≤ h.rings.highWater
  backlog_le : h.rings.toModem.length ≤ h.rings.highWater
  moves : Fifo.Moves [] h.pushed (h.segments.flatMap Segment.fromNetwork) h.rings.toModem
  stream_eq : h.taken ++ h.rings.tone = h.segments.flatMap Segment.samples
  tones_eq : h.segments.filterMap Segment.isTone = h.accepted

/-- The tone in the queue is taken first, and then the segments behind it. -/
theorem takeForCard_append_tone (r : Rings) (n : Nat) :
    (r.takeForCard n).1 ++ (r.takeForCard n).2.tone =
      r.tone ++ (behindTones r n).flatMap Segment.samples := by
  rw [Rings.takeForCard, behindTones]
  split
  · rw [List.flatMap_singleton]
    exact Uplink.takePadded_append_drop n r.tone
  · rename_i hempty
    dsimp only
    rw [not_not.mp hempty, List.append_nil, List.nil_append, List.flatMap_cons, List.flatMap_singleton]
    rfl

/-- What of it is from the network leaves the other queue. -/
theorem moves_behindTones (r : Rings) (n : Nat) :
    Fifo.Moves r.toModem [] ((behindTones r n).flatMap Segment.fromNetwork) (r.toModem.drop n) := by
  rw [behindTones]
  split
  · exact Fifo.Moves.discard _ n
  · rw [List.flatMap_cons, List.flatMap_singleton, Segment.fromNetwork, Segment.fromNetwork, List.append_nil]
    exact Fifo.Moves.pop _ n

theorem isTone_behindTones (r : Rings) (n : Nat) : (behindTones r n).filterMap Segment.isTone = [] := by
  rw [behindTones]
  split
  · rfl
  · rfl

variable {h : History}

theorem Inv.push_above (hI : h.Inv) {samples : List Sample}
    (habove : h.rings.highWater < h.rings.toModem.length + samples.length) :
    (h.rings.pushFromNetwork samples).toModem <:+ h.rings.toModem ++ samples ∧
      (h.rings.pushFromNetwork samples).toModem.length = h.rings.target := by
  have htarget := hI.target_le
  rw [Rings.toModem_pushFromNetwork_above _ _ habove]
  refine ⟨List.drop_suffix _ _, ?_⟩
  rw [List.length_drop, List.length_append]
  omega

theorem Inv.push (hI : h.Inv) (samples : List Sample) : (h.step (.push samples)).Inv where
  target_le := by
    rw [step, Rings.target_pushFromNetwork, Rings.highWater_pushFromNetwork]
    exact hI.target_le
  backlog_le := by
    rw [step, Rings.highWater_pushFromNetwork]
    rcases Nat.lt_or_ge h.rings.highWater (h.rings.toModem.length + samples.length) with habove | hbelow
    · rw [(hI.push_above habove).2]
      exact hI.target_le
    · rw [Rings.pushFromNetwork_below _ _ hbelow, List.length_append]
      exact hbelow
  moves := by
    have hpush := hI.moves.trans (Fifo.Moves.push _ samples)
    rw [List.append_nil] at hpush
    rcases Nat.lt_or_ge h.rings.highWater (h.rings.toModem.length + samples.length) with habove | hbelow
    · have htrim := hpush.trans (Fifo.Moves.discard _ (h.rings.toModem.length + samples.length - h.rings.target))
      rw [List.append_nil, List.append_nil] at htrim
      rwa [step, Rings.toModem_pushFromNetwork_above _ _ habove]
    · rwa [step, Rings.pushFromNetwork_below _ _ hbelow]
  stream_eq := by
    rw [step, Rings.tone_pushFromNetwork]
    exact hI.stream_eq
  tones_eq := hI.tones_eq

theorem Inv.queueTone (hI : h.Inv) (samples : List Sample) : (h.step (.queueTone samples)).Inv := by
  rw [step]
  split
  · rename_i rings hsome
    obtain ⟨htone, hring, htarget, hhighWater⟩ := Rings.queueTone_eq_some hsome
    refine ⟨?_, ?_, ?_, ?_, ?_⟩
    · rw [htarget, hhighWater]
      exact hI.target_le
    · rw [hring, hhighWater]
      exact hI.backlog_le
    · rw [hring, List.flatMap_append]
      exact (List.append_nil (h.segments.flatMap Segment.fromNetwork)).symm ▸ hI.moves
    · rw [htone, ← List.append_assoc, hI.stream_eq, List.flatMap_append, List.flatMap_singleton]
      rfl
    · rw [List.filterMap_append, hI.tones_eq]
      rfl
  · exact hI

theorem Inv.take (hI : h.Inv) (n : Nat) : (h.step (.take n)).Inv where
  target_le := by
    rw [step, Rings.target_takeForCard, Rings.highWater_takeForCard]
    exact hI.target_le
  backlog_le := by
    rw [step, Rings.toModem_takeForCard, Rings.highWater_takeForCard, List.length_drop]
    exact (Nat.sub_le _ _).trans hI.backlog_le
  moves := by
    rw [step, Rings.toModem_takeForCard, List.flatMap_append]
    exact (List.append_nil h.pushed) ▸ hI.moves.trans (moves_behindTones h.rings n)
  stream_eq := by
    rw [step, List.append_assoc, takeForCard_append_tone, ← List.append_assoc, hI.stream_eq, List.flatMap_append]
  tones_eq := by
    rw [step, List.filterMap_append, hI.tones_eq, isTone_behindTones, List.append_nil]

/-- The mark is three times the target, which does not overflow. -/
theorem target_new_le (w jitterMs periodMs : Nat) :
    (Rings.new w jitterMs periodMs).target ≤ (Rings.new w jitterMs periodMs).highWater := by
  have hone (ms : Nat) : usizeOf w ms * 3 < 2 ^ w := by
    have hlt : rtpRate * ms % 2 ^ w < 2 ^ w := Nat.mod_lt _ (Nat.two_pow_pos w)
    have hle : usizeOf w ms * 1000 ≤ rtpRate * ms % 2 ^ w := Nat.div_mul_le_self _ _
    omega
  have hmax : max (usizeOf w (max jitterMs periodMs)) (usizeOf w 20) * 3 < 2 ^ w := by
    rw [Nat.max_def]
    split
    · exact hone _
    · exact hone _
  rw [Rings.new]
  dsimp only
  rw [Nat.mod_eq_of_lt hmax]
  exact Nat.le_mul_of_pos_right _ (by decide)

theorem inv_step (h : History) (op : RingOp) (hI : h.Inv) : (h.step op).Inv := by
  cases op with
  | push samples => exact hI.push samples
  | queueTone samples => exact hI.queueTone samples
  | take n => exact hI.take n

theorem inv_after (w jitterMs periodMs : Nat) (ops : List RingOp) : (after w jitterMs periodMs ops).Inv := by
  refine Run.invariant inv_step ops ⟨target_new_le w jitterMs periodMs, Nat.zero_le _, ?_, rfl, rfl⟩
  exact List.Sublist.refl _

/-- Whatever is pushed, queued and taken, and in which order, the rings are two bounded queues, and the
tones go first. -/
theorem refines_after (w jitterMs periodMs : Nat) (ops : List RingOp) :
    (after w jitterMs periodMs ops).Refines := by
  have hI := inv_after w jitterMs periodMs ops
  refine {
    backlog_le := hI.backlog_le
    push_below := fun samples hbelow ↦ ?_
    push_above := fun samples habove ↦ hI.push_above habove
    network_sublist := hI.moves.sublist
    stream_eq := hI.stream_eq
    tones_eq := hI.tones_eq
    tone_drained := fun n ↦ Rings.tone_takeForCard _ n
    fitting := fun samples hfit ↦ ?_
    refused := fun samples hlong ↦ ?_
    length_taken := fun n ↦ Rings.length_takeForCard _ n }
  · rw [Rings.pushFromNetwork_below _ _ hbelow]
  · obtain ⟨rings, hsome⟩ := Rings.exists_queueTone hfit
    rw [step, hsome]
    exact ⟨rfl, (Rings.queueTone_eq_some hsome).1⟩
  · have hnone := Rings.queueTone_eq_none hlong
    refine ⟨hnone, ?_⟩
    rw [step, hnone]

end History

end Modem2Sip.Media
