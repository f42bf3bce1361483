import Modem2Sip.Gateway.Loop

/-!
# Digits for the mobile side

`deliver_dtmf` with what is below it: `ModemHandle::send_dtmf`, `send_dtmf_inband` and the queue of
tones.  Every character keeps its place in the string, so that a digit that goes out twice can be
told from two equal digits.
-/

namespace Modem2Sip.Gateway.Dtmf

open Text

/-- A character of the string of digits, and its place there. -/
abbrev Placed := Char × Nat

/-! ## Tones -/

def lowFrequency (digit : Char) : Option Nat :=
  if digit ∈ ['1', '2', '3', 'A', 'a'] then some 697
  else if digit ∈ ['4', '5', '6', 'B', 'b'] then some 770
  else if digit ∈ ['7', '8', '9', 'C', 'c'] then some 852
  else if digit ∈ ['*', '0', '#', 'D', 'd'] then some 941
  else none

def highFrequency (digit : Char) : Option Nat :=
  if digit ∈ ['1', '4', '7', '*'] then some 1209
  else if digit ∈ ['2', '5', '8', '0'] then some 1336
  else if digit ∈ ['3', '6', '9', '#'] then some 1477
  else if digit ∈ ['A', 'a', 'B', 'b', 'C', 'c', 'D', 'd'] then some 1633
  else none

/-- The two frequencies of a digit, in Hertz. -/
def dtmfFrequencies (digit : Char) : Option (Nat × Nat) := do
  let low ← lowFrequency digit
  let high ← highFrequency digit
  some (low, high)

def isDtmf (digit : Char) : Bool := (dtmfFrequencies digit).isSome

def rtpRate : Nat := 8000

/-- `MAX_TONE_SAMPLES`. -/
def maxToneSamples : Nat := rtpRate * 8

/-- The length of `dtmf_samples`, and of a gap. -/
def samplesOf (ms : Nat) : Nat := rtpRate * ms / 1000

/-- How many samples wait to be played. -/
@[ext]
structure ToneQueue where
  waiting : Nat
  waiting_le : waiting ≤ maxToneSamples

namespace ToneQueue

/-- `AudioRings::queue_tone`: the whole tone, or nothing of it. -/
def queueTone (q : ToneQueue) (samples : Nat) : Option ToneQueue :=
  if h : q.waiting + samples ≤ maxToneSamples then some ⟨q.waiting + samples, h⟩ else none

/-- The loop of `send_dtmf_inband`, with the digits that it queues. -/
def playFrom (tone gap : Nat) (q : ToneQueue) : List Placed → ToneQueue × List Placed
  | [] => (q, [])
  | d :: ds =>
    match dtmfFrequencies d.1 with
    | some _ =>
      match q.queueTone tone with
      | none => (q, [])
      | some q =>
        let q := (q.queueTone gap).getD q
        let (q, queued) := q.playFrom tone gap ds
        (q, d :: queued)
    | none => q.playFrom tone gap ds

end ToneQueue

/-- `MediaSession::send_dtmf_inband`. -/
def sendDtmfInband (cfg : Config) (q : ToneQueue) (digits : List Placed) : ToneQueue × List Placed :=
  q.playFrom (samplesOf cfg.dtmfToneMs) (samplesOf cfg.dtmfGapMs)
    (digits.filter fun d ↦ !isWhitespace d.1)

/-! ## Delivery -/

/-- The requests of `ModemHandle::send_dtmf`: the digits that are accepted, up to the first that is
not, and whether all are.  `accepts` has the answers in the order of the requests. -/
def sendEach (accepts : Nat → Bool) : List Placed → List Placed × Bool
  | [] => ([], true)
  | d :: ds =>
    if accepts 0 then
      let (accepted, ok) := sendEach (fun i ↦ accepts (i + 1)) ds
      (d :: accepted, ok)
    else ([], false)

/-- What `deliver_dtmf` finds. -/
structure Line where
  /-- `dtmf_via_modem_failed` of the call. -/
  failedHere : Bool
  /-- Are there an object path of the call and a modem? -/
  hasTarget : Bool
  /-- Is there a proxy for the call object? -/
  connects : Bool
  accepts : Nat → Bool
  /-- The queue of the media session, if there is one. -/
  queue : Option ToneQueue

/-- What comes of it. -/
structure Delivery where
  ok : Bool
  viaModem : List Placed
  inBand : List Placed
  failedHere : Bool
  queue : Option ToneQueue

/-- `ModemHandle::send_dtmf`. -/
def Line.sendDtmf (l : Line) (digits : List Placed) : List Placed × Bool :=
  if l.connects then sendEach l.accepts (digits.filter fun d ↦ !isWhitespace d.1) else ([], false)

/-- The part of `deliver_dtmf` that plays tones, behind what the modem has accepted. -/
def Line.playTones (cfg : Config) (l : Line) (digits viaModem : List Placed) : Delivery :=
  if cfg.dtmfMethod = .inband ∨ cfg.dtmfMethod = .auto then
    match l.queue with
    | some q =>
      let (q, queued) := sendDtmfInband cfg q digits
      ⟨decide (0 < queued.length), viaModem, queued, l.failedHere, some q⟩
    | none => ⟨false, viaModem, [], l.failedHere, none⟩
  else ⟨false, viaModem, [], l.failedHere, l.queue⟩

def Line.triesModem (cfg : Config) (l : Line) : Prop :=
  cfg.dtmfMethod = .modem ∨ (cfg.dtmfMethod = .auto ∧ l.failedHere = false)

instance (cfg : Config) (l : Line) : Decidable (l.triesModem cfg) :=
  inferInstanceAs (Decidable (_ ∨ _))

/-- `Gateway::deliver_dtmf`. -/
def Line.deliverDtmf (cfg : Config) (l : Line) (digits : Str) : Delivery :=
  if cfg.dtmfMethod = .none ∨ digits = [] then ⟨true, [], [], l.failedHere, l.queue⟩
  else if l.triesModem cfg then
    if l.hasTarget then
      match l.sendDtmf digits.zipIdx with
      | (accepted, true) => ⟨true, accepted, [], l.failedHere, l.queue⟩
      | (accepted, false) =>
        if cfg.dtmfMethod = .modem then ⟨false, accepted, [], l.failedHere, l.queue⟩
        else Line.playTones cfg { l with failedHere := true } digits.zipIdx accepted
    else if cfg.dtmfMethod = .modem then ⟨false, [], [], l.failedHere, l.queue⟩
    else l.playTones cfg digits.zipIdx []
  else l.playTones cfg digits.zipIdx []

/-- The DTMF digits among the characters. -/
def dtmfDigits (digits : List Placed) : List Placed := digits.filter fun d ↦ isDtmf d.1

theorem dtmfDigits_cons_pos {d : Placed} (hd : isDtmf d.1 = true) (ds : List Placed) :
    dtmfDigits (d :: ds) = d :: dtmfDigits ds :=
  List.filter_cons_of_pos (p := fun d : Placed ↦ isDtmf d.1) hd

theorem dtmfDigits_cons_neg {d : Placed} (hd : isDtmf d.1 = false) (ds : List Placed) :
    dtmfDigits (d :: ds) = dtmfDigits ds :=
  List.filter_cons_of_neg (p := fun d : Placed ↦ isDtmf d.1) (Bool.eq_false_iff.mp hd)

/-- What has reached the mobile side, in order. -/
def Delivery.delivered (d : Delivery) : List Placed := dtmfDigits (d.viaModem ++ d.inBand)

/-- No digit twice, and none before an earlier one. -/
def InOrderOnce (ds : List Placed) : Prop := (ds.map Prod.snd).Pairwise (· < ·)

/-- What is delivered is delivered once and in order, and it is all of it if the answer is yes. -/
structure Delivery.Exact (d : Delivery) (digits : Str) : Prop where
  inOrderOnce : InOrderOnce d.delivered
  complete : d.ok = true → ∀ p ∈ dtmfDigits digits.zipIdx, p ∈ d.delivered

/-! ## What fits in the queue -/

namespace ToneQueue

variable {tone gap : Nat} {q : ToneQueue}

/-- How many samples there is room for. -/
def room (q : ToneQueue) : Nat := maxToneSamples - q.waiting

/-- Is there room for `n` tones?  A gap that does not fit is left out, so that what is too short for
a tone with its gap may take more than one tone without. -/
def Fits (q : ToneQueue) (tone gap n : Nat) : Prop :=
  tone = 0 ∨ n ≤ q.room / (tone + gap) + q.room % (tone + gap) / tone

theorem queueTone_of_le (h : tone ≤ q.room) : ∃ q', q.queueTone tone = some q' ∧ q'.room = q.room - tone := by
  have hle := q.waiting_le
  have hfit : q.waiting + tone ≤ maxToneSamples := by
    rw [room] at h
    omega
  refine ⟨⟨q.waiting + tone, hfit⟩, dif_pos hfit, ?_⟩
  rw [room, room, Nat.sub_add_eq]

theorem queueTone_of_lt (h : q.room < tone) : q.queueTone tone = none := by
  refine dif_neg fun hfit ↦ ?_
  rw [room] at h
  omega

theorem fits_zero : q.Fits tone gap 0 := .inr (Nat.zero_le _)

/-- Without room for one tone there is none for more. -/
theorem not_fits_succ (h : q.room < tone) (n : Nat) : ¬ q.Fits tone gap (n + 1) := by
  rintro (hzero | hle)
  · exact Nat.not_lt_zero _ (hzero ▸ h)
  · rw [Nat.div_eq_of_lt (by omega), Nat.mod_eq_of_lt (by omega), Nat.div_eq_of_lt h] at hle
    omega

/-- A tone that is queued, and its gap if it is, leave room for one tone less. -/
theorem fits_succ_iff {q' : ToneQueue} (h : tone ≤ q.room)
    (hq : q'.room = if tone + gap ≤ q.room then q.room - (tone + gap) else q.room - tone) (n : Nat) :
    q.Fits tone gap (n + 1) ↔ q'.Fits tone gap n := by
  rw [Fits, Fits]
  refine or_congr_right' fun hne ↦ ?_
  have hpos : 0 < tone := Nat.pos_of_ne_zero hne
  split at hq
  · rename_i hgap
    rw [hq, Nat.div_eq_sub_div (by omega) hgap, Nat.mod_eq_sub_mod hgap]
    omega
  · rename_i hgap
    have hless : q.room - tone < tone + gap := by omega
    rw [hq, Nat.div_eq_of_lt (not_le.mp hgap), Nat.mod_eq_of_lt (not_le.mp hgap), Nat.div_eq_of_lt hless,
      Nat.mod_eq_of_lt hless, Nat.div_eq_sub_div hpos h]
    omega

variable (tone gap q)

/-- One digit of the loop: it ends, or one tone is queued. -/
theorem playFrom_cons {d : Placed} (hd : isDtmf d.1 = true) (ds : List Placed) :
    (q.room < tone ∧ (q.playFrom tone gap (d :: ds)).2 = []) ∨
      tone ≤ q.room ∧ ∃ q' : ToneQueue,
        q'.room = (if tone + gap ≤ q.room then q.room - (tone + gap) else q.room - tone) ∧
          (q.playFrom tone gap (d :: ds)).2 = d :: (q'.playFrom tone gap ds).2 := by
  obtain ⟨f, hf⟩ := Option.isSome_iff_exists.mp hd
  rcases Nat.lt_or_ge q.room tone with hlt | hle
  · left
    refine ⟨hlt, ?_⟩
    simp only [playFrom, hf, queueTone_of_lt hlt]
  · right
    obtain ⟨q₁, hq₁, hroom⟩ := queueTone_of_le hle
    refine ⟨hle, (q₁.queueTone gap).getD q₁, ?_, ?_⟩
    · split
      · rename_i hgap
        obtain ⟨q₂, hq₂, hroom₂⟩ := queueTone_of_le (show gap ≤ q₁.room by omega)
        rw [hq₂, Option.getD_some, hroom₂, hroom, Nat.sub_add_eq]
      · rename_i hgap
        rw [queueTone_of_lt (by omega), Option.getD_none, hroom]
    · simp only [playFrom, hf, hq₁]

theorem playFrom_skip {d : Placed} (hd : isDtmf d.1 = false) (ds : List Placed) :
    q.playFrom tone gap (d :: ds) = q.playFrom tone gap ds := by
  have hf : dtmfFrequencies d.1 = none := Option.not_isSome_iff_eq_none.mp (Bool.eq_false_iff.mp hd)
  rw [playFrom, hf]

/-- The digits that are queued are the first of the DTMF digits. -/
theorem playFrom_initial (ds : List Placed) :
    (q.playFrom tone gap ds).2 <+: dtmfDigits ds := by
  induction ds generalizing q with
  | nil => exact List.prefix_rfl
  | cons d ds ih =>
      cases hd : isDtmf d.1 with
      | false =>
          rw [playFrom_skip tone gap q hd, dtmfDigits_cons_neg hd]
          exact ih q
      | true =>
          rw [dtmfDigits_cons_pos hd]
          rcases playFrom_cons tone gap q hd ds with ⟨-, hnil⟩ | ⟨-, q', -, hcons⟩
          · rw [hnil]
            exact List.nil_prefix
          · rw [hcons, List.cons_prefix_cons]
            exact ⟨rfl, ih q'⟩

/-- They are all of them if and only if there is room for all. -/
theorem playFrom_length_iff (ds : List Placed) :
    (q.playFrom tone gap ds).2.length = (dtmfDigits ds).length ↔
      q.Fits tone gap (dtmfDigits ds).length := by
  induction ds generalizing q with
  | nil => exact iff_of_true rfl fits_zero
  | cons d ds ih =>
      cases hd : isDtmf d.1 with
      | false =>
          rw [playFrom_skip tone gap q hd, dtmfDigits_cons_neg hd]
          exact ih q
      | true =>
          rw [dtmfDigits_cons_pos hd, List.length_cons]
          rcases playFrom_cons tone gap q hd ds with
            ⟨hlt, hnil⟩ | ⟨hle, q', hroom, hcons⟩
          · rw [hnil]
            exact iff_of_false (by simp) (not_fits_succ hlt _)
          · rw [hcons, List.length_cons, Nat.add_right_cancel_iff, fits_succ_iff hle hroom]
            exact ih q'

/-- None of them is queued if and only if there is no room for the first. -/
theorem playFrom_eq_nil_iff (ds : List Placed) :
    (q.playFrom tone gap ds).2 = [] ↔ dtmfDigits ds = [] ∨ q.room < tone := by
  induction ds with
  | nil => exact iff_of_true rfl (.inl rfl)
  | cons d ds ih =>
      cases hd : isDtmf d.1 with
      | false =>
          rw [playFrom_skip tone gap q hd, dtmfDigits_cons_neg hd]
          exact ih
      | true =>
          rw [dtmfDigits_cons_pos hd]
          rcases playFrom_cons tone gap q hd ds with
            ⟨hlt, hnil⟩ | ⟨hle, q', -, hcons⟩
          · exact iff_of_true hnil (.inr hlt)
          · rw [hcons]
            simp [hle]

end ToneQueue

/-! ## What the modem takes -/

theorem sendEach_cons (accepts : Nat → Bool) (d : Placed) (ds : List Placed) :
    sendEach accepts (d :: ds) =
      if accepts 0 then (d :: (sendEach (fun i ↦ accepts (i + 1)) ds).1,
        (sendEach (fun i ↦ accepts (i + 1)) ds).2)
      else ([], false) := rfl

/-- What is accepted is the beginning of what is sent, and all of it if there is no failure. -/
theorem sendEach_initial (accepts : Nat → Bool) (ds : List Placed) :
    (sendEach accepts ds).1 <+: ds ∧ ((sendEach accepts ds).2 = true → (sendEach accepts ds).1 = ds) := by
  induction ds generalizing accepts with
  | nil => exact ⟨List.prefix_rfl, fun _ ↦ rfl⟩
  | cons d ds ih =>
      obtain ⟨hpre, hall⟩ := ih fun i ↦ accepts (i + 1)
      rw [sendEach_cons]
      split
      · exact ⟨List.cons_prefix_cons.mpr ⟨rfl, hpre⟩, fun hok ↦ congrArg (d :: ·) (hall hok)⟩
      · exact ⟨List.nil_prefix, nofun⟩

theorem sendEach_ok_iff (accepts : Nat → Bool) (ds : List Placed) :
    (sendEach accepts ds).2 = true ↔ ∀ i < ds.length, accepts i = true := by
  induction ds generalizing accepts with
  | nil => exact iff_of_true rfl nofun
  | cons d ds ih =>
      rw [sendEach_cons]
      split
      · rename_i hhead
        refine (ih fun i ↦ accepts (i + 1)).trans ⟨fun h i hi ↦ ?_, fun h i hi ↦ ?_⟩
        · cases i with
          | zero => exact hhead
          | succ i => exact h i (Nat.lt_of_succ_lt_succ hi)
        · exact h (i + 1) (Nat.succ_lt_succ hi)
      · rename_i hhead
        exact iff_of_false Bool.false_ne_true fun h ↦ hhead (h 0 (Nat.succ_pos _))

/-- None of the digits that is accepted is a DTMF digit. -/
theorem dtmfDigits_sendEach_iff (accepts : Nat → Bool) (ds : List Placed) :
    dtmfDigits (sendEach accepts ds).1 = [] ↔
      ∀ i, (h : i < ds.length) → (∀ j ≤ i, accepts j = true) → isDtmf ds[i].1 = false := by
  induction ds generalizing accepts with
  | nil => exact iff_of_true rfl nofun
  | cons d ds ih =>
      rw [sendEach_cons]
      split
      · rename_i hhead
        have htail := ih fun i ↦ accepts (i + 1)
        constructor
        · intro hnil i hi hall
          obtain ⟨hd, hnil⟩ : isDtmf d.1 = false ∧
              dtmfDigits (sendEach (fun i ↦ accepts (i + 1)) ds).1 = [] := by
            cases hd : isDtmf d.1 with
            | false => exact ⟨rfl, by rwa [dtmfDigits_cons_neg hd] at hnil⟩
            | true =>
                rw [dtmfDigits_cons_pos hd] at hnil
                cases hnil
          cases i with
          | zero => exact hd
          | succ i =>
              exact htail.mp hnil i (Nat.lt_of_succ_lt_succ hi) fun j hj ↦
                hall (j + 1) (Nat.succ_le_succ hj)
        · intro hnone
          have hd : isDtmf d.1 = false := hnone 0 (Nat.succ_pos _) fun j hj ↦ by
            rwa [Nat.le_zero.mp hj]
          rw [dtmfDigits_cons_neg hd]
          refine htail.mpr fun i hi hall ↦ hnone (i + 1) (Nat.succ_lt_succ hi) fun j hj ↦ ?_
          cases j with
          | zero => exact hhead
          | succ j => exact hall j (Nat.le_of_succ_le_succ hj)
      · rename_i hhead
        exact iff_of_true rfl fun i _ hall ↦ absurd (hall 0 (Nat.zero_le i)) hhead

/-! ## Once and in order -/

theorem isWhitespace_of_isDtmf {c : Char} (h : isDtmf c = true) : isWhitespace c = false := by
  obtain ⟨f, hf⟩ := Option.isSome_iff_exists.mp h
  obtain ⟨low, hlow, -⟩ := Option.bind_eq_some_iff.mp hf
  have hall : ∀ c ∈ ['1', '2', '3', 'A', 'a', '4', '5', '6', 'B', 'b', '7', '8', '9', 'C', 'c', '*', '0',
      '#', 'D', 'd'], isWhitespace c = false := by decide
  refine hall c ?_
  by_contra hnot
  simp only [List.mem_cons, not_or] at hnot
  simp [lowFrequency, hnot] at hlow

/-- Of the characters that are left out, none is a DTMF digit. -/
theorem dtmfDigits_filter (ds : List Placed) :
    dtmfDigits (ds.filter fun d ↦ !isWhitespace d.1) = dtmfDigits ds := by
  rw [dtmfDigits, List.filter_filter]
  refine List.filter_congr fun d _ ↦ ?_
  cases hd : isDtmf d.1 with
  | false => rfl
  | true => rw [isWhitespace_of_isDtmf hd]; rfl

theorem inOrderOnce_dtmfDigits (digits : Str) : InOrderOnce (dtmfDigits digits.zipIdx) := by
  have hall : InOrderOnce digits.zipIdx := by
    rw [InOrderOnce, List.zipIdx_map_snd]
    exact List.pairwise_lt_range'
  exact hall.sublist (List.filter_sublist.map Prod.snd)

theorem InOrderOnce.initial {ds es : List Placed} (h : InOrderOnce ds) (hpre : es <+: ds) :
    InOrderOnce es :=
  h.sublist (hpre.sublist.map Prod.snd)

/-- Two beginnings of the string, one behind the other, are in order only if one of them is empty. -/
theorem inOrderOnce_append_iff {ds ms qs : List Placed} (h : InOrderOnce ds) (hm : ms <+: ds)
    (hq : qs <+: ds) : InOrderOnce (ms ++ qs) ↔ ms = [] ∨ qs = [] := by
  constructor
  · intro hboth
    cases ms with
    | nil => exact .inl rfl
    | cons m ms =>
        cases qs with
        | nil => exact .inr rfl
        | cons q qs =>
            obtain ⟨rest, rfl⟩ := hm
            obtain rfl : q = m := (List.cons_prefix_cons.mp hq).1
            rw [InOrderOnce, List.map_append, List.pairwise_append] at hboth
            exact absurd (hboth.2.2 _ List.mem_cons_self _ List.mem_cons_self) (Nat.lt_irrefl _)
  · rintro (rfl | rfl)
    · exact h.initial hq
    · rw [List.append_nil]
      exact h.initial hm

/-! ## When the delivery is exact -/

namespace Line

variable (cfg : Config) (l : Line)

/-- Is the modem asked? -/
def AsksModem : Prop := l.triesModem cfg ∧ l.hasTarget = true

/-- It takes the whole string. -/
def TakesAll (ds : List Placed) : Prop := l.connects = true ∧ ∀ i < ds.length, l.accepts i = true

/-- It refuses the string before it has taken a DTMF digit. -/
def TakesNone (ds : List Placed) : Prop :=
  l.connects = true →
    ∀ i, (h : i < ds.length) → (∀ j ≤ i, l.accepts j = true) → isDtmf ds[i].1 = false

/-- Are tones to be played? -/
def Plays (ds : List Placed) : Prop :=
  cfg.dtmfMethod = .inband ∨ (cfg.dtmfMethod = .auto ∧ ¬ (l.AsksModem cfg ∧ l.TakesAll ds))

/-- Tones are played only where there is no room for the first, or room for all behind a modem that
has taken none. -/
def Clean (digits : Str) : Prop :=
  let ds := digits.zipIdx.filter fun d ↦ !isWhitespace d.1
  l.Plays cfg ds → ∀ q, l.queue = some q →
    q.room < samplesOf cfg.dtmfToneMs ∨
      (q.Fits (samplesOf cfg.dtmfToneMs) (samplesOf cfg.dtmfGapMs) (dtmfDigits ds).length ∧
        (l.AsksModem cfg → l.TakesNone ds))

variable {cfg l}

theorem sendDtmf_initial (ds : List Placed) : dtmfDigits (l.sendDtmf ds).1 <+: dtmfDigits ds := by
  rw [sendDtmf]
  split
  · rw [← dtmfDigits_filter ds]
    exact (sendEach_initial l.accepts _).1.filter _
  · exact List.nil_prefix

theorem sendDtmf_ok_iff (ds : List Placed) :
    (l.sendDtmf ds).2 = true ↔ l.TakesAll (ds.filter fun d ↦ !isWhitespace d.1) := by
  rw [sendDtmf, TakesAll]
  split
  · rename_i hconnects
    rw [sendEach_ok_iff]
    exact (and_iff_right hconnects).symm
  · rename_i hconnects
    exact iff_of_false Bool.false_ne_true fun h ↦ hconnects h.1

theorem sendDtmf_all (ds : List Placed) (h : (l.sendDtmf ds).2 = true) :
    dtmfDigits (l.sendDtmf ds).1 = dtmfDigits ds := by
  rw [sendDtmf] at h ⊢
  split at h
  · rename_i hconnects
    rw [if_pos hconnects, (sendEach_initial l.accepts _).2 h, dtmfDigits_filter]
  · cases h

theorem sendDtmf_none_iff (ds : List Placed) :
    dtmfDigits (l.sendDtmf ds).1 = [] ↔ l.TakesNone (ds.filter fun d ↦ !isWhitespace d.1) := by
  rw [sendDtmf, TakesNone]
  split
  · rename_i hconnects
    rw [dtmfDigits_sendEach_iff]
    exact ⟨fun h _ ↦ h, fun h ↦ h hconnects⟩
  · rename_i hconnects
    exact iff_of_true rfl fun h ↦ absurd h hconnects

end Line

/-- What the modem alone has taken is in order. -/
theorem Delivery.exact_of_nil {d : Delivery} {digits : Str} (hok : d.ok = false) (hinBand : d.inBand = [])
    (hmodem : dtmfDigits d.viaModem <+: dtmfDigits digits.zipIdx) : d.Exact digits := by
  refine ⟨?_, fun h ↦ absurd h (hok ▸ Bool.false_ne_true)⟩
  rw [delivered, hinBand, List.append_nil]
  exact (inOrderOnce_dtmfDigits digits).initial hmodem

theorem dtmfDigits_of_initial {es ds : List Placed} (h : es <+: dtmfDigits ds) : dtmfDigits es = es :=
  List.filter_eq_self.mpr fun _ hd ↦ (List.mem_filter.mp (h.subset hd)).2

/-- A list that has all of the digits is as long as they are. -/
theorem InOrderOnce.length_le {ds es : List Placed} (h : InOrderOnce ds) (hsub : ∀ d ∈ ds, d ∈ es) :
    ds.length ≤ es.length := by
  have hnodup : (ds.map Prod.snd).Nodup := List.Pairwise.imp Nat.ne_of_lt h
  exact (hnodup.of_map Prod.snd).length_le_of_subset hsub

/-- What the modem has taken with tones behind it is exact if there are no tones, or all the tones and
nothing before them. -/
theorem Delivery.exact_iff {d : Delivery} {digits : Str} (hok : d.ok = decide (0 < d.inBand.length))
    (hmodem : dtmfDigits d.viaModem <+: dtmfDigits digits.zipIdx)
    (hinBand : d.inBand <+: dtmfDigits digits.zipIdx) :
    d.Exact digits ↔ d.inBand = [] ∨
      (d.inBand.length = (dtmfDigits digits.zipIdx).length ∧ dtmfDigits d.viaModem = []) := by
  have hdigits := inOrderOnce_dtmfDigits digits
  have hdelivered : d.delivered = dtmfDigits d.viaModem ++ d.inBand := by
    rw [delivered, dtmfDigits, List.filter_append]
    exact congrArg (_ ++ ·) (dtmfDigits_of_initial hinBand)
  constructor
  · rintro ⟨horder, hcomplete⟩
    rw [hdelivered] at horder hcomplete
    rcases (inOrderOnce_append_iff hdigits hmodem hinBand).mp horder with hnil | hnil
    · rw [hnil, List.nil_append] at hcomplete
      by_cases hlen : 0 < d.inBand.length
      · right
        rw [hok] at hcomplete
        exact ⟨hinBand.length_le.antisymm (hdigits.length_le (hcomplete (decide_eq_true hlen))), hnil⟩
      · exact .inl (List.eq_nil_of_length_eq_zero (Nat.eq_zero_of_not_pos hlen))
    · exact .inl hnil
  · rintro (hnil | ⟨hlen, hnil⟩)
    · exact exact_of_nil (by rw [hok, hnil]; rfl) hnil hmodem
    · have hall : d.inBand = dtmfDigits digits.zipIdx := hinBand.eq_of_length hlen
      refine ⟨?_, ?_⟩
      · rwa [hdelivered, hnil, List.nil_append, hall]
      · intro _ p hp
        rwa [hdelivered, hnil, List.nil_append, hall]

/-- Tones behind what the modem has taken. -/
theorem Line.exact_playTones_iff {cfg : Config} {l : Line} {digits : Str} {accepted : List Placed}
    (hpre : dtmfDigits accepted <+: dtmfDigits digits.zipIdx)
    (hmethod : cfg.dtmfMethod = .inband ∨ cfg.dtmfMethod = .auto) :
    (l.playTones cfg digits.zipIdx accepted).Exact digits ↔
      ∀ q, l.queue = some q → q.room < samplesOf cfg.dtmfToneMs ∨
        (q.Fits (samplesOf cfg.dtmfToneMs) (samplesOf cfg.dtmfGapMs)
            (dtmfDigits (digits.zipIdx.filter fun d ↦ !isWhitespace d.1)).length ∧
          dtmfDigits accepted = []) := by
  rw [playTones, if_pos hmethod]
  cases hqueue : l.queue with
  | none => exact iff_of_true (Delivery.exact_of_nil rfl rfl hpre) nofun
  | some q =>
      have hdigits := dtmfDigits_filter digits.zipIdx
      have hplayed := ToneQueue.playFrom_initial (samplesOf cfg.dtmfToneMs) (samplesOf cfg.dtmfGapMs) q
        (digits.zipIdx.filter fun d ↦ !isWhitespace d.1)
      have hlength := ToneQueue.playFrom_length_iff (samplesOf cfg.dtmfToneMs)
        (samplesOf cfg.dtmfGapMs) q (digits.zipIdx.filter fun d ↦ !isWhitespace d.1)
      have hnil := ToneQueue.playFrom_eq_nil_iff (samplesOf cfg.dtmfToneMs) (samplesOf cfg.dtmfGapMs) q
        (digits.zipIdx.filter fun d ↦ !isWhitespace d.1)
      dsimp only [sendDtmfInband]
      generalize ToneQueue.playFrom _ _ q _ = played at hplayed hlength hnil ⊢
      rw [hdigits] at hplayed
      refine (Delivery.exact_iff rfl hpre hplayed).trans ?_
      rw [← hdigits, hlength, hnil]
      constructor
      · rintro ((hnone | hroom) | hfits) _ ⟨⟩
        · right
          rw [hnone]
          exact ⟨ToneQueue.fits_zero, List.prefix_nil.mp (hnone ▸ hdigits ▸ hpre)⟩
        · exact .inl hroom
        · exact .inr hfits
      · intro h
        rcases h q rfl with hroom | hfits
        · exact .inl (.inr hroom)
        · exact .inr hfits

theorem Line.deliverDtmf_of_not_asksModem {cfg : Config} {l : Line} {digits : Str}
    (hsome : ¬ (cfg.dtmfMethod = .none ∨ digits = [])) (hmodem : ¬ cfg.dtmfMethod = .modem)
    (hasks : ¬ l.AsksModem cfg) : l.deliverDtmf cfg digits = l.playTones cfg digits.zipIdx [] := by
  rw [deliverDtmf, if_neg hsome]
  by_cases htries : l.triesModem cfg
  · have htarget : ¬ l.hasTarget = true := fun h ↦ hasks ⟨htries, h⟩
    rw [if_pos htries, if_neg htarget, if_neg hmodem]
  · rw [if_neg htries]

theorem Line.clean_iff_of_plays {cfg : Config} {l : Line} {digits : Str}
    (hplays : l.Plays cfg (digits.zipIdx.filter fun d ↦ !isWhitespace d.1)) :
    l.Clean cfg digits ↔ ∀ q, l.queue = some q →
      q.room < samplesOf cfg.dtmfToneMs ∨
        (q.Fits (samplesOf cfg.dtmfToneMs) (samplesOf cfg.dtmfGapMs)
            (dtmfDigits (digits.zipIdx.filter fun d ↦ !isWhitespace d.1)).length ∧
          (l.AsksModem cfg → l.TakesNone (digits.zipIdx.filter fun d ↦ !isWhitespace d.1))) :=
  ⟨fun h ↦ h hplays, fun h _ ↦ h⟩

/-- A digit reaches the mobile side once and in order, and yes is said only for all of them, if and
only if tones are played to the end and for none that the modem has taken. -/
theorem Line.exact_deliverDtmf_iff {cfg : Config} (hmethod : cfg.dtmfMethod ≠ .none) (l : Line)
    (digits : Str) : (l.deliverDtmf cfg digits).Exact digits ↔ l.Clean cfg digits := by
  by_cases hnil : digits = []
  · subst hnil
    refine iff_of_true ?_ fun _ q _ ↦ .inr ⟨ToneQueue.fits_zero, fun _ _ ↦ nofun⟩
    rw [deliverDtmf, if_pos (.inr rfl)]
    exact ⟨List.Pairwise.nil, fun _ ↦ nofun⟩
  have hsome : ¬ (cfg.dtmfMethod = .none ∨ digits = []) := not_or.mpr ⟨hmethod, hnil⟩
  by_cases hasks : l.AsksModem cfg
  · rw [deliverDtmf, if_neg hsome, if_pos hasks.1, if_pos hasks.2]
    have hpre := l.sendDtmf_initial digits.zipIdx
    have hok := l.sendDtmf_ok_iff digits.zipIdx
    have hall := l.sendDtmf_all digits.zipIdx
    have hnone := l.sendDtmf_none_iff digits.zipIdx
    generalize l.sendDtmf digits.zipIdx = sent at hpre hok hall hnone
    obtain ⟨accepted, ok⟩ := sent
    have hplays : l.Plays cfg (digits.zipIdx.filter fun d ↦ !isWhitespace d.1) ↔
        cfg.dtmfMethod ≠ .modem ∧ ok = false := by
      rw [Plays, ← hok, and_iff_right hasks, Bool.not_eq_true]
      rcases hasks.1 with hmodem | hauto
      · simp [hmodem]
      · simp [hauto.1]
    cases ok with
    | true =>
        refine iff_of_true ⟨?_, fun _ p hp ↦ ?_⟩ fun h ↦ Bool.noConfusion (hplays.mp h).2
        · rw [Delivery.delivered, List.append_nil, hall rfl]
          exact inOrderOnce_dtmfDigits digits
        · rwa [Delivery.delivered, List.append_nil, hall rfl]
    | false =>
        dsimp only
        by_cases hmodem : cfg.dtmfMethod = .modem
        · rw [if_pos hmodem]
          exact iff_of_true (Delivery.exact_of_nil rfl rfl hpre) fun h ↦
            absurd hmodem (hplays.mp h).1
        · rw [if_neg hmodem]
          have hauto : cfg.dtmfMethod = .auto := (hasks.1.resolve_left hmodem).1
          have hplay := hplays.mpr ⟨hmodem, rfl⟩
          rw [exact_playTones_iff hpre (.inr hauto), clean_iff_of_plays hplay, hnone]
          simp only [forall_prop_of_true hasks]
  · have hplays : l.Plays cfg (digits.zipIdx.filter fun d ↦ !isWhitespace d.1) ↔
        cfg.dtmfMethod = .inband ∨ cfg.dtmfMethod = .auto := by
      rw [Plays, and_iff_left fun h ↦ hasks h.1]
    by_cases hmodem : cfg.dtmfMethod = .modem
    · have htarget : ¬ l.hasTarget = true := fun h ↦ hasks ⟨.inl hmodem, h⟩
      rw [deliverDtmf, if_neg hsome, if_pos (.inl hmodem), if_neg htarget, if_pos hmodem]
      refine iff_of_true (Delivery.exact_of_nil rfl rfl List.nil_prefix) fun h ↦ ?_
      rcases hplays.mp h with hinband | hauto
      · exact nomatch hmodem.symm.trans hinband
      · exact nomatch hmodem.symm.trans hauto
    · have hmethods : cfg.dtmfMethod = .inband ∨ cfg.dtmfMethod = .auto := by
        cases h : cfg.dtmfMethod with
        | none => exact absurd h hmethod
        | modem => exact absurd h hmodem
        | inband => exact .inl rfl
        | auto => exact .inr rfl
      have hpre : dtmfDigits [] <+: dtmfDigits digits.zipIdx := List.nil_prefix
      rw [deliverDtmf_of_not_asksModem hsome hmodem hasks, exact_playTones_iff hpre hmethods,
        clean_iff_of_plays (hplays.mpr hmethods)]
      simp [hasks, dtmfDigits]

/-- `auto`, a modem that takes the first of two digits, and an empty queue. -/
def halfway : Line where
  failedHere := false
  hasTarget := true
  connects := true
  accepts i := i == 0
  queue := some ⟨0, Nat.zero_le _⟩

/-- The first digit is sent by the modem, and then played once more. -/
theorem halfway_twice :
    (Sample.config false).dtmfMethod ≠ .none ∧
      ¬ (halfway.deliverDtmf (Sample.config false) "12").Exact "12" := by
  have htwice : (halfway.deliverDtmf (Sample.config false) "12").delivered.map Prod.snd = [0, 0, 1] := by
    decide
  refine ⟨nofun, fun h ↦ ?_⟩
  have horder := h.inOrderOnce
  rw [InOrderOnce, htwice] at horder
  exact absurd horder (by decide)

/-- `auto`, a call whose modem has refused a digit, and room for one tone. -/
def nearlyFull : Line where
  failedHere := true
  hasTarget := true
  connects := true
  accepts _ := false
  queue := some ⟨maxToneSamples - 1600, Nat.sub_le _ _⟩

theorem exact_deliverDtmf_nearlyFull :
    (nearlyFull.deliverDtmf (Sample.config false) "5").Exact "5" ↔
      nearlyFull.Clean (Sample.config false) "5" :=
  Line.exact_deliverDtmf_iff (by decide) nearlyFull "5"

/-- Of two digits one is played, and the answer is yes. -/
example : (nearlyFull.deliverDtmf (Sample.config false) "57").ok = true ∧
    (nearlyFull.deliverDtmf (Sample.config false) "57").delivered = [('5', 0)] := by decide

/-! ## In the gateway -/

/-- What a state finds, if this is the queue of its media session. -/
def lineOf (g : State) (env : Env) (queue : ToneQueue) : Line where
  failedHere := g.call.any ActiveCall.dtmfViaModemFailed
  hasTarget := (g.call.bind ActiveCall.mmPath).isSome && g.modem.isSome
  connects := true
  accepts i := env.sendDtmfOk (g.log.length + i)
  queue := if (g.call.bind ActiveCall.media).isSome then some queue else none

/-- The digits that an entry of the log sends towards the mobile side. -/
def delivers (e : Nat × Entry) : Str :=
  match e.2 with
  | .sendDtmf _ digit true => [digit]
  | .playTones digits queued => (digits.filter isDtmf).take queued
  | _ => []

/-- The answer is that of the delivery, and what it has delivered is in the log. -/
structure Agrees (g : State) (result : State × Bool) (d : Delivery) : Prop where
  ok : result.2 = d.ok
  log : result.1.log.flatMap delivers = g.log.flatMap delivers ++ (d.viaModem ++ d.inBand).map Prod.fst

variable {cfg : Config} {env : Env}

theorem sendDtmf_eq (env : Env) (path : Path) (g : State) (ds : List Placed) :
    (g.sendDtmf env path (ds.map Prod.fst)).2 = (sendEach (fun i ↦ env.sendDtmfOk (g.log.length + i)) ds).2 ∧
      (g.sendDtmf env path (ds.map Prod.fst)).1.log.flatMap delivers = g.log.flatMap delivers ++
        (sendEach (fun i ↦ env.sendDtmfOk (g.log.length + i)) ds).1.map Prod.fst := by
  induction ds generalizing g with
  | nil => exact ⟨rfl, (List.append_nil _).symm⟩
  | cons d ds ih =>
      rw [List.map_cons, State.sendDtmf, sendEach_cons, Nat.add_zero]
      cases hok : env.sendDtmfOk g.log.length with
      | true =>
          obtain ⟨htail, hlog⟩ := ih (g.emit (.sendDtmf path d.1 true))
          simp only [State.emit_log, List.length_append, List.length_singleton, Nat.add_assoc,
            Nat.add_comm 1] at htail hlog
          rw [if_pos rfl, if_pos rfl]
          refine ⟨htail, hlog.trans ?_⟩
          rw [List.flatMap_append, List.append_assoc]
          rfl
      | false =>
          rw [if_neg Bool.false_ne_true, if_neg Bool.false_ne_true, State.emit_log, List.flatMap_append]
          exact ⟨rfl, rfl⟩

/-- What is queued has the first of the DTMF digits of the string. -/
theorem map_sendDtmfInband (queue : ToneQueue) (digits : Str) :
    (sendDtmfInband cfg queue digits.zipIdx).2.map Prod.fst =
      (digits.filter isDtmf).take (sendDtmfInband cfg queue digits.zipIdx).2.length := by
  have hpre : (sendDtmfInband cfg queue digits.zipIdx).2 <+: dtmfDigits digits.zipIdx :=
    dtmfDigits_filter digits.zipIdx ▸ ToneQueue.playFrom_initial _ _ queue _
  have hmap : (dtmfDigits digits.zipIdx).map Prod.fst = digits.filter isDtmf := by
    rw [dtmfDigits, ← Function.comp_def isDtmf, ← List.filter_map, List.zipIdx_map_fst]
  have htake := List.prefix_iff_eq_take.mp (hpre.map Prod.fst)
  rwa [hmap, List.length_map] at htake

/-- The tones that a state plays are those of the queue. -/
theorem playTones_agrees {g g' : State} {queue : ToneQueue} {l : Line} {digits : Str} {accepted : List Placed}
    (hlog : g'.log.flatMap delivers = g.log.flatMap delivers ++ accepted.map Prod.fst)
    (hqueue : l.queue = if (g'.call.bind ActiveCall.media).isSome then some queue else none)
    (htones : env.tonesQueued digits = (sendDtmfInband cfg queue digits.zipIdx).2.length) :
    Agrees g (g'.playTones cfg env digits) (l.playTones cfg digits.zipIdx accepted) := by
  have hsilent : g'.log.flatMap delivers = g.log.flatMap delivers ++ (accepted ++ []).map Prod.fst := by
    rw [hlog, List.append_nil]
  rw [State.playTones, Line.playTones]
  split
  · rw [hqueue]
    split
    · refine ⟨by rw [htones], ?_⟩
      rw [State.emit_log, List.flatMap_append, hlog, List.map_append, map_sendDtmfInband, ← htones,
        List.append_assoc, List.flatMap_singleton]
      rfl
    · exact ⟨rfl, hsilent⟩
  · exact ⟨rfl, hsilent⟩

/-- What comes of asking the modem, and of the tones that stand in for it. -/
theorem asked_agrees {g : State} {queue : ToneQueue} {digits : Str} (path : Path)
    (htones : env.tonesQueued digits = (sendDtmfInband cfg queue digits.zipIdx).2.length) :
    Agrees g
      (if (g.sendDtmf env path (digits.filter fun c ↦ !isWhitespace c)).2 then
        ((g.sendDtmf env path (digits.filter fun c ↦ !isWhitespace c)).1, true)
      else if cfg.dtmfMethod = .modem then
        ((g.sendDtmf env path (digits.filter fun c ↦ !isWhitespace c)).1, false)
      else
        ((g.sendDtmf env path (digits.filter fun c ↦ !isWhitespace c)).1.updateCall fun c ↦
          { c with dtmfViaModemFailed := true }).playTones cfg env digits)
      (match (lineOf g env queue).sendDtmf digits.zipIdx with
      | (accepted, true) =>
        ⟨true, accepted, [], (lineOf g env queue).failedHere, (lineOf g env queue).queue⟩
      | (accepted, false) =>
        if cfg.dtmfMethod = .modem then
          ⟨false, accepted, [], (lineOf g env queue).failedHere, (lineOf g env queue).queue⟩
        else Line.playTones cfg { lineOf g env queue with failedHere := true } digits.zipIdx accepted) := by
  have hmap : (digits.zipIdx.filter fun d ↦ !isWhitespace d.1).map Prod.fst =
      digits.filter fun c ↦ !isWhitespace c := by
    have hcomp := List.filter_map (p := fun c ↦ !isWhitespace c) (f := Prod.fst) (l := digits.zipIdx)
    rw [List.zipIdx_map_fst] at hcomp
    exact hcomp.symm
  have hsend : (lineOf g env queue).sendDtmf digits.zipIdx =
      sendEach (fun i ↦ env.sendDtmfOk (g.log.length + i))
        (digits.zipIdx.filter fun d ↦ !isWhitespace d.1) := rfl
  obtain ⟨hok, hlog⟩ := sendDtmf_eq env path g
    (digits.zipIdx.filter fun d ↦ !isWhitespace d.1)
  have hcall := g.sendDtmf_call env path (digits.filter fun c ↦ !isWhitespace c)
  rw [hmap, ← hsend] at hok hlog
  rw [hok]
  generalize (lineOf g env queue).sendDtmf digits.zipIdx = sent at hok hlog ⊢
  obtain ⟨accepted, ok⟩ := sent
  have hdone : (g.sendDtmf env path (digits.filter fun c ↦ !isWhitespace c)).1.log.flatMap delivers =
      g.log.flatMap delivers ++ (accepted ++ []).map Prod.fst := by
    rw [List.append_nil]
    exact hlog
  cases ok with
  | true => exact ⟨rfl, hdone⟩
  | false =>
      rw [if_neg Bool.false_ne_true]
      dsimp only
      split
      · exact ⟨rfl, hdone⟩
      · refine playTones_agrees hlog ?_ htones
        rw [State.updateCall_call, hcall, Option.bind_map]
        rfl

/-- The gateway answers as the line does, and its log has what the line delivers. -/
theorem deliverDtmf_agrees {g : State} {queue : ToneQueue} {digits : Str}
    (htones : env.tonesQueued digits = (sendDtmfInband cfg queue digits.zipIdx).2.length) :
    Agrees g (g.deliverDtmf cfg env digits) ((lineOf g env queue).deliverDtmf cfg digits) := by
  have hnothing : g.log.flatMap delivers = g.log.flatMap delivers ++ ([] : List Placed).map Prod.fst :=
    (List.append_nil _).symm
  have htries : (cfg.dtmfMethod = .modem ∨
      (cfg.dtmfMethod = .auto ∧ (!g.call.any ActiveCall.dtmfViaModemFailed) = true)) =
        (lineOf g env queue).triesModem cfg := by
    rw [Line.triesModem, lineOf, Bool.not_eq_true']
  have htarget : (lineOf g env queue).hasTarget =
    ((g.call.bind ActiveCall.mmPath).isSome && g.modem.isSome) := rfl
  have hplay : Agrees g (g.playTones cfg env digits) ((lineOf g env queue).playTones cfg digits.zipIdx []) :=
    playTones_agrees hnothing rfl htones
  rw [State.deliverDtmf, Line.deliverDtmf]
  split
  · exact ⟨rfl, hnothing⟩
  · dsimp only
    by_cases hmodem : (lineOf g env queue).triesModem cfg
    · rw [if_pos (htries ▸ hmodem), if_pos hmodem]
      cases hpath : g.call.bind ActiveCall.mmPath with
      | none =>
          have hno : ¬ (lineOf g env queue).hasTarget = true := by
            rw [htarget, hpath]
            exact Bool.false_ne_true
          rw [if_neg hno]
          dsimp only
          split
          · exact ⟨rfl, hnothing⟩
          · exact hplay
      | some path =>
          cases hm : g.modem with
          | none =>
              have hno : ¬ (lineOf g env queue).hasTarget = true := by
                rw [htarget, hpath, hm]
                exact Bool.false_ne_true
              rw [if_neg hno]
              dsimp only
              split
              · exact ⟨rfl, hnothing⟩
              · exact hplay
          | some modem =>
              have hhas : (lineOf g env queue).hasTarget = true := by
                rw [htarget, hpath, hm]
                rfl
              rw [if_pos hhas]
              exact asked_agrees path htones
    · rw [if_neg (htries ▸ hmodem), if_neg hmodem]
      exact hplay

end Modem2Sip.Gateway.Dtmf
