import Mathlib.Data.List.Nodup
import Modem2Sip.Lib.Change
import Modem2Sip.Media.Rtp

/-!
# Telephone events

The second part of `receiver_loop`: what is done with a payload, and which digits the packets of
RFC 2833 events make.  The loop remembers the timestamp of one event.
-/

namespace Modem2Sip.Media

/-- `dtmf_char`. -/
def dtmfChar (event : UInt8) : Option Char :=
  if event ≤ 9 then some (.ofNat ('0'.toNat + event.toNat))
  else if event = 10 then some '*'
  else if event = 11 then some '#'
  else if event ≤ 15 then some (.ofNat ('A'.toNat + (event.toNat - 12)))
  else none

/-- What a payload makes. -/
inductive Made where
  | nothing
  | digit (d : Char)
  | audio (payload : List UInt8)
deriving DecidableEq, Repr

/-- The end of an iteration of `receiver_loop`, with `last_dtmf_ts`. -/
def dispatch (payloadType : UInt8) (dtmfPt : Option UInt8) (lastDtmfTs : Option Nat) (p : Passed) :
    Option Nat × Made :=
  if some p.payloadType = dtmfPt then
    if 4 ≤ p.payload.length ∧ lastDtmfTs ≠ some p.timestamp then
      match p.payload.head?.bind dtmfChar with
      | some d => (some p.timestamp, .digit d)
      | none => (some p.timestamp, .nothing)
    else (lastDtmfTs, .nothing)
  else if p.payloadType ≠ payloadType then (lastDtmfTs, .nothing)
  else (lastDtmfTs, .audio p.payload)

/-- The digits that are sent to the gateway for the packets, each with the timestamp of its packet. -/
def sentDigits (payloadType : UInt8) (dtmfPt : Option UInt8) : Option Nat → List Passed → List (Nat × Char)
  | _, [] => []
  | last, p :: ps =>
    match dispatch payloadType dtmfPt last p with
    | (last, .digit d) => (p.timestamp, d) :: sentDigits payloadType dtmfPt last ps
    | (last, _) => sentDigits payloadType dtmfPt last ps

/-! ## Events -/

/-- An event of RFC 2833: its packets have one timestamp and one code. -/
structure TelephoneEvent where
  timestamp : Nat
  code : UInt8
  code_le : code ≤ 15

namespace TelephoneEvent

theorem isSome_dtmfChar {code : UInt8} (h : code ≤ 15) : (dtmfChar code).isSome = true := by
  rw [dtmfChar]
  split
  · rfl
  · split
    · rfl
    · split
      · rfl
      · rfl

/-- The digit of an event. -/
def digit (e : TelephoneEvent) : Char := (dtmfChar e.code).get (isSome_dtmfChar e.code_le)

/-- Is the packet one of the burst? -/
structure Has (dtmfPt : UInt8) (e : TelephoneEvent) (p : Passed) : Prop where
  payloadType : p.payloadType = dtmfPt
  timestamp : p.timestamp = e.timestamp
  code : p.payload.head? = some e.code
  length : 4 ≤ p.payload.length

instance (dtmfPt : UInt8) (e : TelephoneEvent) (p : Passed) : Decidable (e.Has dtmfPt p) :=
  decidable_of_iff (p.payloadType = dtmfPt ∧ p.timestamp = e.timestamp ∧ p.payload.head? = some e.code ∧
      4 ≤ p.payload.length)
    ⟨fun ⟨hpt, htime, hcode, hlength⟩ ↦ ⟨hpt, htime, hcode, hlength⟩,
      fun h ↦ ⟨h.payloadType, h.timestamp, h.code, h.length⟩⟩

/-- Packets as they arrive of the bursts of some events: of each event at least one, and otherwise any
number and in any order. -/
structure Bursts (dtmfPt : UInt8) (events : List TelephoneEvent) (arrivals : List Passed) : Prop where
  distinct : (events.map timestamp).Nodup
  of_event : ∀ p ∈ arrivals, ∃ e ∈ events, e.Has dtmfPt p
  arrives : ∀ e ∈ events, ∃ p ∈ arrivals, e.Has dtmfPt p

/-- Exactly one digit is sent for the event, and it is its own. -/
def SentOnce (e : TelephoneEvent) (sent : List (Nat × Char)) : Prop :=
  sent.filter (·.1 = e.timestamp) = [(e.timestamp, e.digit)]

variable {payloadType dtmfPt : UInt8} {e : TelephoneEvent} {p : Passed} {events : List TelephoneEvent}
  {arrivals : List Passed}

/-- A packet of an event has the digit of the event. -/
theorem Has.bind_dtmfChar (h : e.Has dtmfPt p) : p.payload.head?.bind dtmfChar = some e.digit := by
  rw [h.code, Option.bind_some, digit, Option.some_get]

/-- It sends it, unless it was the last packet's event too. -/
theorem dispatch_of_has (h : e.Has dtmfPt p) (last : Option Nat) :
    dispatch payloadType (some dtmfPt) last p =
      if last = some p.timestamp then (last, .nothing) else (some p.timestamp, .digit e.digit) := by
  rw [dispatch, if_pos (congrArg some h.payloadType), h.bind_dtmfChar]
  by_cases hlast : last = some p.timestamp
  · rw [if_pos hlast, if_neg fun hnew ↦ hnew.2 hlast]
  · rw [if_neg hlast, if_pos ⟨h.length, hlast⟩]

/-- The timestamp of a packet and its digit, if it has one. -/
def sentBy (p : Passed) : Nat × Char := (p.timestamp, (p.payload.head?.bind dtmfChar).getD ' ')

theorem sentBy_of_has (h : e.Has dtmfPt p) : sentBy p = (e.timestamp, e.digit) := by
  rw [sentBy, h.bind_dtmfChar, h.timestamp, Option.getD_some]

/-- What is sent are the digits of the packets whose timestamp is not that of the packet before. -/
theorem sentDigits_eq (h : ∀ p ∈ arrivals, ∃ e : TelephoneEvent, e.Has dtmfPt p) (last : Option Nat) :
    sentDigits payloadType (some dtmfPt) last arrivals =
      (Change.changes Passed.timestamp last arrivals).map sentBy := by
  induction arrivals generalizing last with
  | nil => rfl
  | cons p ps ih =>
      obtain ⟨⟨e, he⟩, hps⟩ := List.forall_mem_cons.mp h
      rw [sentDigits, dispatch_of_has he]
      by_cases hlast : last = some p.timestamp
      · rw [if_pos hlast, Change.changes_cons_pos hlast]
        exact ih hps last
      · rw [if_neg hlast, Change.changes_cons_neg hlast, List.map_cons, sentBy_of_has he, he.timestamp]
        exact congrArg (List.cons _) (ih hps _)

/-- A packet with the timestamp of an event is one of it. -/
theorem Bursts.has (h : Bursts dtmfPt events arrivals) (he : e ∈ events) (hp : p ∈ arrivals)
    (htime : p.timestamp = e.timestamp) : e.Has dtmfPt p := by
  obtain ⟨e', he', hhas⟩ := h.of_event p hp
  have heq : e' = e := List.inj_on_of_nodup_map h.distinct he' he (hhas.timestamp.symm.trans htime)
  exact heq ▸ hhas

/-- An event is reported once if the timestamps change to its own once. -/
theorem Bursts.sentOnce_iff_length (h : Bursts dtmfPt events arrivals) (he : e ∈ events) :
    e.SentOnce (sentDigits payloadType (some dtmfPt) none arrivals) ↔
      ((Change.changes Passed.timestamp none arrivals).filter (·.timestamp = e.timestamp)).length = 1 := by
  have hsent : (sentDigits payloadType (some dtmfPt) none arrivals).filter (·.1 = e.timestamp) =
      ((Change.changes Passed.timestamp none arrivals).filter (·.timestamp = e.timestamp)).map sentBy := by
    rw [sentDigits_eq fun p hp ↦ (h.of_event p hp).imp fun e he ↦ he.2, List.filter_map]
    rfl
  rw [SentOnce, hsent]
  constructor
  · intro hone
    rw [← List.length_map sentBy, hone, List.length_singleton]
  · intro hone
    obtain ⟨p, hp⟩ := List.length_eq_one_iff.mp hone
    have hmem : p ∈ (Change.changes Passed.timestamp none arrivals).filter (·.timestamp = e.timestamp) := by
      rw [hp]
      exact List.mem_singleton_self p
    obtain ⟨hmem, htime⟩ := List.mem_filter.mp hmem
    have hhas := h.has he (Change.changes_subset none arrivals hmem) (of_decide_eq_true htime)
    rw [hp, List.map_singleton, sentBy_of_has hhas]

/-- The bursts of any events send each digit exactly once, exactly if no packet of another event
arrives between two packets of one event. -/
theorem sentOnce_iff {payloadType dtmfPt : UInt8} {events : List TelephoneEvent} {arrivals : List Passed}
    (h : Bursts dtmfPt events arrivals) :
    (∀ e ∈ events, e.SentOnce (sentDigits payloadType (some dtmfPt) none arrivals)) ↔
      Change.Together Passed.timestamp arrivals := by
  rw [← Change.length_filter_changes_eq_one_iff]
  constructor
  · intro honce p hp
    obtain ⟨e, he, hhas⟩ := h.of_event p hp
    rw [hhas.timestamp]
    exact (h.sentOnce_iff_length he).mp (honce e he)
  · intro hall e he
    obtain ⟨p, hp, hhas⟩ := h.arrives e he
    rw [h.sentOnce_iff_length he, ← hhas.timestamp]
    exact hall p hp

/-- Two bursts one behind the other. -/
theorem sentOnce_iff_two :
    let p (timestamp : Nat) (code : UInt8) : Passed := ⟨101, timestamp, 12, 16, [code, 0, 0, 160]⟩
    (∀ e ∈ [⟨160, 5, by decide⟩, ⟨960, 15, by decide⟩],
        SentOnce e (sentDigits 8 (some 101) none [p 160 5, p 160 5, p 960 15])) ↔
      Change.Together Passed.timestamp [p 160 5, p 160 5, p 960 15] := by
  intro p
  exact sentOnce_iff ⟨by decide, by decide, by decide⟩

/-- The last packet of an event comes behind the first of the next, and is taken for a new event. -/
theorem not_sentOnce_of_reordered :
    let p (timestamp : Nat) (code : UInt8) : Passed := ⟨101, timestamp, 12, 16, [code, 0, 0, 160]⟩
    let events : List TelephoneEvent := [⟨160, 5, by decide⟩, ⟨960, 7, by decide⟩]
    Bursts 101 events [p 160 5, p 960 7, p 160 5] ∧
      ¬ ∀ e ∈ events, e.SentOnce (sentDigits 8 (some 101) none [p 160 5, p 960 7, p 160 5]) := by
  intro p events
  refine ⟨⟨by decide, by decide, by decide⟩, fun h ↦ ?_⟩
  cases h ⟨160, 5, by decide⟩ List.mem_cons_self

end TelephoneEvent

end Modem2Sip.Media
