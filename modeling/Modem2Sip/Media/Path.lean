import Modem2Sip.Gateway.Latch
import Modem2Sip.Media.Detector
import Modem2Sip.Media.G711
import Modem2Sip.Media.Rtp
import Modem2Sip.Media.TelephoneEvent
import Modem2Sip.Media.Tones

/-!
# The way of the audio

The two loops of a `MediaSession` in `media.rs`, with the side of `AudioRings` that the sender takes from:
`sender_loop` makes a packet of every period of the card, and `receiver_loop` lets the card play what is in
the packets that it gets.  Between two of them is a network that loses packets, repeats them and changes their
order, and on which others send datagrams, too.
-/

namespace Modem2Sip.Media

open Net Gateway Gateway.Dtmf

/-! ## From the card to the network -/

/-- `AudioRings`, the side of the network. -/
structure ToNetwork where
  ring : List Sample
  target : Nat
  highWater : Nat
  /-- `uplink_energy` and `uplink_frames`. -/
  energy : Nat
  frames : Nat

namespace ToNetwork

/-- `push_from_card`. -/
def pushFromCard (r : ToNetwork) (samples : List Sample) : ToNetwork :=
  let ring := r.ring ++ samples
  { r with ring := if r.highWater < ring.length then ring.drop (ring.length - r.target) else ring }

/-- The sum of the levels, which saturates. -/
def frameEnergy (pcm : List Sample) : Nat :=
  pcm.foldl (fun energy s ↦ min (energy + s.toInt.natAbs) (2 ^ 32 - 1)) 0

/-- `take_for_network`. -/
def takeForNetwork (r : ToNetwork) (n : Nat) : List Sample × ToNetwork :=
  let out := Rings.takePadded n r.ring
  (out,
    { r with
      ring := r.ring.drop n
      energy := (r.energy + frameEnergy out / max n 1) % 2 ^ 32
      frames := (r.frames + 1) % 2 ^ 32 })

end ToNetwork

/-- What the header of the next packet says. -/
structure Stream where
  seq : UInt16
  timestamp : UInt32
  ssrc : UInt32
  marker : Bool
deriving DecidableEq, Repr

namespace Stream

def packet (s : Stream) (payloadType : UInt8) (payload : List UInt8) : List UInt8 :=
  0x80 :: (if s.marker then 0x80 ||| payloadType else payloadType) ::
    (toBe16 s.seq.toNat ++ toBe32 s.timestamp.toNat ++ toBe32 s.ssrc.toNat ++ payload)

def next (s : Stream) (samplesPerPacket : Nat) : Stream :=
  { s with
    seq := s.seq + 1
    timestamp := s.timestamp + .ofNat samplesPerPacket
    marker := false }

end Stream

/-- `Codec::payload_type`. -/
def Law.payloadType : Law → UInt8
  | .ulaw => 0
  | .alaw => 8

/-! ## A session -/

/-- `MediaConfig`.  The period is one that `Config::validate` lets pass. -/
structure LegConfig where
  law : Law
  ptimeMs : Nat
  ptimeMs_pos : 1 ≤ ptimeMs
  ptimeMs_le : ptimeMs ≤ 200
  dtmfPt : Option UInt8
  symmetric : Bool
  detectInbandDtmf : Bool

def LegConfig.samplesPerPacket (cfg : LegConfig) : Nat := rtpRate * cfg.ptimeMs / 1000

/-- The variables of both loops, and what they share. -/
structure Leg where
  session : Session
  rings : Rings
  toNetwork : ToNetwork
  stream : Stream
  detector : Detector
  /-- The digits that went to `inband_dtmf_tx`. -/
  inbandDigits : List Char
  buf : List UInt8
  buf_length : buf.length = bufferLength
  lastDtmfTs : Option Nat
  /-- The digits that went to `dtmf_tx`. -/
  digits : List Char

/-- Can anything be sent there? -/
def usable (dest : SocketAddr) : Bool := dest.port ≠ 0 && !dest.ip.isUnspecified

namespace Leg

variable (detect : List Sample → Option Char) (cfg : LegConfig)

/-- A round of `sender_loop`, and the datagram that is sent.  `detect` is `detect_dtmf_detailed`. -/
def tick (leg : Leg) : Leg × Option (SocketAddr × List UInt8) :=
  let (pcm, toNetwork) := leg.toNetwork.takeForNetwork cfg.samplesPerPacket
  let (detector, heard) := leg.detector.frame cfg.detectInbandDtmf ⟨leg.rings.tone ≠ [], detect pcm⟩
  let inbandDigits :=
    match heard with
    | .hit d true => leg.inbandDigits ++ [d]
    | _ => leg.inbandDigits
  let packet := leg.stream.packet cfg.law.payloadType (encode cfg.law pcm)
  let dest := leg.session.media.remote
  ({ leg with toNetwork, detector, inbandDigits, stream := leg.stream.next cfg.samplesPerPacket },
    if usable dest then some (dest, packet) else none)

/-- A datagram is read into the buffer. -/
def fill (leg : Leg) (bytes : List UInt8) : Leg :=
  { leg with
    buf := bytes.take bufferLength ++ leg.buf.drop bytes.length
    buf_length := by
      have hlength := leg.buf_length
      rw [List.length_append, List.length_take, List.length_drop]
      omega }

/-- What is done with a payload. -/
def make (leg : Leg) (passed : Passed) : Leg :=
  match dispatch cfg.law.payloadType cfg.dtmfPt leg.lastDtmfTs passed with
  | (lastDtmfTs, .digit d) => { leg with lastDtmfTs, digits := leg.digits ++ [d] }
  | (lastDtmfTs, .audio payload) =>
    { leg with lastDtmfTs, rings := leg.rings.pushFromNetwork (decode cfg.law payload) }
  | (lastDtmfTs, .nothing) => { leg with lastDtmfTs }

/-- Does the receiver wait for a datagram, and would it listen to one from there? -/
def hears (leg : Leg) (src : SocketAddr) : Bool :=
  leg.session.pending.isNone && leg.session.media.accepts src

/-- A round of `receiver_loop`, but for its second look at the signalled address.  That is a step of its
own, which has nothing to do with what becomes of the payload. -/
def receive (leg : Leg) (now : Nat) (src : SocketAddr) (bytes : List UInt8) : Leg :=
  if leg.session.pending.isSome then leg
  else
    let len := (bytes.take bufferLength).length
    let filled := leg.fill bytes
    if !leg.session.media.accepts src then filled
    else
      let seen := { filled with
        session := leg.session.step cfg.symmetric (.packet now src (bytes.take bufferLength)) }
      match unframe seen.buf len with
      | .ok (some passed) => seen.make cfg passed
      | _ => seen

end Leg

/-- What else happens to a session. -/
inductive LegEvent where
  /-- `push_from_card`. -/
  | fromCard (samples : List Sample)
  /-- `take_for_card`. -/
  | toCard (n : Nat)
  | queueTone (samples : List Sample)
  | setRemote (addr : SocketAddr)
  | resetSilence (now : Nat)
  /-- The second look of `receiver_loop`. -/
  | latch

def Leg.apply (cfg : LegConfig) (leg : Leg) : LegEvent → Leg
  | .fromCard samples => { leg with toNetwork := leg.toNetwork.pushFromCard samples }
  | .toCard n => { leg with rings := (leg.rings.takeForCard n).2 }
  | .queueTone samples => { leg with rings := (leg.rings.queueTone samples).getD leg.rings }
  | .setRemote addr => { leg with session := leg.session.step cfg.symmetric (.setRemote addr) }
  | .resetSilence now => { leg with session := { leg.session with media := leg.session.media.stamp now } }
  | .latch => { leg with session := leg.session.step cfg.symmetric .latch }

/-! ## Two sessions and a network -/

/-- A session that sends, one that receives, and all datagrams that the one has sent. -/
structure Path where
  near : Leg
  far : Leg
  wire : List (List UInt8)

inductive PathEvent where
  | near (e : LegEvent)
  | far (e : LegEvent)
  | tick
  /-- The other session sends, too. -/
  | farTick
  | toNear (now : Nat) (src : SocketAddr) (bytes : List UInt8)
  /-- A datagram comes to the other side; not for the first time, maybe. -/
  | deliver (now i : Nat)
  /-- So does one that is from somebody else. -/
  | stray (now : Nat) (src : SocketAddr) (bytes : List UInt8)

namespace Path

variable (detect : List Sample → Option Char) (cfg cfg' : LegConfig) (src : SocketAddr)

/-- The datagrams of the near side come from `src`, as the far side sees it. -/
def step (p : Path) : PathEvent → Path
  | .near e => { p with near := p.near.apply cfg e }
  | .far e => { p with far := p.far.apply cfg' e }
  | .tick =>
    let (near, sent) := p.near.tick detect cfg
    { p with near, wire := p.wire ++ sent.toList.map Prod.snd }
  | .farTick => { p with far := (p.far.tick detect cfg').1 }
  | .toNear now src bytes => { p with near := p.near.receive cfg now src bytes }
  | .deliver now i => { p with far := (p.wire[i]?).elim p.far (p.far.receive cfg' now src) }
  | .stray now src bytes => { p with far := p.far.receive cfg' now src bytes }

/-- Nobody else sends from the host that the far side was told of. -/
def Unspoofed (p : Path) : PathEvent → Prop
  | .stray _ src _ => p.far.session.media.accepts src = false
  | _ => True

end Path

/-! ## What it is for -/

/-- The way of the audio without packets: what the near side took from its card, period by period, and which
of the periods were sent. -/
structure Audio where
  spoken : ToNetwork
  taken : List (List Sample)
  sent : List Nat
  played : Rings

inductive AudioEvent where
  | speak (samples : List Sample)
  | take (send : Bool)
  | hear (i : Nat)
  | play (n : Nat)
  | tone (samples : List Sample)
  | nothing

namespace Audio

/-- A period that was sent. -/
def frame (a : Audio) (k : Nat) : List Sample := (a.taken[k]?).getD []

def step (cfg : LegConfig) (a : Audio) : AudioEvent → Audio
  | .speak samples => { a with spoken := a.spoken.pushFromCard samples }
  | .take send =>
    let (pcm, spoken) := a.spoken.takeForNetwork cfg.samplesPerPacket
    { a with
      spoken
      taken := a.taken ++ [pcm]
      sent := if send then a.sent ++ [a.taken.length] else a.sent }
  | .hear i =>
    { a with
      played := (a.sent[i]?).elim a.played fun k ↦ a.played.pushFromNetwork ((a.frame k).map (hop cfg.law)) }
  | .play n => { a with played := (a.played.takeForCard n).2 }
  | .tone samples => { a with played := (a.played.queueTone samples).getD a.played }
  | .nothing => a

end Audio

/-- What an event means for the audio. -/
def Path.meaning (src : SocketAddr) (p : Path) : PathEvent → AudioEvent
  | .near (.fromCard samples) => .speak samples
  | .tick => .take (usable p.near.session.media.remote)
  | .far (.toCard n) => .play n
  | .far (.queueTone samples) => .tone samples
  | .deliver _ i => if p.far.hears src then .hear i else .nothing
  | _ => .nothing

/-! ## One packet -/

section Packets

variable {cfg cfg' : LegConfig} {leg : Leg} {src : SocketAddr}

/-- The type as a number of seven bits. -/
def Law.number : Law → Fin 128
  | .ulaw => 0
  | .alaw => 8

/-- The packet of a stream, in terms of its fields. -/
def Stream.toPacket (s : Stream) (law : Law) (payload : List UInt8) (hne : payload ≠ []) : Packet where
  marker := s.marker
  payloadType := law.number
  sequence := s.seq
  timestamp := s.timestamp
  ssrc := s.ssrc
  csrc := []
  csrc_le := Nat.zero_le 15
  extension := none
  payload := payload
  payload_ne := hne
  padding := none
  padding_lt := nofun

theorem payloadType_toPacket (s : Stream) (law : Law) (payload : List UInt8) (hne : payload ≠ []) :
    UInt8.ofNat (s.toPacket law payload hne).payloadType = law.payloadType := by
  cases law with
  | ulaw => rfl
  | alaw => rfl

theorem secondByte_audio (marker : Bool) (law : Law) :
    (if marker then 0x80 ||| law.payloadType else law.payloadType) =
      Packet.secondByte marker law.number := by
  cases law with
  | ulaw => cases marker <;> decide
  | alaw => cases marker <;> decide

theorem packet_eq_encode (s : Stream) (law : Law) (payload : List UInt8) (hne : payload ≠ []) :
    s.packet law.payloadType payload = (s.toPacket law payload hne).encode := by
  unfold Stream.packet
  rw [secondByte_audio]
  simp only [Packet.encode, Packet.fixed, Packet.sources, Packet.extended, Packet.padded, Stream.toPacket,
    List.flatMap_nil, Option.map_none, Option.getD_none, List.append_nil, List.append_assoc,
    List.cons_append, List.nil_append, List.length_nil, Option.isSome_none]
  rfl

theorem length_packet (s : Stream) (payloadType : UInt8) (payload : List UInt8) :
    (s.packet payloadType payload).length = 12 + payload.length := by
  simp only [Stream.packet, List.length_cons, List.length_append, length_toBe16, length_toBe32]
  omega

theorem length_encode (law : Law) (pcm : List Sample) : (encode law pcm).length = pcm.length := by
  cases law with
  | ulaw => exact List.length_map ..
  | alaw => exact List.length_map ..

/-- A datagram that is listened to, and is a packet. -/
theorem Leg.receive_of_hears {now : Nat} {bytes : List UInt8} {passed : Passed}
    (hhears : leg.hears src = true)
    (hunframe : unframe (leg.fill bytes).buf (bytes.take bufferLength).length = .ok (some passed)) :
    ∃ session, leg.receive cfg now src bytes = ({ leg.fill bytes with session } : Leg).make cfg passed := by
  obtain ⟨hpending, haccepts⟩ := Bool.and_eq_true_iff.mp hhears
  have hidle : ¬ leg.session.pending.isSome = true := by
    rw [Option.isNone_iff_eq_none.mp hpending]
    exact Bool.false_ne_true
  refine ⟨leg.session.step cfg.symmetric (.packet now src (bytes.take bufferLength)), ?_⟩
  unfold Leg.receive
  rw [if_neg hidle, if_neg (by rw [haccepts]; exact Bool.false_ne_true)]
  dsimp only
  rw [hunframe]

theorem Leg.make_audio {passed : Passed} (htype : passed.payloadType = cfg.law.payloadType)
    (hpt : cfg.dtmfPt ≠ some cfg.law.payloadType) :
    leg.make cfg passed =
      { leg with rings := leg.rings.pushFromNetwork (decode cfg.law passed.payload) } := by
  unfold Leg.make dispatch
  rw [htype, if_neg hpt.symm, if_neg (not_not.mpr rfl)]

/-- A packet of audio that is listened to is played as its samples were, up to the coding. -/
theorem Leg.receive_packet {now : Nat} (hhears : leg.hears src = true) (s : Stream) {pcm : List Sample}
    (hne : pcm ≠ []) (hle : 12 + pcm.length ≤ bufferLength) (hpt : cfg.dtmfPt ≠ some cfg.law.payloadType) :
    (leg.receive cfg now src (s.packet cfg.law.payloadType (encode cfg.law pcm))).rings =
        leg.rings.pushFromNetwork (pcm.map (hop cfg.law)) ∧
      (leg.receive cfg now src (s.packet cfg.law.payloadType (encode cfg.law pcm))).digits = leg.digits := by
  have hcoded : encode cfg.law pcm ≠ [] := by
    rw [← List.length_pos_iff, length_encode]
    exact List.length_pos_iff.mpr hne
  have hlength := length_packet s cfg.law.payloadType (encode cfg.law pcm)
  rw [length_encode] at hlength
  have htake : (s.packet cfg.law.payloadType (encode cfg.law pcm)).take bufferLength =
      s.packet cfg.law.payloadType (encode cfg.law pcm) := List.take_of_length_le (hlength ▸ hle)
  have hunframe : ∃ passed, unframe (leg.fill (s.packet cfg.law.payloadType (encode cfg.law pcm))).buf
      ((s.packet cfg.law.payloadType (encode cfg.law pcm)).take bufferLength).length = .ok (some passed) ∧
        passed.payloadType = cfg.law.payloadType ∧ passed.payload = encode cfg.law pcm := by
    unfold Leg.fill
    dsimp only
    rw [htake, packet_eq_encode s cfg.law _ hcoded]
    exact ⟨_, (s.toPacket cfg.law _ hcoded).unframe_encode _, payloadType_toPacket s cfg.law _ hcoded, rfl⟩
  obtain ⟨passed, hunframe, htype, hpayload⟩ := hunframe
  obtain ⟨session, hreceive⟩ : ∃ session, leg.receive cfg now src _ =
      ({ leg.fill _ with session } : Leg).make cfg passed := Leg.receive_of_hears hhears hunframe
  rw [hreceive, Leg.make_audio htype hpt, hpayload, decode_encode]
  exact ⟨rfl, rfl⟩

/-- A datagram from a host that is not listened to is only read. -/
theorem Leg.receive_unheard {now : Nat} {bytes : List UInt8} (hhears : leg.hears src = false) :
    (leg.receive cfg now src bytes).rings = leg.rings ∧
      (leg.receive cfg now src bytes).digits = leg.digits ∧
      (leg.receive cfg now src bytes).session = leg.session := by
  unfold Leg.receive
  split
  · exact ⟨rfl, rfl, rfl⟩
  · rename_i hpending
    have haccepts : leg.session.media.accepts src = false := by
      unfold Leg.hears at hhears
      cases hcase : leg.session.pending with
      | none => rwa [hcase] at hhears
      | some src' => exact absurd (by rw [hcase]; rfl) hpending
    rw [haccepts]
    exact ⟨rfl, rfl, rfl⟩

/-- What comes in leaves what goes out as it is. -/
theorem Leg.receive_sender (now : Nat) (bytes : List UInt8) :
    (leg.receive cfg now src bytes).toNetwork = leg.toNetwork ∧
      (leg.receive cfg now src bytes).stream = leg.stream := by
  have hmake (leg : Leg) (passed : Passed) :
      (leg.make cfg passed).toNetwork = leg.toNetwork ∧ (leg.make cfg passed).stream = leg.stream := by
    unfold Leg.make
    split
    · exact ⟨rfl, rfl⟩
    · exact ⟨rfl, rfl⟩
    · exact ⟨rfl, rfl⟩
  unfold Leg.receive
  dsimp only
  split
  · exact ⟨rfl, rfl⟩
  split
  · exact ⟨rfl, rfl⟩
  split
  · exact hmake _ _
  · exact ⟨rfl, rfl⟩

end Packets

/-! ## One event after the other -/

namespace Stream

/-- The header of a later packet. -/
def nth (s : Stream) (n k : Nat) : Stream where
  seq := s.seq + .ofNat k
  timestamp := s.timestamp + .ofNat (k * n)
  ssrc := s.ssrc
  marker := s.marker && k == 0

theorem nth_zero (s : Stream) (n : Nat) : s.nth n 0 = s := by
  cases s with
  | mk seq timestamp ssrc marker => simp [nth]

theorem next_nth (s : Stream) (n k : Nat) : (s.nth n k).next n = s.nth n (k + 1) := by
  unfold next nth
  rw [Stream.mk.injEq]
  refine ⟨?_, ?_, rfl, ?_⟩
  · rw [UInt16.ofNat_add, ← UInt16.add_assoc]
    rfl
  · rw [Nat.succ_mul, UInt32.ofNat_add, ← UInt32.add_assoc]
  · rw [beq_false_of_ne (Nat.succ_ne_zero k), Bool.and_false]

end Stream

/-- The path does for the audio what it is for.  The periods that were sent went out as packets in their
order, numbered through with those that were not; and the far side has no other audio, and no digits. -/
structure Carries (cfg : LegConfig) (s : Stream) (digits : List Char) (p : Path) (a : Audio) : Prop where
  spoken : p.near.toNetwork = a.spoken
  stream : p.near.stream = s.nth cfg.samplesPerPacket a.taken.length
  wire : p.wire = a.sent.map fun k ↦
    (s.nth cfg.samplesPerPacket k).packet cfg.law.payloadType (encode cfg.law (a.frame k))
  sorted : a.sent.Pairwise (· < ·)
  sent_lt : ∀ k ∈ a.sent, k < a.taken.length
  length : ∀ pcm ∈ a.taken, pcm.length = cfg.samplesPerPacket
  played : p.far.rings = a.played
  digits : p.far.digits = digits

section Steps

variable {detect : List Sample → Option Char} {cfg cfg' : LegConfig} {src : SocketAddr} {s : Stream}
  {digits : List Char} {p : Path} {a : Audio}

theorem samplesPerPacket_spec (cfg : LegConfig) :
    0 < cfg.samplesPerPacket ∧ 12 + cfg.samplesPerPacket ≤ bufferLength := by
  have hpos := cfg.ptimeMs_pos
  have hle := cfg.ptimeMs_le
  unfold LegConfig.samplesPerPacket rtpRate bufferLength
  omega

theorem Audio.frame_of_lt {k : Nat} (h : k < a.taken.length) (more : List (List Sample)) :
    ({ a with taken := a.taken ++ more } : Audio).frame k = a.frame k := by
  unfold Audio.frame
  rw [List.getElem?_append_left h]

theorem Audio.step_hear (cfg : LegConfig) (a : Audio) (i : Nat) : a.step cfg (.hear i) =
    { a with played := (a.sent[i]?).elim a.played fun k ↦
        a.played.pushFromNetwork ((a.frame k).map (hop cfg.law)) } := rfl

/-- The period that is taken last. -/
theorem Audio.frame_concat (a : Audio) (spoken : ToNetwork) (pcm : List Sample) (sent : List Nat) :
    ({ a with spoken, taken := a.taken ++ [pcm], sent } : Audio).frame a.taken.length = pcm := by
  unfold Audio.frame
  rw [List.getElem?_concat_length]
  rfl

theorem pairwise_concat {l : List Nat} {n : Nat} (hsorted : l.Pairwise (· < ·)) (hlt : ∀ k ∈ l, k < n) :
    (l ++ [n]).Pairwise (· < ·) := by
  refine List.pairwise_append.mpr ⟨hsorted, List.pairwise_singleton _ _, ?_⟩
  intro k hk n' hn'
  rw [List.mem_singleton.mp hn']
  exact hlt k hk

/-- A period is taken, and sent or not. -/
theorem Carries.tick (h : Carries cfg s digits p a) :
    Carries cfg s digits (p.step detect cfg cfg' src .tick)
      (a.step cfg (.take (usable p.near.session.media.remote))) := by
  have hpcm : (a.spoken.takeForNetwork cfg.samplesPerPacket).1.length = cfg.samplesPerPacket :=
    Rings.length_takePadded cfg.samplesPerPacket a.spoken.ring
  have hold : p.wire = a.sent.map fun k ↦ (s.nth cfg.samplesPerPacket k).packet cfg.law.payloadType
      (encode cfg.law (({ a with
        taken := a.taken ++ [(a.spoken.takeForNetwork cfg.samplesPerPacket).1] } : Audio).frame k)) := by
    rw [h.wire]
    refine List.map_congr_left fun k hk ↦ ?_
    rw [Audio.frame_of_lt (h.sent_lt k hk)]
  have hlt : ∀ k ∈ a.sent, k < (a.taken ++ [(a.spoken.takeForNetwork cfg.samplesPerPacket).1]).length := by
    intro k hk
    rw [List.length_append]
    exact (h.sent_lt k hk).trans_le (Nat.le_add_right _ _)
  refine ⟨?_, ?_, ?_, ?_, ?_, ?_, h.played, h.digits⟩
  · change (p.near.toNetwork.takeForNetwork cfg.samplesPerPacket).2 = _
    rw [h.spoken]
    rfl
  · change p.near.stream.next cfg.samplesPerPacket = s.nth _ (a.taken ++ [_]).length
    rw [h.stream, Stream.next_nth, List.length_append, List.length_singleton]
  · change p.wire ++ (if usable p.near.session.media.remote then some (p.near.session.media.remote,
      p.near.stream.packet cfg.law.payloadType (encode cfg.law
        (p.near.toNetwork.takeForNetwork cfg.samplesPerPacket).1)) else none).toList.map Prod.snd = _
    cases usable p.near.session.media.remote with
    | false => exact (List.append_nil _).trans hold
    | true =>
        change p.wire ++ [_] = List.map _ (a.sent ++ [a.taken.length])
        rw [List.map_append, hold, h.stream, h.spoken]
        exact congrArg (_ ++ [·]) (congrArg (fun pcm ↦ Stream.packet _ _ (encode cfg.law pcm))
          (a.frame_concat _ _ _).symm)
  · change (if usable p.near.session.media.remote then a.sent ++ [a.taken.length] else a.sent).Pairwise _
    split
    · exact pairwise_concat h.sorted h.sent_lt
    · exact h.sorted
  · change ∀ k ∈ if usable p.near.session.media.remote then a.sent ++ [a.taken.length] else a.sent, _
    split
    · refine List.forall_mem_append.mpr ⟨hlt, List.forall_mem_singleton.mpr ?_⟩
      change a.taken.length < (a.taken ++ [_]).length
      rw [List.length_append]
      exact Nat.lt_succ_self _
    · exact hlt
  · exact List.forall_mem_append.mpr ⟨h.length, List.forall_mem_singleton.mpr hpcm⟩

/-- Something happens on the far side only. -/
theorem Carries.far (h : Carries cfg s digits p a) {far : Leg} {played : Rings} (hplayed : far.rings = played)
    (hdigits : far.digits = p.far.digits) : Carries cfg s digits { p with far } { a with played } :=
  ⟨h.spoken, h.stream, h.wire, h.sorted, h.sent_lt, h.length, hplayed, hdigits.trans h.digits⟩

/-- Something happens on the near side that has nothing to do with what it sends. -/
theorem Carries.near (h : Carries cfg s digits p a) {near : Leg} {spoken : ToNetwork}
    (hspoken : near.toNetwork = spoken) (hstream : near.stream = p.near.stream) :
    Carries cfg s digits { p with near } { a with spoken } :=
  ⟨hspoken, hstream.trans h.stream, h.wire, h.sorted, h.sent_lt, h.length, h.played, h.digits⟩

/-- A datagram of the near side is played, if the far side listens. -/
theorem Carries.deliver (h : Carries cfg s digits p a) (hlaw : cfg'.law = cfg.law)
    (hpt : cfg'.dtmfPt ≠ some cfg.law.payloadType) (now i : Nat) :
    Carries cfg s digits (p.step detect cfg cfg' src (.deliver now i))
      (a.step cfg (p.meaning src (.deliver now i))) := by
  have hwire : p.wire[i]? = (a.sent[i]?).map fun k ↦ (s.nth cfg.samplesPerPacket k).packet
      cfg.law.payloadType (encode cfg.law (a.frame k)) := h.wire ▸ List.getElem?_map ..
  unfold Path.step Path.meaning
  dsimp only
  rw [hwire]
  cases hi : a.sent[i]? with
  | none =>
      cases p.far.hears src with
      | false => exact h.far h.played rfl
      | true =>
          rw [if_pos rfl, Audio.step_hear, hi]
          exact h.far h.played rfl
  | some k =>
      rw [Option.map_some, Option.elim_some]
      cases hhears : p.far.hears src with
      | false =>
          obtain ⟨hrings, hdigits, -⟩ := Leg.receive_unheard hhears
          exact h.far (hrings.trans h.played) hdigits
      | true =>
          have hk := h.sent_lt k (List.mem_of_getElem? hi)
          have hframe : a.frame k ∈ a.taken := by
            unfold Audio.frame
            rw [List.getElem?_eq_getElem hk]
            exact List.getElem_mem hk
          have hlength := h.length _ hframe
          obtain ⟨hpos, hle⟩ := samplesPerPacket_spec cfg
          rw [← hlaw] at hpt ⊢
          obtain ⟨hrings, hdigits⟩ := Leg.receive_packet hhears (s.nth cfg.samplesPerPacket k)
            (List.length_pos_iff.mp (hlength ▸ hpos)) (hlength ▸ hle) hpt
          rw [if_pos rfl, Audio.step_hear, hi]
          refine h.far (hrings.trans ?_) hdigits
          rw [h.played, hlaw]
          rfl

/-- The other events. -/
theorem Carries.step (h : Carries cfg s digits p a) (hlaw : cfg'.law = cfg.law)
    (hpt : cfg'.dtmfPt ≠ some cfg.law.payloadType) (e : PathEvent) (he : p.Unspoofed e) :
    Carries cfg s digits (p.step detect cfg cfg' src e) (a.step cfg (p.meaning src e)) := by
  cases e with
  | near e =>
      cases e with
      | fromCard samples => exact h.near (congrArg (ToNetwork.pushFromCard · samples) h.spoken) rfl
      | toCard n => exact h.near h.spoken rfl
      | queueTone samples => exact h.near h.spoken rfl
      | setRemote addr => exact h.near h.spoken rfl
      | resetSilence now => exact h.near h.spoken rfl
      | latch => exact h.near h.spoken rfl
  | far e =>
      cases e with
      | fromCard samples => exact h.far h.played rfl
      | toCard n => exact h.far (congrArg (fun r ↦ (Rings.takeForCard r n).2) h.played) rfl
      | queueTone samples => exact h.far (congrArg (fun r ↦ (Rings.queueTone r samples).getD r) h.played) rfl
      | setRemote addr => exact h.far h.played rfl
      | resetSilence now => exact h.far h.played rfl
      | latch => exact h.far h.played rfl
  | tick => exact h.tick
  | farTick => exact h.far h.played rfl
  | toNear now from' bytes =>
      obtain ⟨hnetwork, hstream⟩ := Leg.receive_sender now bytes
      exact h.near (hnetwork.trans h.spoken) hstream
  | deliver now i => exact h.deliver hlaw hpt now i
  | stray now from' bytes =>
      have hhears : p.far.hears from' = false := by
        unfold Leg.hears
        rw [show p.far.session.media.accepts from' = false from he, Bool.and_false]
      obtain ⟨hrings, hdigits, -⟩ := Leg.receive_unheard hhears
      exact h.far (hrings.trans h.played) hdigits

end Steps

/-- The path, and what it means for the audio. -/
def Path.both (detect : List Sample → Option Char) (cfg cfg' : LegConfig) (src : SocketAddr)
    (r : Path × Audio) (e : PathEvent) : Path × Audio :=
  (r.1.step detect cfg cfg' src e, r.2.step cfg (r.1.meaning src e))

/-- Where both are before the first event. -/
def Path.start (near far : Leg) : Path × Audio :=
  (⟨near, far, []⟩, ⟨near.toNetwork, [], [], far.rings⟩)

abbrev Carried (cfg : LegConfig) (s : Stream) (digits : List Char) (r : Path × Audio) : Prop :=
  Carries cfg s digits r.1 r.2

/-- Whatever the network does to the packets, and whatever it brings from other hosts: the far side plays the
periods that the near side took from its card and that come through, as often and in the order in which they
come, each of them once through the codec; and nothing else. -/
theorem path_carries (detect : List Sample → Option Char) {cfg cfg' : LegConfig} (hlaw : cfg'.law = cfg.law)
    (hpt : cfg'.dtmfPt ≠ some cfg.law.payloadType) (src : SocketAddr) (near far : Leg) {es : List PathEvent}
    (h : Run.Guarded (Path.both detect cfg cfg' src) (fun r e ↦ r.1.Unspoofed e) (Path.start near far) es) :
    Carried cfg near.stream far.digits (Run.run (Path.both detect cfg cfg' src) (Path.start near far) es) := by
  have hstep (r : Path × Audio) (e : PathEvent) (hr : Carried cfg near.stream far.digits r)
      (he : r.1.Unspoofed e) : Carried cfg near.stream far.digits (Path.both detect cfg cfg' src r e) :=
    hr.step hlaw hpt e he
  refine h.invariant hstep ?_
  exact ⟨rfl, (near.stream.nth_zero _).symm, rfl, List.Pairwise.nil, List.forall_mem_nil _,
    List.forall_mem_nil _, rfl, rfl⟩

namespace Sample

/-- A host of a small network. -/
def host (n : Nat) : SocketAddr := ⟨.v4 (ofOctets 192 0 2 n), 16384⟩

def legConfig : LegConfig where
  law := .alaw
  ptimeMs := 1
  ptimeMs_pos := Nat.le_refl 1
  ptimeMs_le := by decide
  dtmfPt := some 101
  symmetric := true
  detectInbandDtmf := false

def leg (remote : SocketAddr) : Leg where
  session := .start 0 remote
  rings := ⟨[], [], 480, 1440, 0, 0, Nat.zero_le _⟩
  toNetwork := ⟨[1000, -1000], 480, 1440, 0, 0⟩
  stream := ⟨65535, 7, 42, true⟩
  detector := .start
  inbandDigits := []
  buf := List.replicate bufferLength 0
  buf_length := List.length_replicate
  lastDtmfTs := none
  digits := []

end Sample

/-- A packet that comes twice, and a datagram of somebody else. -/
theorem path_carries_twice :
    let es := [.tick, .stray 20 (Sample.host 3) [0x80, 8], .deliver 20 0, .far .latch, .deliver 40 0]
    Carried Sample.legConfig ⟨65535, 7, 42, true⟩ [] (Run.run
      (Path.both (fun _ ↦ none) Sample.legConfig Sample.legConfig (Sample.host 1))
      (Path.start (Sample.leg (Sample.host 2)) (Sample.leg (Sample.host 1))) es) :=
  path_carries (fun _ ↦ none) rfl (by decide) (Sample.host 1) (Sample.leg (Sample.host 2))
    (Sample.leg (Sample.host 1)) ⟨trivial, rfl, trivial, trivial, trivial, trivial⟩

end Modem2Sip.Media
