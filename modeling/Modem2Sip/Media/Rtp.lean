import Modem2Sip.Lib.Cursor

/-!
# RTP packets

What `receiver_loop` takes out of a datagram: the payload, behind a header of three parts of which
two may be any length, and before the padding.  The buffer is longer than the datagram, and behind it
there is what an earlier one has left.
-/

namespace Modem2Sip.Media

/-! ## The receiver -/

/-- The length of the buffer. -/
def bufferLength : Nat := 2048

/-- An index into the buffer. -/
def byteAt (buf : List UInt8) (i : Nat) : Except Trap UInt8 :=
  match buf[i]? with
  | some b => .ok b
  | none => .error .bounds

def slice (buf : List UInt8) (a b : Nat) : Except Trap (List UInt8) :=
  if a ≤ b ∧ b ≤ buf.length then .ok ((buf.take b).drop a) else .error .bounds

/-- `u16::from_be_bytes`. -/
def fromBe16 (a b : UInt8) : Nat := 2 ^ 8 * a.toNat + b.toNat

/-- `u32::from_be_bytes`. -/
def fromBe32 (a b c d : UInt8) : Nat := 2 ^ 16 * fromBe16 a b + fromBe16 c d

/-- What is passed on: the payload, and where it is in the buffer. -/
structure Passed where
  payloadType : UInt8
  timestamp : Nat
  offset : Nat
  stop : Nat
  payload : List UInt8
deriving DecidableEq, Repr

/-- Where the header ends, if the datagram has so much of it. -/
def headerEnd (buf : List UInt8) (len : Nat) (first : UInt8) : Except Trap (Option Nat) :=
  let offset := 12 + 4 * (first &&& 0x0F).toNat
  if first &&& 0x10 ≠ 0 then
    if len < offset + 4 then .ok none
    else do
      let extWords := fromBe16 (← byteAt buf (offset + 2)) (← byteAt buf (offset + 3))
      .ok (some (offset + (4 + 4 * extWords)))
  else .ok (some offset)

/-- Where the payload ends, if the padding is one that there can be. -/
def payloadEnd (buf : List UInt8) (len offset : Nat) (first : UInt8) : Except Trap (Option Nat) :=
  if first &&& 0x20 ≠ 0 then do
    let pad := (← byteAt buf (len - 1)).toNat
    .ok (if pad = 0 ∨ len - offset < pad then none else some (len - pad))
  else .ok (some len)

/-- What is between the header and the padding. -/
def passOn (buf : List UInt8) (len : Nat) (first payloadType : UInt8) (timestamp : Nat) :
    Except Trap (Option Passed) := do
  match ← headerEnd buf len first with
  | none => .ok none
  | some offset =>
    if len ≤ offset then .ok none
    else
      match ← payloadEnd buf len offset first with
      | none => .ok none
      | some stop => .ok (some ⟨payloadType, timestamp, offset, stop, ← slice buf offset stop⟩)

/-- The part of `receiver_loop` between a datagram and its payload.  `none` is for one that is passed
over. -/
def unframe (buf : List UInt8) (len : Nat) : Except Trap (Option Passed) := do
  if len < 12 then .ok none
  else
    let header ← slice buf 0 12
    let first ← byteAt header 0
    if first >>> 6 ≠ 2 then .ok none
    else
      let payloadType := (← byteAt header 1) &&& 0x7F
      let timestamp := fromBe32 (← byteAt header 4) (← byteAt header 5) (← byteAt header 6) (← byteAt header 7)
      passOn buf len first payloadType timestamp

/-! ## Packets -/

/-- A number in two bytes, the higher one first. -/
def toBe16 (n : Nat) : List UInt8 := [.ofNat (n / 2 ^ 8), .ofNat n]

/-- A number in four bytes. -/
def toBe32 (n : Nat) : List UInt8 := toBe16 (n / 2 ^ 16) ++ toBe16 n

/-- The extension of a header: words of four bytes, and how many. -/
structure Extension where
  profile : UInt16
  words : List UInt32
  words_lt : words.length < 2 ^ 16

def Extension.encode (x : Extension) : List UInt8 :=
  toBe16 x.profile.toNat ++ toBe16 x.words.length ++ x.words.flatMap fun w ↦ toBe32 w.toNat

/-- A packet of version 2.  The padding is given without its last byte, which is its length. -/
structure Packet where
  marker : Bool
  payloadType : Fin 128
  sequence : UInt16
  timestamp : UInt32
  ssrc : UInt32
  csrc : List UInt32
  csrc_le : csrc.length ≤ 15
  extension : Option Extension
  payload : List UInt8
  payload_ne : payload ≠ []
  padding : Option (List UInt8)
  padding_lt : ∀ filler ∈ padding, filler.length < 255

namespace Packet

/-- Version, padding, extension and the number of contributing sources. -/
def firstByte (padding extension : Bool) (csrc : Nat) : UInt8 :=
  .ofNat (0x80 + (if padding then 0x20 else 0) + (if extension then 0x10 else 0) + csrc)

def secondByte (marker : Bool) (payloadType : Fin 128) : UInt8 :=
  .ofNat ((if marker then 0x80 else 0) + payloadType.val)

/-- The twelve bytes that every packet has. -/
def fixed (p : Packet) : List UInt8 :=
  [firstByte p.padding.isSome p.extension.isSome p.csrc.length, secondByte p.marker p.payloadType] ++
    toBe16 p.sequence.toNat ++ toBe32 p.timestamp.toNat ++ toBe32 p.ssrc.toNat

def sources (p : Packet) : List UInt8 := p.csrc.flatMap fun c ↦ toBe32 c.toNat

def extended (p : Packet) : List UInt8 := (p.extension.map Extension.encode).getD []

def padded (p : Packet) : List UInt8 :=
  (p.padding.map fun filler ↦ filler ++ [.ofNat (filler.length + 1)]).getD []

def encode (p : Packet) : List UInt8 := p.fixed ++ p.sources ++ p.extended ++ p.payload ++ p.padded

end Packet

/-! ## Any datagram -/

variable {buf : List UInt8} {len offset : Nat} {first : UInt8}

theorem byteAt_of_lt {i : Nat} (h : i < buf.length) : byteAt buf i = .ok buf[i] := by
  rw [byteAt, List.getElem?_eq_getElem h]

theorem slice_of_le {a b : Nat} (hab : a ≤ b) (hb : b ≤ buf.length) :
    slice buf a b = .ok ((buf.take b).drop a) := if_pos ⟨hab, hb⟩

theorem headerEnd_ok (first : UInt8) (hlen : len ≤ buf.length) :
    ∃ r, headerEnd buf len first = .ok r := by
  rw [headerEnd]
  dsimp only
  split
  · split
    · exact ⟨none, rfl⟩
    · rename_i hshort
      rw [byteAt_of_lt (by omega), byteAt_of_lt (by omega)]
      exact ⟨_, rfl⟩
  · exact ⟨_, rfl⟩

/-- Where the payload ends is behind where it begins, and no further on than the datagram. -/
theorem payloadEnd_ok (first : UInt8) (hoffset : offset < len) (hlen : len ≤ buf.length) :
    ∃ r, payloadEnd buf len offset first = .ok r ∧ ∀ stop ∈ r, offset ≤ stop ∧ stop ≤ len := by
  rw [payloadEnd]
  split
  · rw [byteAt_of_lt (by omega)]
    refine ⟨_, rfl, fun stop hstop ↦ ?_⟩
    split at hstop
    · cases hstop
    · cases hstop
      omega
  · refine ⟨_, rfl, fun stop hstop ↦ ?_⟩
    cases hstop
    omega

theorem passOn_ok (hlen : len ≤ buf.length) (first payloadType : UInt8) (timestamp : Nat) :
    ∃ r, passOn buf len first payloadType timestamp = .ok r ∧
      ∀ p ∈ r, p.offset ≤ p.stop ∧ p.stop ≤ len := by
  have hnone : ∀ p ∈ (none : Option Passed), p.offset ≤ p.stop ∧ p.stop ≤ len :=
    fun p hp ↦ absurd hp (Option.not_mem_none p)
  obtain ⟨start, hstart⟩ := headerEnd_ok first hlen
  rw [passOn, hstart]
  cases start with
  | none => exact ⟨none, rfl, hnone⟩
  | some offset =>
      change ∃ r, ite _ _ _ = Except.ok r ∧ _
      split
      · exact ⟨none, rfl, hnone⟩
      · rename_i hinside
        obtain ⟨stop, hstop, hbounds⟩ := payloadEnd_ok first (Nat.not_le.mp hinside) hlen
        rw [hstop]
        cases stop with
        | none => exact ⟨none, rfl, hnone⟩
        | some stop =>
            obtain ⟨hle, hstop_le⟩ := hbounds stop rfl
            change ∃ r, (slice buf offset stop >>= _) = .ok r ∧ _
            rw [slice_of_le hle (hstop_le.trans hlen)]
            refine ⟨_, rfl, fun p hp ↦ ?_⟩
            cases hp
            exact ⟨hle, hstop_le⟩

/-- Whatever is in the buffer, no index leaves it, and what is passed on was received. -/
theorem unframe_ok (hlen : len ≤ buf.length) :
    ∃ r, unframe buf len = .ok r ∧ ∀ p ∈ r, p.offset ≤ p.stop ∧ p.stop ≤ len := by
  rw [unframe]
  split
  · exact ⟨none, rfl, fun p hp ↦ absurd hp (Option.not_mem_none p)⟩
  · rename_i hshort
    have hheader : ((buf.take 12).drop 0).length = 12 := by
      rw [List.drop_zero, List.length_take]
      omega
    rw [slice_of_le (Nat.zero_le _) (by omega)]
    change ∃ r, (byteAt ((buf.take 12).drop 0) 0 >>= _) = .ok r ∧ _
    generalize (buf.take 12).drop 0 = header at hheader
    rw [byteAt_of_lt (by omega : 0 < header.length)]
    change ∃ r, ite _ _ _ = Except.ok r ∧ _
    split
    · exact ⟨none, rfl, fun p hp ↦ absurd hp (Option.not_mem_none p)⟩
    · rw [byteAt_of_lt (by omega : 1 < header.length), byteAt_of_lt (by omega : 4 < header.length),
        byteAt_of_lt (by omega : 5 < header.length), byteAt_of_lt (by omega : 6 < header.length),
        byteAt_of_lt (by omega : 7 < header.length)]
      exact passOn_ok hlen _ _ _

/-! ## A packet -/

theorem fromBe16_toBe16 (n : Nat) : fromBe16 (.ofNat (n / 2 ^ 8)) (.ofNat n) = n % 2 ^ 16 := by
  rw [fromBe16, UInt8.toNat_ofNat', UInt8.toNat_ofNat']
  omega

theorem fromBe32_toBe32 {n : Nat} (h : n < 2 ^ 32) :
    fromBe32 (.ofNat (n / 2 ^ 16 / 2 ^ 8)) (.ofNat (n / 2 ^ 16)) (.ofNat (n / 2 ^ 8)) (.ofNat n) = n := by
  rw [fromBe32, fromBe16_toBe16, fromBe16_toBe16]
  omega

@[simp] theorem length_toBe16 (n : Nat) : (toBe16 n).length = 2 := rfl

@[simp] theorem length_toBe32 (n : Nat) : (toBe32 n).length = 4 := rfl

/-- What each element takes up is its length times their number. -/
theorem length_flatMap_toBe32 (ws : List UInt32) :
    (ws.flatMap fun w ↦ toBe32 w.toNat).length = 4 * ws.length := by
  induction ws with
  | nil => rfl
  | cons w ws ih =>
      rw [List.flatMap_cons, List.length_append, ih, length_toBe32, List.length_cons]
      omega

namespace Packet

/-- The flags and the number that the first byte holds. -/
theorem firstByte_spec (padding extension : Bool) {n : Nat} (h : n ≤ 15) :
    firstByte padding extension n >>> 6 = 2 ∧ (firstByte padding extension n &&& 0x0F).toNat = n ∧
      (firstByte padding extension n &&& 0x10 ≠ 0 ↔ extension = true) ∧
      (firstByte padding extension n &&& 0x20 ≠ 0 ↔ padding = true) := by
  have hall : ∀ (padding extension : Bool) (n : Fin 16),
      firstByte padding extension n >>> 6 = 2 ∧ (firstByte padding extension n &&& 0x0F).toNat = n ∧
        (firstByte padding extension n &&& 0x10 ≠ 0 ↔ extension = true) ∧
        (firstByte padding extension n &&& 0x20 ≠ 0 ↔ padding = true) := by decide
  exact hall padding extension ⟨n, Nat.lt_succ_of_le h⟩

theorem secondByte_spec : ∀ (marker : Bool) (payloadType : Fin 128),
    secondByte marker payloadType &&& 0x7F = .ofNat payloadType := by decide

variable (p : Packet) (stale : List UInt8)

/-- Everything before the payload. -/
def header : List UInt8 := p.fixed ++ p.sources ++ p.extended

theorem length_front : (p.fixed ++ p.sources).length = 12 + 4 * p.csrc.length := by
  rw [List.length_append, sources, length_flatMap_toBe32]
  rfl

theorem length_header : p.header.length = 12 + 4 * p.csrc.length + p.extended.length := by
  rw [header, List.length_append, length_front]

theorem length_encode :
    p.encode.length = p.header.length + p.payload.length + p.padded.length := by
  rw [encode, List.length_append, List.length_append, header]

theorem headerEnd_encode :
    headerEnd (p.encode ++ stale) p.encode.length
      (firstByte p.padding.isSome p.extension.isSome p.csrc.length) = .ok (some p.header.length) := by
  obtain ⟨-, hcsrc, hextension, -⟩ := firstByte_spec p.padding.isSome p.extension.isSome p.csrc_le
  have hencode := p.length_encode
  have hheader := p.length_header
  rw [headerEnd, hcsrc]
  dsimp only
  cases hx : p.extension with
  | none =>
      rw [extended, hx] at hheader
      rw [hx] at hextension
      rw [if_neg fun hset ↦ Bool.false_ne_true (hextension.mp hset), hheader]
      rfl
  | some x =>
      have hextended : p.extended = x.encode := by rw [extended, hx, Option.map_some, Option.getD_some]
      have hlength : x.encode.length = 4 + 4 * x.words.length := by
        rw [Extension.encode, List.length_append, length_flatMap_toBe32]
        rfl
      have hat : ∀ i, byteAt (p.encode ++ stale) (12 + 4 * p.csrc.length + i) =
          byteAt (x.encode ++ (p.payload ++ p.padded ++ stale)) i := by
        intro i
        have hsplit : p.encode ++ stale = (p.fixed ++ p.sources) ++ (x.encode ++ (p.payload ++ p.padded ++ stale)) := by
          rw [encode, hextended]
          simp only [List.append_assoc]
        rw [hsplit, ← p.length_front, byteAt, byteAt, List.getElem?_append_right (Nat.le_add_right _ _),
          Nat.add_sub_cancel_left]
      rw [hextended, hlength] at hheader
      rw [hx] at hextension
      rw [if_pos (hextension.mpr rfl), if_neg (by omega), hat, hat]
      change Except.ok (some (12 + 4 * p.csrc.length +
        (4 + 4 * fromBe16 (.ofNat (x.words.length / 2 ^ 8)) (.ofNat x.words.length)))) = _
      rw [fromBe16_toBe16, Nat.mod_eq_of_lt x.words_lt, hheader]

theorem payloadEnd_encode :
    payloadEnd (p.encode ++ stale) p.encode.length p.header.length
      (firstByte p.padding.isSome p.extension.isSome p.csrc.length) =
      .ok (some (p.header.length + p.payload.length)) := by
  obtain ⟨-, -, -, hpadding⟩ := firstByte_spec p.padding.isSome p.extension.isSome p.csrc_le
  have hencode := p.length_encode
  rw [payloadEnd]
  cases hx : p.padding with
  | none =>
      rw [padded, hx] at hencode
      rw [hx] at hpadding
      rw [if_neg fun hset ↦ Bool.false_ne_true (hpadding.mp hset), hencode]
      rfl
  | some filler =>
      have hpadded : p.padded = filler ++ [.ofNat (filler.length + 1)] := by
        rw [padded, hx, Option.map_some, Option.getD_some]
      have hlt : filler.length < 255 := p.padding_lt filler hx
      rw [hpadded, List.length_append, List.length_singleton] at hencode
      have hlast : byteAt (p.encode ++ stale) (p.encode.length - 1) = .ok (.ofNat (filler.length + 1)) := by
        have hsplit : p.encode ++ stale =
            (p.header ++ p.payload ++ filler) ++ (.ofNat (filler.length + 1) :: stale) := by
          rw [encode, hpadded, header]
          simp only [List.append_assoc, List.singleton_append]
        have hplace : p.encode.length - 1 = (p.header ++ p.payload ++ filler).length + 0 := by
          rw [List.length_append, List.length_append]
          omega
        rw [hplace, hsplit, byteAt, List.getElem?_append_right (Nat.le_add_right _ _), Nat.add_sub_cancel_left]
        rfl
      rw [hx] at hpadding
      rw [if_pos (hpadding.mpr rfl), hlast]
      change Except.ok (ite _ _ _) = _
      rw [UInt8.toNat_ofNat', Nat.mod_eq_of_lt (by omega), if_neg (by omega)]
      congr 2
      omega

/-- What is passed on of a packet is its payload. -/
theorem unframe_encode :
    unframe (p.encode ++ stale) p.encode.length =
      .ok (some ⟨.ofNat p.payloadType, p.timestamp.toNat, p.header.length,
        p.header.length + p.payload.length, p.payload⟩) := by
  have hencode := p.length_encode
  have hheader := p.length_header
  have hpayload : 0 < p.payload.length := List.length_pos_iff.mpr p.payload_ne
  obtain ⟨hversion, -⟩ := firstByte_spec p.padding.isSome p.extension.isSome p.csrc_le
  have hfixed : slice (p.encode ++ stale) 0 12 = .ok p.fixed := by
    rw [slice_of_le (Nat.zero_le _) (by rw [List.length_append]; omega), List.drop_zero]
    rfl
  have hslice : slice (p.encode ++ stale) p.header.length (p.header.length + p.payload.length) = .ok p.payload := by
    have hsplit : p.encode ++ stale = (p.header ++ p.payload) ++ (p.padded ++ stale) := by
      rw [encode, header]
      simp only [List.append_assoc]
    rw [slice_of_le (Nat.le_add_right _ _) (by rw [List.length_append]; omega), hsplit, ← List.length_append,
      List.take_left, List.drop_left]
  have htimestamp := fromBe32_toBe32 p.timestamp.toNat_lt
  have hpassOn : passOn (p.encode ++ stale) p.encode.length
      (firstByte p.padding.isSome p.extension.isSome p.csrc.length) (.ofNat p.payloadType) p.timestamp.toNat =
      .ok (some ⟨.ofNat p.payloadType, p.timestamp.toNat, p.header.length,
        p.header.length + p.payload.length, p.payload⟩) := by
    rw [passOn, headerEnd_encode]
    change ite _ _ _ = _
    rw [if_neg (by omega), payloadEnd_encode]
    change (slice _ _ _ >>= _) = _
    rw [hslice]
    rfl
  rw [unframe, if_neg (by omega), hfixed]
  change ite (firstByte p.padding.isSome p.extension.isSome p.csrc.length >>> 6 ≠ 2) _
    (passOn _ _ _ (secondByte p.marker p.payloadType &&& 0x7F) (fromBe32 _ _ _ _)) = _
  rw [if_neg (not_not.mpr hversion), secondByte_spec]
  exact (congrArg (passOn _ _ _ _) htimestamp).trans hpassOn

end Packet

/-- The framing of every packet is undone exactly, and no datagram leads out of what was received. -/
theorem unframe_exact :
    (∀ (p : Packet) (stale : List UInt8), (p.encode ++ stale).length = bufferLength →
      ∃ passed, unframe (p.encode ++ stale) p.encode.length = .ok (some passed) ∧
        passed.offset = p.header.length ∧ passed.stop = p.header.length + p.payload.length ∧
        passed.payload = p.payload) ∧
    ∀ (buf : List UInt8) (len : Nat), buf.length = bufferLength → len ≤ bufferLength →
      ∃ r, unframe buf len = .ok r ∧ ∀ passed ∈ r, passed.offset ≤ passed.stop ∧ passed.stop ≤ len := by
  constructor
  · intro p stale _
    exact ⟨_, p.unframe_encode stale, rfl, rfl, rfl⟩
  · intro buf len hbuf hlen
    exact unframe_ok (hlen.trans_eq hbuf.symm)

theorem unframe_exact_one :
    let p : Packet := ⟨true, 8, 7, 160, 99, [5], by decide, some ⟨1, [2], by decide⟩, [0xD5, 0x55],
      List.cons_ne_nil _ _, some [0, 0, 0], by decide⟩
    ∃ passed, unframe (p.encode ++ List.replicate 2018 0) 30 = .ok (some passed) ∧
      passed.offset = 24 ∧ passed.stop = 26 ∧ passed.payload = [0xD5, 0x55] :=
  unframe_exact.1 ⟨true, 8, 7, 160, 99, [5], by decide, some ⟨1, [2], by decide⟩, [0xD5, 0x55],
    List.cons_ne_nil _ _, some [0, 0, 0], by decide⟩ (List.replicate 2018 0)
    (by rw [List.length_append, List.length_replicate]; rfl)

end Modem2Sip.Media
