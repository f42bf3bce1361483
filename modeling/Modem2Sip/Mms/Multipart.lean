import Modem2Sip.Mms.Message
import Modem2Sip.Mms.SendReq
import Modem2Sip.Mms.Total

/-!
# Multipart bodies that were cut off

A multipart body is the number of its parts and the parts, each behind the lengths of its header and its
data.  `decode_multipart` stops without an error at the first part that is not all there, and does not
look at more than 256.
-/

namespace Modem2Sip.Mms

open Cursor Text Reader

variable {decodeText : Encoding → List UInt8 → Str} {w : Nat}

/-! ## Multipart bodies -/

/-- A number in groups of seven bits, with any number of zeros in front that the reader takes. -/
structure Uintvar where
  groups : List UInt8
  groups_ne : groups ≠ []
  groups_lt : ∀ b ∈ groups, b < 0x80
  length_le : groups.length ≤ 8

namespace Uintvar

def bytes (u : Uintvar) : List UInt8 := continued u.groups

def value (u : Uintvar) : Nat := groupsValue 0 u.groups

theorem reads (u : Uintvar) (t : List UInt8) : Reads w (uintvar w) u.bytes t (some u.value) :=
  reads_uintvarFrom 8 0 u.groups_ne u.groups_lt u.length_le t

end Uintvar

/-- A part in a multipart body. -/
structure Entry where
  headersLen : Uintvar
  dataLen : Uintvar
  headers : List UInt8
  data : List UInt8
  headersLen_eq : headersLen.value = headers.length
  dataLen_eq : dataLen.value = data.length

namespace Entry

def bytes (e : Entry) : List UInt8 :=
  e.headersLen.bytes ++ (e.dataLen.bytes ++ (e.headers ++ e.data))

/-- The part that is made of it. -/
def part (decodeText : Encoding → List UInt8 → Str) (w : Nat) (e : Entry) : MmsPart :=
  match onBytes (decodePartHeaders decodeText w e.data) e.headers with
  | .ok part => part
  | .error _ => {}

theorem part_gives (e : Entry) (hfits : e.headers.length < 2 ^ w) :
    Gives (decodePartHeaders decodeText w e.data) e.headers (e.part decodeText w) := by
  have hsafe : Safe w (decodePartHeaders decodeText w e.data) := safe_decodePartHeaders e.data
  obtain ⟨part, c, hop⟩ := hsafe.gives hfits
  refine ⟨c, ?_⟩
  rw [Entry.part, onBytes, hop]
  rfl

end Entry

/-! ## What is read of a beginning -/

theorem lacks_u8 (b : UInt8) : Lacks w (u8 w) [b] none := by
  intro c _ hp hne
  have hnil : c.rest = [] := by
    rcases List.prefix_cons_iff.mp hp with hnil | ⟨t, ht, htail⟩
    · exact hnil
    · rw [List.prefix_nil.mp htail] at ht
      exact absurd ht hne
  have hpeek : c.data[c.pos]? = none := List.getElem?_eq_none (List.drop_eq_nil_iff.mp hnil)
  refine (wp_peek ?_).bind
  rw [hpeek]
  exact wp_pure.mpr rfl

theorem lacks_uintvarFrom (n value : Nat) {groups : List UInt8} (hall : ∀ b ∈ groups, b < 0x80)
    (hlen : groups.length ≤ n) : Lacks w (uintvarFrom w n value) (continued groups) none := by
  induction groups generalizing n value with
  | nil => exact fun c _ hp hne ↦ absurd (List.prefix_nil.mp hp) hne
  | cons b groups ih =>
    obtain ⟨n, rfl⟩ := Nat.exists_eq_succ_of_ne_zero (Nat.ne_zero_of_lt hlen)
    cases groups with
    | nil =>
      exact (lacks_u8 b).bind_left fun _ ↦ wp_pure.mpr rfl
    | cons b' groups =>
      obtain ⟨-, hhigh, -, hlow⟩ := highBit_of_lt b (hall b List.mem_cons_self)
      refine (lacks_u8 (b ||| 0x80)).bind (fun _ ↦ wp_pure.mpr rfl) (reads_u8 (b ||| 0x80)) ?_
      dsimp only
      rw [hhigh, if_pos rfl]
      exact ih n _ (fun c hc ↦ hall c (List.mem_cons_of_mem _ hc)) (Nat.le_of_succ_le_succ hlen)

theorem lacks_take (x : List UInt8) : Lacks w (take w x.length) x none := by
  intro c _ hp hne
  have hlt : c.remaining < x.length := by
    rw [← length_rest]
    exact Nat.lt_of_le_of_ne hp.length_le fun h ↦ hne (hp.eq_of_length h)
  refine (wp_left ?_).bind
  rw [if_pos hlt]
  exact wp_pure.mpr rfl

theorem Uintvar.lacks_partLength (u : Uintvar) : Lacks w (partLength w) u.bytes none :=
  (lacks_uintvarFrom 8 0 u.groups_lt u.length_le).bind_left fun _ ↦ wp_pure.mpr rfl

theorem Uintvar.reads_partLength (u : Uintvar) (t : List UInt8) :
    Reads w (partLength w) u.bytes t ((some u.value).filter (· < 2 ^ w)) :=
  (u.reads t).bind_left (Reads.pure _ _)

namespace Entry

/-- A part that is not all there is none. -/
theorem lacks_decodePart (e : Entry) : Lacks w (decodePart decodeText w) e.bytes none := by
  refine e.headersLen.lacks_partLength.bind (fun _ ↦ wp_pure.mpr rfl) e.headersLen.reads_partLength ?_
  cases hheaders : (some e.headersLen.value).filter (· < 2 ^ w) with
  | none => exact .pure _ _
  | some headersLen =>
    refine e.dataLen.lacks_partLength.bind (fun _ ↦ wp_pure.mpr rfl) e.dataLen.reads_partLength ?_
    cases hdata : (some e.dataLen.value).filter (· < 2 ^ w) with
    | none => exact .pure _ _
    | some dataLen =>
      obtain rfl : headersLen = e.headers.length :=
        (Option.some.inj (Option.filter_eq_some_iff.mp hheaders).1).symm.trans e.headersLen_eq
      obtain rfl : dataLen = e.data.length :=
        (Option.some.inj (Option.filter_eq_some_iff.mp hdata).1).symm.trans e.dataLen_eq
      refine (lacks_take e.headers).bind (fun _ ↦ wp_pure.mpr rfl) (reads_take e.headers) ?_
      exact (lacks_take e.data).bind_left fun _ ↦ wp_pure.mpr rfl

theorem reads_decodePart (e : Entry) (hfits : e.bytes.length < 2 ^ w) (t : List UInt8) :
    Reads w (decodePart decodeText w) e.bytes t (some (e.part decodeText w)) := by
  unfold bytes at hfits ⊢
  simp only [List.length_append] at hfits
  have hheaders : (some e.headersLen.value).filter (· < 2 ^ w) = some e.headers.length := by
    rw [e.headersLen_eq]
    exact Option.filter_some_pos (decide_eq_true (by omega))
  have hdata : (some e.dataLen.value).filter (· < 2 ^ w) = some e.data.length := by
    rw [e.dataLen_eq]
    exact Option.filter_some_pos (decide_eq_true (by omega))
  refine Reads.bind (e.headersLen.reads_partLength _) ?_
  rw [hheaders]
  refine Reads.bind (e.dataLen.reads_partLength _) ?_
  rw [hdata]
  refine Reads.bind (reads_take _ _) ?_
  refine (reads_take _ _).bind_left ?_
  exact (e.part_gives (by omega)).nested.bind_left (Reads.pure _ _)

end Entry

/-- Behind the number of the parts: all of them, as many as are asked for, if everything is there, and
fewer otherwise. -/
theorem wp_decodeParts {entries : List Entry} {n : Nat} {decoded : List MmsPart} {c : Reader}
    (hc : Valid w c) (hp : c.rest <+: entries.flatMap Entry.bytes) :
    Wp (decodeParts decodeText w n decoded) c fun parts _ ↦
      (c.rest = entries.flatMap Entry.bytes →
        parts = decoded ++ (entries.take n).map (Entry.part decodeText w)) ∧
      (c.rest ≠ entries.flatMap Entry.bytes → parts.length < decoded.length + entries.length) := by
  induction entries generalizing n decoded c with
  | nil =>
    have hnil : c.rest = [] := List.prefix_nil.mp hp
    have hend : decodePart decodeText w c = .ok (none, c) := decodePart_end (List.drop_eq_nil_iff.mp hnil)
    cases n with
    | zero => exact wp_pure.mpr ⟨fun _ ↦ by simp, fun hne ↦ absurd hnil hne⟩
    | succ n =>
      refine Wp.bind ⟨none, c, hend, wp_pure.mpr ⟨fun _ ↦ by simp, fun hne ↦ absurd hnil hne⟩⟩
  | cons e entries ih =>
    rw [List.flatMap_cons] at hp ⊢
    cases n with
    | zero =>
      refine wp_pure.mpr ⟨fun _ ↦ by simp, fun _ ↦ ?_⟩
      rw [List.length_cons]
      omega
    | succ n =>
      rcases prefix_append_cases hp with ⟨hcut, hne⟩ | ⟨q, hq, hrest⟩
      · refine Wp.bind_of (e.lacks_decodePart c hc hcut hne) ?_
        rintro _ c' rfl
        refine wp_pure.mpr ⟨fun heq ↦ ?_, fun _ ↦ ?_⟩
        · exact absurd (hcut.eq_of_length_le (by rw [heq]; simp)) hne
        · rw [List.length_cons]
          omega
      · have hfits : e.bytes.length < 2 ^ w :=
          Nat.lt_of_le_of_lt (Nat.le_of_add_left_le (pos_add_length_le hc hq)) hc.fits
        have hread : decodePart decodeText w c = .ok (some (e.part decodeText w), c.skip e.bytes.length) :=
          e.reads_decodePart hfits q c.pos c hc rfl hq
        refine Wp.bind ⟨_, _, hread, ?_⟩
        have hskip : (c.skip e.bytes.length).rest = q := rest_skip_append hq
        refine (ih (hc.skip hq) (hskip ▸ hrest)).mono fun parts c' h ↦ ?_
        rw [hskip, List.append_assoc, List.length_append] at h
        rw [hq, ne_eq, List.append_cancel_left_eq]
        refine ⟨h.1, fun hne ↦ (h.2 hne).trans_eq ?_⟩
        rw [List.length_singleton, List.length_cons, Nat.add_assoc, Nat.add_comm 1]

/-! ## Messages with a multipart body -/

/-- The header of an M-Retrieve.conf with a multipart body, which is read alike whatever comes behind it,
and the parts. -/
structure RetrieveConf (decodeText : Encoding → List UInt8 → Str) (w : Nat) where
  head : List UInt8
  message : MmsMessage
  reads : ∀ body, HeaderRun decodeText w {} head body fun n ↦ .ok (message, some n)
  messageType_eq : message.messageType = retrieveConf
  isMultipart : isMultipart (message.contentType.getD []) = true
  count : Uintvar
  entries : List Entry
  count_eq : count.value = entries.length

namespace RetrieveConf

variable (pdu : RetrieveConf decodeText w)

/-- The header, and how many parts it declares. -/
def declaration : List UInt8 := pdu.head ++ pdu.count.bytes

def bytes : List UInt8 := pdu.declaration ++ pdu.entries.flatMap Entry.bytes

def parts : List MmsPart := pdu.entries.map (Entry.part decodeText w)

/-- The message is the declared one, with all of its parts. -/
def Decoded (bytes : List UInt8) (msg : MmsMessage) : Prop :=
  pdu.declaration <+: bytes ∧ msg.parts = pdu.parts

variable {pdu}

/-- What is decoded of a beginning with the declaration in it. -/
theorem decode_of_declared {t : List UInt8} (ht : t <+: pdu.entries.flatMap Entry.bytes)
    (hfits : (pdu.declaration ++ t).length < 2 ^ w) :
    ∃ parts, decode decodeText w (pdu.declaration ++ t) = .ok (.ok { pdu.message with parts := parts }) ∧
      (t = pdu.entries.flatMap Entry.bytes → parts = pdu.parts.take 256) ∧
      (t ≠ pdu.entries.flatMap Entry.bytes → parts.length < pdu.entries.length) := by
  rw [declaration, List.append_assoc] at hfits ⊢
  have hbody : (pdu.count.bytes ++ t).length < 2 ^ w := by
    rw [List.length_append] at hfits
    omega
  have hstart : Valid w (⟨pdu.count.bytes ++ t, 0⟩ : Reader) := valid_start hbody
  have hcount := pdu.count.reads t 0 _ hstart rfl rfl
  have hrest : (Cursor.skip ⟨pdu.count.bytes ++ t, 0⟩ pdu.count.bytes.length).rest = t :=
    rest_skip_append rfl
  have hwp : Wp (decodeParts decodeText w (min pdu.count.value 256) [])
      (Cursor.skip ⟨pdu.count.bytes ++ t, 0⟩ pdu.count.bytes.length) _ :=
    wp_decodeParts (hstart.skip rfl) (hrest ▸ ht)
  obtain ⟨parts, c, hparts, hall, hfew⟩ := hwp
  rw [hrest, List.nil_append] at hall
  rw [hrest, List.length_nil, Nat.zero_add] at hfew
  refine ⟨parts, ?_, fun ht ↦ ?_, hfew⟩
  · refine decode_of_headerRun (pdu.reads _) (fun c' ↦ ?_) hfits
    have hmultipart : decodeMultipart decodeText w ⟨pdu.count.bytes ++ t, 0⟩ = .ok (parts, c) :=
      (bind_ok hcount).trans hparts
    rw [bodyParts, if_pos pdu.isMultipart, nested, hmultipart]
  · rw [hall ht, RetrieveConf.parts, ← List.map_take, pdu.count_eq, List.take_eq_take_iff.mpr]
    omega

/-- A beginning of the message is decoded with all parts that are declared if it is the whole message,
and there are not too many of them. -/
theorem decoded_iff {b : List UInt8} (hb : b <+: pdu.bytes) (hfits : b.length < 2 ^ w) {msg : MmsMessage}
    (hdecode : decode decodeText w b = .ok (.ok msg)) :
    pdu.Decoded b msg ↔ pdu.entries.length ≤ 256 ∧ b = pdu.bytes := by
  by_cases hdeclared : pdu.declaration <+: b
  · obtain ⟨t, rfl⟩ := hdeclared
    have ht : t <+: pdu.entries.flatMap Entry.bytes := (List.prefix_append_right_inj _).mp hb
    obtain ⟨parts, hparts, hall, hfew⟩ := decode_of_declared ht hfits
    rw [hparts] at hdecode
    cases hdecode
    rw [Decoded, bytes, List.append_cancel_left_eq, and_iff_right (List.prefix_append _ _)]
    change parts = pdu.parts ↔ _
    by_cases hwhole : t = pdu.entries.flatMap Entry.bytes
    · rw [hall hwhole, List.take_eq_self_iff, RetrieveConf.parts, List.length_map]
      exact (and_iff_left hwhole).symm
    · refine iff_of_false (fun heq ↦ ?_) fun h ↦ hwhole h.2
      have hlt := hfew hwhole
      rw [heq, RetrieveConf.parts, List.length_map] at hlt
      exact Nat.lt_irrefl _ hlt
  · refine iff_of_false (fun h ↦ hdeclared h.1) fun h ↦ hdeclared ?_
    rw [h.2]
    exact List.prefix_append _ _

end RetrieveConf

end Modem2Sip.Mms
