import Mathlib.Data.List.Nodup
import Modem2Sip.Mms.ReadBack

/-!
# An M-Send.req is read back

The decoder of the gateway gives back what its encoder was given: the header fields
and every part, in order.  A part is read back up to what the encoding does not carry:
a well-known content type comes back in the spelling of the table, and of the
parameters only a name and the charset are written.
-/

namespace Modem2Sip.Mms

open Cursor Text Reader

section Part

variable {decodeText : Encoding → List UInt8 → Str} {w : Nat}

/-! ## The content type of a part -/

def typeBytes (part : MmsPart) : List UInt8 :=
  match contentTypeCode part.contentType with
  | some code => [0x80 ||| code]
  | none => writeTextString part.contentType

/-- A parameter: its bytes, its name and its value. -/
abbrev ParamItem := List UInt8 × (Str × Str)

/-- The parameters that are written. -/
def partItems (part : MmsPart) : List ParamItem :=
  (if part.isText then [(([0x81, 0xEA], ("charset", "UTF-8")) : ParamItem)] else []) ++
    (part.name.map fun name ↦ ((0x97 :: writeTextString name, ("name", name)) : ParamItem)).toList

theorem encodePartType_eq (part : MmsPart) :
    encodePartType part = typeBytes part ++ (partItems part).flatMap (·.1) := by
  unfold encodePartType partItems typeBytes
  rw [writeIntegerValue_utf8, List.append_assoc, List.flatMap_append]
  congr 1
  congr 1
  · cases part.isText <;> rfl
  · cases part.name with
    | none => rfl
    | some name => exact (List.append_nil _).symm

/-- The content type that a part comes back with. -/
def readType (part : MmsPart) : Str :=
  match contentTypeCode part.contentType with
  | some code => contentTypeName code
  | none => part.contentType

/-- The table has one entry for each code, and the codes have seven bits. -/
theorem contentTypes_codes :
    (contentTypes.map (·.1)).Nodup ∧ ∀ code ∈ contentTypes.map (·.1), code < 0x80 := by
  decide +kernel

theorem contentTypeName_of_mem {e : UInt8 × String} (he : e ∈ contentTypes) :
    contentTypeName e.1 = e.2.toList := by
  unfold contentTypeName
  cases hfind : contentTypes.find? (·.1 == e.1) with
  | none =>
    rw [List.find?_eq_none] at hfind
    exact absurd (beq_self_eq_true e.1) (hfind e he)
  | some e' =>
    have hcode : e'.1 = e.1 := by simpa using List.find?_some hfind
    rw [List.inj_on_of_nodup_map contentTypes_codes.1 (List.mem_of_find?_eq_some hfind) he hcode]

/-- A content type from the table is the one it was taken for, up to case. -/
theorem contentTypeCode_spec {name : Str} {code : UInt8} (h : contentTypeCode name = some code) :
    eqIgnoreCase (contentTypeName code) name = true ∧ code < 0x80 := by
  obtain ⟨e, he, rfl⟩ := Option.map_eq_some_iff.mp h
  have hmem := List.mem_of_find?_eq_some he
  have hname := List.find?_some he
  rw [contentTypeName_of_mem hmem]
  exact ⟨hname, contentTypes_codes.2 _ (List.mem_map_of_mem hmem)⟩

theorem readType_eqIgnoreCase (part : MmsPart) :
    eqIgnoreCase (readType part) part.contentType = true := by
  unfold readType
  cases h : contentTypeCode part.contentType with
  | none => exact beq_self_eq_true _
  | some code => exact (contentTypeCode_spec h).1

/-! ## Legal parts -/

/-- No angle bracket at either end. -/
def Unbracketed (s : Str) : Prop :=
  (∀ c ∈ s.head?, c ≠ '<' ∧ c ≠ '>') ∧ ∀ c ∈ s.getLast?, c ≠ '<' ∧ c ≠ '>'

/-- The texts of the part are legal, and its content id has no brackets of its own. -/
structure MmsPart.Legal (part : MmsPart) : Prop where
  contentType : WspText part.contentType
  name : ∀ name ∈ part.name, WspText name
  contentId : ∀ cid ∈ part.contentId, WspText cid ∧ Unbracketed cid
  contentLocation : ∀ loc ∈ part.contentLocation, WspText loc

theorem written_partItems (hdecode : DecodesUtf8 decodeText) {part : MmsPart} (h : part.Legal) :
    ∀ i ∈ partItems part, Written decodeText w i.1 i.2 := by
  intro i hi
  rcases List.mem_append.mp hi with hi | hi
  · split at hi
    · rw [List.mem_singleton.mp hi]
      exact written_charset
    · cases hi
  · obtain ⟨name, hname, rfl⟩ := Option.map_eq_some_iff.mp (Option.mem_toList.mp hi)
    exact written_text hdecode (b := 0x97) rfl (by decide) (h.name name hname)

theorem typeAndParameters_gives (hdecode : DecodesUtf8 decodeText) {part : MmsPart}
    (h : part.Legal) (hfits : (encodePartType part).length < 2 ^ w) :
    Gives (typeAndParameters decodeText w) (encodePartType part)
      (some (readType part, (partItems part).map (·.2))) := by
  rw [encodePartType_eq] at hfits ⊢
  unfold typeBytes readType at *
  cases hcode : contentTypeCode part.contentType with
  | some code =>
    rw [hcode] at hfits
    exact typeAndParameters_gives_code code (contentTypeCode_spec hcode).2 _
      (written_partItems hdecode h) hfits
  | none =>
    rw [hcode] at hfits
    exact typeAndParameters_gives_text h.contentType (written_partItems hdecode h) hfits

/-! ## The header of a part -/

theorem trimMatches_brackets {s : Str} (h : Unbracketed s) :
    trimMatches (fun c ↦ c == '<' || c == '>') ("<" ++ s ++ ">") = s := by
  rw [trimMatches]
  cases s with
  | nil => rfl
  | cons c s =>
    have hhead := h.1 c rfl
    have hdrop : (("<" : Str) ++ (c :: s) ++ (">" : Str)).dropWhile
        (fun c ↦ c == '<' || c == '>') = (c :: s) ++ [('>' : Char)] := by
      change ('<' :: c :: (s ++ ['>'])).dropWhile _ = _
      rw [List.dropWhile_cons_of_pos rfl, List.dropWhile_cons_of_neg (by simp [hhead])]
      rfl
    rw [hdrop, List.rdropWhile_concat_pos _ _ _ (by rfl), List.rdropWhile_eq_self_iff]
    intro hne hlast
    have := h.2 _ (List.getLast?_eq_some_getLast hne)
    simp [this] at hlast

/-- The header fields that are written, each with what reading it does to the part. -/
def headerItems (part : MmsPart) : List (List UInt8 × (MmsPart → MmsPart)) :=
  (part.contentId.map fun cid ↦
    (0xC0 :: writeTextString ("<" ++ cid ++ ">"), fun p : MmsPart ↦ { p with contentId := some cid })).toList ++
  (part.contentLocation.map fun loc ↦
    (0x8E :: writeTextString loc, fun p : MmsPart ↦ { p with contentLocation := some loc })).toList

theorem encodePartHeaders_eq (part : MmsPart) :
    encodePartHeaders part =
      writeValueLength (encodePartType part).length ++ encodePartType part ++
        (headerItems part).flatMap (·.1) := by
  unfold encodePartHeaders headerItems
  rw [List.append_assoc]
  cases part.contentId <;> cases part.contentLocation <;> simp

/-- A part as it comes back. -/
def decodedPart (part : MmsPart) : MmsPart where
  contentType := readType part
  params := (partItems part).map (·.2)
  contentId := part.contentId
  contentLocation := part.contentLocation
  data := part.data

/-- One header field of a part, and what reading it does to the part. -/
theorem reads_headerItem {part : MmsPart} (h : part.Legal) {i : List UInt8 × (MmsPart → MmsPart)}
    (hi : i ∈ headerItems part) (p : MmsPart) (t : List UInt8) :
    i.1 ≠ [] ∧ Reads w (decodePartHeader w p) i.1 t (.cont (i.2 p)) := by
  rcases List.mem_append.mp hi with hi | hi
  · obtain ⟨cid, hcid, rfl⟩ := Option.map_eq_some_iff.mp (Option.mem_toList.mp hi)
    obtain ⟨hlegal, hbrackets⟩ := h.contentId cid hcid
    have htext : WspText ("<" ++ cid ++ ">") := by
      rw [wspText_append, wspText_append]
      exact ⟨⟨by decide, hlegal⟩, by decide⟩
    refine ⟨List.cons_ne_nil _ _, Reads.atEnd_bind (List.cons_ne_nil _ _) ?_⟩
    refine Reads.bind (x := [0xC0]) (reads_u8 _ _) ?_
    dsimp only
    rw [if_pos rfl]
    refine (reads_textString htext t).bind_left ?_
    rw [Option.map_some, trimMatches_brackets hbrackets]
    exact Reads.pure _ _
  · obtain ⟨loc, hloc, rfl⟩ := Option.map_eq_some_iff.mp (Option.mem_toList.mp hi)
    refine ⟨List.cons_ne_nil _ _, Reads.atEnd_bind (List.cons_ne_nil _ _) ?_⟩
    refine Reads.bind (x := [0x8E]) (reads_u8 _ _) ?_
    dsimp only
    rw [if_neg (by decide), if_pos rfl]
    exact (reads_textString (h.contentLocation loc hloc) t).bind_left (Reads.pure _ _)

/-- All header fields of a part, in a buffer of their own. -/
theorem reads_headerItems {part : MmsPart} (h : part.Legal) (p : MmsPart) :
    Reads w (loopHere (decodePartHeader w) p) ((headerItems part).flatMap (·.1)) []
      ((headerItems part).foldl (fun p i ↦ i.2 p) p) := by
  intro pos
  refine ReadsLoop.here ?_
  rw [← List.append_nil ((headerItems part).flatMap (·.1))]
  refine ReadsLoop.items (g := fun p i ↦ i.2 p) (fun i hi ↦ ?_) (fun i hi p t ↦ ?_) fun pos ↦ ?_
  · exact (reads_headerItem (w := w) h hi part []).1
  · exact (reads_headerItem h hi p t).2
  · exact ReadsLoop.done (Reads.atEnd_bind_end (Reads.pure _ _) pos)

theorem decodePartHeaders_gives (hdecode : DecodesUtf8 decodeText) {part : MmsPart}
    (h : part.Legal) (hfits : Fits w (encodePartHeaders part).length) :
    Gives (decodePartHeaders decodeText w part.data) (encodePartHeaders part) (decodedPart part) := by
  rw [encodePartHeaders_eq] at hfits ⊢
  have htype := hfits.left.right
  refine Reads.gives ?_ hfits.usize
  refine Reads.bind (reads_contentType (valueLength_write htype) htype.usize
    (typeAndParameters_gives hdecode h htype.usize) _) ?_
  have hheader := reads_headerItems (w := w) h
    { contentType := readType part, params := (partItems part).map (·.2), data := part.data }
  have hdecoded : (headerItems part).foldl (fun p i ↦ i.2 p)
      { contentType := readType part, params := (partItems part).map (·.2), data := part.data } =
        decodedPart part := by
    unfold headerItems decodedPart
    cases part.contentId <;> cases part.contentLocation <;> rfl
  rw [hdecoded] at hheader
  exact hheader

/-! ## Parts -/

theorem reads_partLength {n : Nat} (h : Fits w n) (t : List UInt8) :
    Reads w (partLength w) (writeUintvar n) t (some n) := by
  refine (reads_uintvar h.addresses t).bind_left ?_
  rw [Option.filter_some_pos (by simpa using h.usize)]
  exact Reads.pure _ _

theorem reads_decodePart (hdecode : DecodesUtf8 decodeText) {part : MmsPart} (h : part.Legal)
    (hfits : Fits w (encodePart part).length) (t : List UInt8) :
    Reads w (decodePart decodeText w) (encodePart part) t (some (decodedPart part)) := by
  unfold encodePart at hfits ⊢
  rw [List.append_assoc, List.append_assoc] at hfits ⊢
  have hheaders := hfits.right.right.left
  refine Reads.bind (reads_partLength hheaders _) ?_
  refine Reads.bind (reads_partLength hfits.right.right.right _) ?_
  refine Reads.bind (reads_take _ _) ?_
  refine (reads_take _ _).bind_left ?_
  exact (decodePartHeaders_gives hdecode h hheaders).nested.bind_left (Reads.pure _ _)

theorem reads_decodeParts (hdecode : DecodesUtf8 decodeText) {parts : List MmsPart}
    (h : ∀ part ∈ parts, part.Legal) (hfits : Fits w (parts.flatMap encodePart).length)
    (decoded : List MmsPart) (t : List UInt8) :
    Reads w (decodeParts decodeText w parts.length decoded) (parts.flatMap encodePart) t
      (decoded ++ parts.map decodedPart) := by
  induction parts generalizing decoded with
  | nil =>
    rw [List.map_nil, List.append_nil]
    exact Reads.pure _ _
  | cons part parts ih =>
    rw [List.flatMap_cons] at hfits ⊢
    refine Reads.bind (reads_decodePart hdecode (h part List.mem_cons_self) hfits.left _) ?_
    have hrest := ih (fun p hp ↦ h p (List.mem_cons_of_mem _ hp)) hfits.right
      (decoded ++ [decodedPart part])
    rwa [List.append_assoc] at hrest

theorem reads_decodeMultipart (hdecode : DecodesUtf8 decodeText) {parts : List MmsPart}
    (h : ∀ part ∈ parts, part.Legal) (hcount : parts.length ≤ 256)
    (hfits : Fits w (encodeMultipart parts).length) (t : List UInt8) :
    Reads w (decodeMultipart decodeText w) (encodeMultipart parts) t (parts.map decodedPart) := by
  unfold encodeMultipart at hfits ⊢
  refine Reads.bind (reads_uintvar (hcount.trans_lt (by decide)) _) ?_
  dsimp only
  rw [Nat.min_eq_left hcount]
  exact reads_decodeParts hdecode h hfits.right [] t

/-- What the encoding carries of a part: its data, its content type up to case, its name, its
content id and its location. -/
structure SamePart (part part' : MmsPart) : Prop where
  data : part'.data = part.data
  contentType : eqIgnoreCase part'.contentType part.contentType = true
  name : part'.name = part.name
  contentId : part'.contentId = part.contentId
  contentLocation : part'.contentLocation = part.contentLocation

theorem name_decodedPart (part : MmsPart) : (decodedPart part).name = part.name := by
  have hfind : ((partItems part).map (·.2)).find?
      (fun e ↦ e.1 == ("name" : Str) || e.1 == ("filename" : Str)) =
        part.name.map fun name ↦ (("name", name) : Str × Str) := by
    unfold partItems
    cases part.isText <;> cases part.name <;> rfl
  unfold MmsPart.name at hfind ⊢
  rw [decodedPart]
  dsimp only
  rw [hfind]
  cases part.params.find? _ with
  | none => cases part.contentLocation <;> rfl
  | some e => rfl

theorem samePart_decodedPart (part : MmsPart) : SamePart part (decodedPart part) :=
  ⟨rfl, readType_eqIgnoreCase part, name_decodedPart part, rfl, rfl⟩

end Part

/-! ## The header of the message -/

section Header

variable {decodeText : Encoding → List UInt8 → Str} {w p : Nat}

/-- One field of the header, whose code has the high bit. -/
theorem reads_field {msg : MmsMessage} {b : UInt8} (hb : 0x80 ≤ b) {x t : List UInt8}
    {v : LoopStep MmsMessage Headers}
    (h : ReadsAt w (p + 1) (decodeField decodeText w msg b) x t v) :
    ReadsAt w p (decodeHeader decodeText w msg) (b :: x) t v := by
  refine ReadsAt.atEnd_bind (List.cons_ne_nil _ _) (ReadsAt.peek_bind ?_)
  dsimp only
  rw [if_neg (UInt8.not_lt.mpr hb)]
  exact ReadsAt.bind (reads_advance [b] _ p) h

theorem reads_cont {β : Type} {op : Scan UInt8 β} {x t : List UInt8} {v : β} (h : Reads w op x t v)
    (f : β → MmsMessage) :
    Reads w (op >>= fun b ↦ pure (LoopStep.cont (f b)) : Scan UInt8 (LoopStep MmsMessage Headers)) x t
      (.cont (f v)) := h.bind_left (Reads.pure _ _)

theorem reads_messageType (msg : MmsMessage) (b : UInt8) (t : List UInt8) :
    Reads w (decodeHeader decodeText w msg) [Field.messageType, b] t
      (.cont { msg with messageType := b }) :=
  fun _ ↦ reads_field (by decide) (reads_cont (reads_u8 b t) (fun b ↦ { msg with messageType := b.getD 0 }) _)

theorem reads_transactionId (msg : MmsMessage) {s : Str} (h : WspText s) (t : List UInt8) :
    Reads w (decodeHeader decodeText w msg) (Field.transactionId :: writeTextString s) t
      (.cont { msg with transactionId := some s }) :=
  fun _ ↦ reads_field (by decide)
    (reads_cont (reads_textString h t) (fun s ↦ { msg with transactionId := s }) _)

theorem reads_version (msg : MmsMessage) (b : UInt8) (t : List UInt8) :
    Reads w (decodeHeader decodeText w msg) [Field.mmsVersion, b] t
      (.cont { msg with version := some b }) :=
  fun _ ↦ reads_field (by decide) (reads_cont (reads_u8 b t) (fun b ↦ { msg with version := b }) _)

theorem fromValue_gives (hdecode : DecodesUtf8 decodeText) {s : Str} (h : WspText s)
    (hbom : s.head? ≠ some byteOrderMark) (hfits : Fits w (0x80 :: writeEncodedString s).length) :
    Gives (fromValue decodeText w) (0x80 :: writeEncodedString s) (some s) := by
  have hstring : Fits w (writeEncodedString s).length := hfits.tail
  refine Reads.gives ?_ hfits.usize
  exact Reads.bind (x := [0x80]) (reads_u8 _ _) (reads_encodedString hdecode h hbom hstring [])

theorem fromValue_gives_none (hw : 1 < 2 ^ w) : Gives (fromValue decodeText w) [0x81] none := by
  refine Reads.gives ?_ hw
  exact Reads.bind_left (reads_u8 0x81 []) (Reads.pure _ _)

/-- An address as the encoder writes it. -/
structure LegalAddress (addr : Str) : Prop where
  text : WspText addr
  bom : (formatAddress addr).head? ≠ some byteOrderMark

theorem LegalAddress.wspText {addr : Str} (h : LegalAddress addr) : WspText (formatAddress addr) := by
  have htrim : WspText (trim addr) := h.text.of_subset fun _ ↦ mem_of_mem_trim
  unfold formatAddress
  dsimp only
  split
  · exact htrim
  · rw [wspText_append]
    exact ⟨htrim, by decide⟩

theorem reads_from (hdecode : DecodesUtf8 decodeText) (msg : MmsMessage) {fromAddr : Option Str}
    (h : ∀ addr ∈ fromAddr, LegalAddress addr) (hfits : Fits w (encodeFrom fromAddr).length)
    (t : List UInt8) :
    Reads w (decodeHeader decodeText w msg) (Field.fromAddr :: encodeFrom fromAddr) t
      (.cont { msg with fromAddr := fromAddr.map formatAddress }) := by
  intro p
  refine reads_field (by decide) ?_
  cases fromAddr with
  | none =>
    have hw : 1 < 2 ^ w := (by decide : 1 < (encodeFrom none).length).trans hfits.usize
    refine reads_prefixed (x := [0x81]) ⟨hw, by decide⟩ ?_ _
    exact reads_cont (reads_inner (fromValue_gives_none hw) t) fun v ↦ { msg with fromAddr := v }
  | some addr =>
    have haddr := h addr rfl
    have hinner := hfits.right
    refine reads_prefixed hinner ?_ _
    exact reads_cont (reads_inner (fromValue_gives hdecode haddr.wspText haddr.bom hinner) t)
      fun v ↦ { msg with fromAddr := v }

theorem reads_to (hdecode : DecodesUtf8 decodeText) (msg : MmsMessage) {addr : Str}
    (h : LegalAddress addr) (hfits : Fits w (writeEncodedString (formatAddress addr)).length)
    (t : List UInt8) :
    Reads w (decodeHeader decodeText w msg)
      (Field.toAddrs :: writeEncodedString (formatAddress addr)) t
      (.cont { msg with toAddrs := msg.toAddrs ++ [formatAddress addr] }) :=
  fun _ ↦ reads_field (by decide) (reads_cont (reads_encodedString hdecode h.wspText h.bom hfits t)
    (fun v ↦ { msg with toAddrs := msg.toAddrs ++ v.toList }) _)

theorem reads_subject (hdecode : DecodesUtf8 decodeText) (msg : MmsMessage) {s : Str}
    (h : WspText s) (hbom : s.head? ≠ some byteOrderMark)
    (hfits : Fits w (writeEncodedString s).length) (t : List UInt8) :
    Reads w (decodeHeader decodeText w msg) (Field.subject :: writeEncodedString s) t
      (.cont { msg with subject := some s }) :=
  fun _ ↦ reads_field (by decide) (reads_cont (reads_encodedString hdecode h hbom hfits t)
    (fun v ↦ { msg with subject := v }) _)

theorem reads_messageClass (msg : MmsMessage) (t : List UInt8) :
    Reads w (decodeHeader decodeText w msg) [Field.messageClass, 0x80] t
      (.cont { msg with messageClass := some "personal" }) := by
  have hvalue : Reads w (messageClassValue w) [0x80] t (some "personal") :=
    Reads.peek_bind ((reads_advance [0x80] t).bind_left (Reads.pure _ _))
  exact fun _ ↦ reads_field (by decide) (reads_cont hvalue (fun v ↦ { msg with messageClass := v }) _)

/-- What comes of a value that is skipped: the next header. -/
theorem reads_skipValue_cont {x t : List UInt8} (h : Reads w (skipValue w) x t (some ()))
    (msg : MmsMessage) :
    Reads w (skipValue w >>= fun x ↦
      match x with
      | none => pure (.done (.ok (msg, none)))
      | some () => pure (.cont msg) : Scan UInt8 (LoopStep MmsMessage Headers)) x t (.cont msg) :=
  h.bind_left (Reads.pure _ _)

/-- A field that the decoder has no use for, with a value of one byte. -/
theorem reads_skipped (msg : MmsMessage) {b v : UInt8}
    (hb : b = Field.deliveryReport ∨ b = Field.readReport) (hv : v = 0x80 ∨ v = 0x81)
    (t : List UInt8) : Reads w (decodeHeader decodeText w msg) [b, v] t (.cont msg) := by
  have hskip : Reads w (skipValue w) [v] t (some ()) := by
    refine Reads.peek_bind ?_
    dsimp only
    rw [if_neg (by rcases hv with rfl | rfl <;> decide), if_pos (by rcases hv with rfl | rfl <;> decide)]
    exact (reads_advance [v] t).bind_left (Reads.pure _ _)
  intro p
  refine reads_field (by rcases hb with rfl | rfl <;> decide) ?_
  rcases hb with rfl | rfl <;> exact reads_skipValue_cont hskip msg _

/-! ### The content type of the message -/

/-- The parameters of a message with several parts. -/
def relatedItems (parts : List MmsPart) : List ParamItem :=
  ((0x89 :: writeTextString "application/smil", ("type", "application/smil")) : ParamItem) ::
    ((parts.head?.bind (·.contentId)).map fun cid ↦
      ((0x99 :: writeTextString ("<" ++ cid ++ ">"), ("start", "<" ++ cid ++ ">")) : ParamItem)).toList

theorem written_relatedItems (hdecode : DecodesUtf8 decodeText) {parts : List MmsPart}
    (h : ∀ part ∈ parts, part.Legal) :
    ∀ i ∈ relatedItems parts, Written decodeText w i.1 i.2 := by
  intro i hi
  rcases List.mem_cons.mp hi with rfl | hi
  · exact written_text hdecode (b := 0x89) rfl (by decide) (by decide)
  · obtain ⟨cid, hcid, rfl⟩ := Option.map_eq_some_iff.mp (Option.mem_toList.mp hi)
    obtain ⟨part, hpart, hcid⟩ := Option.bind_eq_some_iff.mp hcid
    have hlegal := ((h part (List.mem_of_head? hpart)).contentId cid hcid).1
    have htext : WspText ("<" ++ cid ++ ">") := by
      rw [wspText_append, wspText_append]
      exact ⟨⟨by decide, hlegal⟩, by decide⟩
    exact written_text hdecode (b := 0x99) rfl (by decide) htext

/-- The content type of the message says that what follows it is a list of parts. -/
theorem encodeContentType_spec (hdecode : DecodesUtf8 decodeText) {parts : List MmsPart}
    (h : ∀ part ∈ parts, part.Legal) (hfits : Fits w (encodeContentType parts).length) :
    ∃ ct name params, encodeContentType parts = writeValueLength ct.length ++ ct ∧
      Gives (typeAndParameters decodeText w) ct (some (name, params)) ∧ isMultipart name = true := by
  by_cases hparts : 1 < parts.length
  · have hct : encodeContentType parts =
        writeValueLength (0xB3 :: (relatedItems parts).flatMap (·.1)).length ++
          (0xB3 :: (relatedItems parts).flatMap (·.1)) := by
      unfold encodeContentType relatedItems
      rw [if_pos hparts]
      cases parts.head?.bind (·.contentId) with
      | none => rfl
      | some cid =>
        simp only [Option.map_some, Option.toList_some, List.flatMap_cons, List.flatMap_nil,
          List.append_nil]
        rfl
    rw [hct] at hfits ⊢
    exact ⟨_, _, _, rfl, typeAndParameters_gives_code 0x33 (by decide) _
      (written_relatedItems hdecode h) hfits.right.usize, by decide⟩
  · have hct : encodeContentType parts = writeValueLength [0xA3].length ++ [0xA3] := by
      rw [encodeContentType, if_neg hparts]
      rfl
    rw [hct] at hfits ⊢
    exact ⟨[0xA3], _, _, rfl, typeAndParameters_gives_code 0x23 (by decide) [] (by simp)
      hfits.right.usize, by decide⟩

/-! ### The whole header -/

/-- From the message `msg` on, the loop over the header reads `x` and ends in what `v` says of the
position behind it. -/
def HeaderRun (decodeText : Encoding → List UInt8 → Str) (w : Nat) (msg : MmsMessage)
    (x t : List UInt8) (v : Nat → Headers) : Prop :=
  ∀ p, ReadsLoop w p (decodeHeader decodeText w) msg x t (v (p + x.length))

theorem HeaderRun.cont {msg msg' : MmsMessage} {x y t : List UInt8} {v : Nat → Headers}
    (hx : x ≠ []) (h : Reads w (decodeHeader decodeText w msg) x (y ++ t) (.cont msg'))
    (hrun : HeaderRun decodeText w msg' y t v) : HeaderRun decodeText w msg (x ++ y) t v := by
  intro p
  rw [List.length_append, ← Nat.add_assoc]
  exact ReadsLoop.cont hx (h p) (hrun _)

/-- The content type is the last field. -/
theorem headerRun_contentType {x t : List UInt8} {name : Str} {params : Params}
    (h : Reads w (contentType decodeText w) x t (some (name, params))) (msg : MmsMessage) :
    HeaderRun decodeText w msg (Field.contentType :: x) t fun n ↦
      .ok ({ msg with contentType := some name, contentTypeParams := params }, some n) := by
  intro p
  refine ReadsLoop.done (reads_field (by decide) ?_)
  rw [← List.append_nil x]
  refine ReadsAt.bind (h (p + 1)) ?_
  intro c _ hp _
  refine (get_bind _ c).trans ?_
  rw [hp, List.append_nil, List.length_cons, Nat.add_right_comm p 1, Nat.add_assoc]
  rfl

/-- A header that leads to a body, at the start of a PDU. -/
theorem decode_of_headerRun {x body : List UInt8} {msg : MmsMessage} {parts : List MmsPart}
    (hrun : HeaderRun decodeText w {} x body fun n ↦ .ok (msg, some n))
    (hparts : ∀ c, bodyParts decodeText w msg body c = .ok (parts, c))
    (hfits : (x ++ body).length < 2 ^ w) :
    decode decodeText w (x ++ body) = .ok (.ok { msg with parts := parts }) := by
  have hheader := ReadsLoop.here (hrun 0) ⟨x ++ body, 0⟩ (valid_start hfits) rfl rfl
  rw [Nat.zero_add] at hheader
  have hbody (c : Reader) : sub (x ++ body) x.length (x ++ body).length c = .ok (body, c) := by
    rw [sub, if_pos ⟨by simp, le_rfl⟩, List.take_length, List.drop_left]
  have hscan : decodeScan decodeText w ⟨x ++ body, 0⟩ =
      .ok (.ok { msg with parts := parts }, Cursor.skip ⟨x ++ body, 0⟩ x.length) := by
    refine (bind_ok hheader).trans ?_
    refine (get_bind _ _).trans ?_
    refine (bind_ok (hbody _)).trans ?_
    exact (bind_ok (hparts _)).trans rfl
  rw [decode, onBytes, hscan]
  rfl

/-- The recipients come in order behind those that the message has. -/
theorem headerRun_to (hdecode : DecodesUtf8 decodeText) {addrs : List Str}
    (h : ∀ addr ∈ addrs, LegalAddress addr)
    (hfits : Fits w
      (addrs.flatMap fun addr ↦ Field.toAddrs :: writeEncodedString (formatAddress addr)).length)
    (msg : MmsMessage) {y t : List UInt8} {v : Nat → Headers}
    (hrun : HeaderRun decodeText w
      { msg with toAddrs := msg.toAddrs ++ addrs.map formatAddress } y t v) :
    HeaderRun decodeText w msg
      ((addrs.flatMap fun addr ↦ Field.toAddrs :: writeEncodedString (formatAddress addr)) ++ y) t v := by
  induction addrs generalizing msg with
  | nil =>
    rw [List.map_nil, List.append_nil] at hrun
    exact hrun
  | cons addr addrs ih =>
    rw [List.flatMap_cons] at hfits ⊢
    rw [List.append_assoc]
    have haddr := h addr List.mem_cons_self
    refine HeaderRun.cont (List.cons_ne_nil _ _)
      (reads_to hdecode msg haddr (hfits.left.tail) _) ?_
    refine ih (fun a ha ↦ h a (List.mem_cons_of_mem _ ha)) hfits.right _ ?_
    rw [List.append_assoc]
    exact hrun

end Header

/-! ## The request -/

/-- The texts of a request that can be written as WSP text and read again as UTF-8. -/
structure SendReq.Legal (req : SendReq) : Prop where
  transactionId : WspText req.transactionId
  fromAddr : ∀ addr ∈ req.fromAddr, LegalAddress addr
  toAddrs : ∀ addr ∈ req.toAddrs, LegalAddress addr
  subject : ∀ s ∈ req.subject, WspText s ∧ s.head? ≠ some byteOrderMark
  parts : ∀ part ∈ req.parts, part.Legal
  count : req.parts.length ≤ 256

/-- The request as it comes back, up to the spelling of content types and what is not written. -/
structure SameRequest (req : SendReq) (msg : MmsMessage) : Prop where
  messageType : msg.messageType = 0x80
  transactionId : msg.transactionId = some req.transactionId
  fromAddr : msg.fromAddr = req.fromAddr.map formatAddress
  toAddrs : msg.toAddrs = req.toAddrs.map formatAddress
  subject : msg.subject = req.subject.filter (· ≠ [])
  parts : List.Forall₂ SamePart req.parts msg.parts

def subjectBytes : Option Str → List UInt8
  | some subject => if subject ≠ [] then Field.subject :: writeEncodedString subject else []
  | none => []

/-- All of the PDU before the parts. -/
def encodeHeader (req : SendReq) : List UInt8 :=
  [Field.messageType, sendReq] ++
  (Field.transactionId :: writeTextString req.transactionId ++
  ([Field.mmsVersion, version12] ++
  (Field.fromAddr :: encodeFrom req.fromAddr ++
  ((req.toAddrs.flatMap fun addr ↦ Field.toAddrs :: writeEncodedString (formatAddress addr)) ++
  (subjectBytes req.subject ++
  ([Field.messageClass, 0x80] ++
  ([Field.deliveryReport, if req.deliveryReport then 0x80 else 0x81] ++
  ([Field.readReport, if req.readReport then 0x80 else 0x81] ++
  (Field.contentType :: encodeContentType req.parts)))))))))

theorem encodeSendReq_eq (req : SendReq) :
    encodeSendReq req = encodeHeader req ++ encodeMultipart req.parts := by
  unfold encodeSendReq encodeHeader
  simp only [List.append_assoc]
  rfl

section Request

variable {decodeText : Encoding → List UInt8 → Str} {w : Nat}

/-- A subject is there if it is not empty. -/
theorem headerRun_subject (hdecode : DecodesUtf8 decodeText) {subject : Option Str}
    (h : ∀ s ∈ subject, WspText s ∧ s.head? ≠ some byteOrderMark)
    (hfits : Fits w (subjectBytes subject).length) (msg : MmsMessage) (hmsg : msg.subject = none)
    {y t : List UInt8} {v : Nat → Headers}
    (hrun : HeaderRun decodeText w { msg with subject := subject.filter (· ≠ []) } y t v) :
    HeaderRun decodeText w msg (subjectBytes subject ++ y) t v := by
  have hnone (hrun : HeaderRun decodeText w { msg with subject := none } y t v) :
      HeaderRun decodeText w msg y t v := by rwa [← hmsg] at hrun
  unfold subjectBytes at hfits ⊢
  cases subject with
  | none => exact hnone hrun
  | some subject =>
    dsimp only at hfits ⊢
    by_cases hne : subject = []
    · rw [Option.filter_some_neg (by simpa using hne)] at hrun
      rw [if_neg (not_not.mpr hne)]
      exact hnone hrun
    · rw [Option.filter_some_pos (by simpa using hne)] at hrun
      obtain ⟨htext, hbom⟩ := h subject rfl
      rw [if_pos hne] at hfits ⊢
      exact HeaderRun.cont (List.cons_ne_nil _ _)
        (reads_subject hdecode msg htext hbom (hfits.tail) _) hrun

/-- The loop over the header ends in a message that is the request but for its parts. -/
theorem headerRun_encodeHeader (hdecode : DecodesUtf8 decodeText) {req : SendReq} (h : req.Legal)
    (hfits : Fits w (encodeHeader req).length) (t : List UInt8) :
    ∃ msg : MmsMessage, isMultipart (msg.contentType.getD []) = true ∧
      (∀ parts, List.Forall₂ SamePart req.parts parts → SameRequest req { msg with parts := parts }) ∧
      HeaderRun decodeText w {} (encodeHeader req) t fun n ↦ .ok (msg, some n) := by
  unfold encodeHeader at hfits ⊢
  have hfits₁ := hfits.right.right.right
  have hfits₂ := hfits₁.right
  have hfits₃ := hfits₂.right
  have hfits₄ := hfits₃.right.right.right.right
  obtain ⟨ct, name, params, hct, hgives, hmultipart⟩ :=
    encodeContentType_spec hdecode h.parts (hfits₄.tail)
  let msg : MmsMessage := {
    messageType := 0x80
    transactionId := some req.transactionId
    version := some version12
    fromAddr := req.fromAddr.map formatAddress
    toAddrs := req.toAddrs.map formatAddress
    subject := req.subject.filter (· ≠ [])
    messageClass := some "personal"
    contentType := some name
    contentTypeParams := params }
  refine ⟨msg, hmultipart, fun parts hparts ↦ ⟨rfl, rfl, rfl, rfl, rfl, hparts⟩, ?_⟩
  refine HeaderRun.cont (by simp) (reads_messageType {} 0x80 _) ?_
  refine HeaderRun.cont (by simp) (reads_transactionId _ h.transactionId _) ?_
  refine HeaderRun.cont (by simp) (reads_version _ version12 _) ?_
  refine HeaderRun.cont (by simp) (reads_from hdecode _ h.fromAddr (hfits₁.left.tail) _) ?_
  dsimp only
  refine headerRun_to hdecode h.toAddrs hfits₂.left _ ?_
  refine headerRun_subject hdecode h.subject hfits₃.left _ rfl ?_
  dsimp only
  refine HeaderRun.cont (by simp) (reads_messageClass _ _) ?_
  refine HeaderRun.cont (by simp) (reads_skipped _ (.inl rfl) (by split <;> simp) _) ?_
  refine HeaderRun.cont (by simp) (reads_skipped _ (.inr rfl) (by split <;> simp) _) ?_
  have hlast := hfits₄.tail
  rw [hct] at hlast ⊢
  have hlength := hlast.right
  exact headerRun_contentType
    (reads_contentType (valueLength_write hlength) hlength.usize hgives _) _

/-- The PDU of every legal request that a program can hold in memory is decoded to the request:
its header fields, and all its parts in order. -/
theorem decode_encodeSendReq (hdecode : DecodesUtf8 decodeText) {req : SendReq} (h : req.Legal)
    (hfits : Fits w (encodeSendReq req).length) :
    ∃ msg, decode decodeText w (encodeSendReq req) = .ok (.ok msg) ∧ SameRequest req msg := by
  rw [encodeSendReq_eq] at hfits ⊢
  obtain ⟨msg, hmultipart, hsame, hrun⟩ :=
    headerRun_encodeHeader hdecode h hfits.left (encodeMultipart req.parts)
  have hdecoded := hsame _ (List.forall₂_map_right_iff.mpr
    (List.forall₂_same.mpr fun part _ ↦ samePart_decodedPart part))
  refine ⟨_, decode_of_headerRun hrun (fun c ↦ ?_) hfits.usize, hdecoded⟩
  obtain ⟨c', hparts⟩ :=
    (reads_decodeMultipart hdecode h.parts h.count hfits.right []).gives hfits.right.usize
  rw [bodyParts, if_pos hmultipart, nested, hparts]

/-- Two texts to two recipients, one of the texts with a name that is not ASCII. -/
def textsReq : SendReq where
  transactionId := "T1"
  fromAddr := none
  toAddrs := ["+821012345678", "someone@example.com"]
  subject := some "제목"
  parts := [
    { contentType := "text/html", contentId := some "text0", data := [0x3C, 0x70, 0x3E] },
    { contentType := "text/HTML", params := [("name", "글")], data := [0xFF, 0x00] }]
  deliveryReport := false
  readReport := false

theorem legal_textsReq : textsReq.Legal where
  transactionId := by decide
  fromAddr := by
    intro addr haddr
    cases haddr
  toAddrs := by
    intro addr haddr
    rcases List.mem_cons.mp haddr with rfl | haddr
    · exact ⟨by decide, by decide⟩
    · rw [List.mem_singleton.mp haddr]
      exact ⟨by decide, by decide⟩
  subject := by
    rintro s ⟨⟩
    exact ⟨by decide, by decide⟩
  parts := by
    intro part hpart
    rcases List.mem_cons.mp hpart with rfl | hpart
    · refine ⟨by decide, fun name hname ↦ ?_, fun cid hcid ↦ ?_, fun loc hloc ↦ ?_⟩
      · cases hname
      · cases hcid
        refine ⟨by decide, ?_, ?_⟩
        · rintro c ⟨⟩
          decide
        · rintro c ⟨⟩
          decide
      · cases hloc
    · rw [List.mem_singleton.mp hpart]
      refine ⟨by decide, fun name hname ↦ ?_, fun cid hcid ↦ ?_, fun loc hloc ↦ ?_⟩
      · cases hname
        decide
      · cases hcid
      · cases hloc
  count := by decide

theorem decode_encodeSendReq_texts :
    ∃ msg, decode (fun _ ↦ fromUtf8Lossy) 32 (encodeSendReq textsReq) = .ok (.ok msg) ∧
      SameRequest textsReq msg :=
  decode_encodeSendReq (fun s _ ↦ fromUtf8Lossy_utf8 s) legal_textsReq
    ⟨by decide +kernel, by decide +kernel⟩

end Request

end Modem2Sip.Mms
