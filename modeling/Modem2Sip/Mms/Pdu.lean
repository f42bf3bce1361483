import Modem2Sip.Mms.Wsp

/-!
# MMS PDUs

`mms/pdu.rs` and the WAP push of `mms/mod.rs`: how a PDU is decoded, and how an
M-Send.req is built.  A decoder ends with what the source returns, a message or the
text of an error, or with the trap it ran into.
-/

namespace Modem2Sip.Mms

open Cursor Text Reader

structure MmsPart where
  contentType : Str := []
  params : Params := []
  contentId : Option Str := none
  contentLocation : Option Str := none
  data : List UInt8 := []
deriving DecidableEq, Repr

/-- The file name among the parameters of the content type, or else the location. -/
def MmsPart.name (p : MmsPart) : Option Str :=
  match p.params.find? fun e ↦ e.1 == ("name" : Str) || e.1 == ("filename" : Str) with
  | some (_, v) => some v
  | none => p.contentLocation

def MmsPart.isText (p : MmsPart) : Bool := "text/".toList.isPrefixOf p.contentType

structure MmsMessage where
  messageType : UInt8 := 0
  transactionId : Option Str := none
  version : Option UInt8 := none
  fromAddr : Option Str := none
  toAddrs : List Str := []
  cc : List Str := []
  subject : Option Str := none
  date : Option Nat := none
  messageId : Option Str := none
  messageClass : Option Str := none
  contentLocation : Option Str := none
  messageSize : Option Nat := none
  expiry : Option Nat := none
  responseStatus : Option UInt8 := none
  retrieveStatus : Option UInt8 := none
  responseText : Option Str := none
  contentType : Option Str := none
  contentTypeParams : Params := []
  parts : List MmsPart := []
deriving DecidableEq, Repr

/-! ## Header fields -/

namespace Field

def contentLocation : UInt8 := 0x83
def cc : UInt8 := 0x82
def contentType : UInt8 := 0x84
def date : UInt8 := 0x85
def deliveryReport : UInt8 := 0x86
def expiry : UInt8 := 0x88
def fromAddr : UInt8 := 0x89
def messageClass : UInt8 := 0x8A
def messageId : UInt8 := 0x8B
def messageType : UInt8 := 0x8C
def mmsVersion : UInt8 := 0x8D
def messageSize : UInt8 := 0x8E
def readReport : UInt8 := 0x90
def responseStatus : UInt8 := 0x92
def responseText : UInt8 := 0x93
def subject : UInt8 := 0x96
def toAddrs : UInt8 := 0x97
def transactionId : UInt8 := 0x98
def retrieveStatus : UInt8 := 0x99
def retrieveText : UInt8 := 0x9A

end Field

/-- The message type of an M-Send.req. -/
def sendReq : UInt8 := 0x80

def version12 : UInt8 := 0x92

/-! ## Decoding -/

section Decode

variable (decodeText : Encoding → List UInt8 → Str) (w : Nat)

/-- The sender: an address, or the token by which the MMSC puts one in. -/
def fromValue : Scan UInt8 (Option Str) := do
  match ← u8 w with
  | some 0x80 => encodedString decodeText w
  | _ => pure none

def expiryValue : Scan UInt8 (Option Nat) := do
  let _token ← u8 w
  integerValue w

def messageClassValue : Scan UInt8 (Option Str) := do
  match ← peek with
  | some v =>
    if highBit v then
      advance w 1
      let v := v &&& 0x7F
      pure (some
        (if v = 0 then "personal" else if v = 1 then "advertisement"
          else if v = 2 then "informational" else if v = 3 then "auto" else "unknown"))
    else textString w
  | none => textString w

/-- What the loop over the header fields ends with: the message so far and where its body starts,
or an error. -/
abbrev Headers := Except Str (MmsMessage × Option Nat)

/-- The field with this code; its value is ahead. -/
def decodeField (msg : MmsMessage) (b : UInt8) : Scan UInt8 (LoopStep MmsMessage Headers) := do
  if b = Field.messageType then
    pure (.cont { msg with messageType := (← u8 w).getD 0 })
  else if b = Field.transactionId then
    pure (.cont { msg with transactionId := ← textString w })
  else if b = Field.mmsVersion then
    pure (.cont { msg with version := ← u8 w })
  else if b = Field.fromAddr then
    let len := (← boundedValueLength w).getD 0
    pure (.cont { msg with fromAddr := ← inner w len (fromValue decodeText w) })
  else if b = Field.toAddrs then
    pure (.cont { msg with toAddrs := msg.toAddrs ++ (← encodedString decodeText w).toList })
  else if b = Field.cc then
    pure (.cont { msg with cc := msg.cc ++ (← encodedString decodeText w).toList })
  else if b = Field.subject then
    pure (.cont { msg with subject := ← encodedString decodeText w })
  else if b = Field.messageId then
    pure (.cont { msg with messageId := ← textString w })
  else if b = Field.contentLocation then
    pure (.cont { msg with contentLocation := ← textString w })
  else if b = Field.date then
    pure (.cont { msg with date := ← longInt w })
  else if b = Field.messageSize then
    pure (.cont { msg with messageSize := ← integerValue w })
  else if b = Field.messageClass then
    pure (.cont { msg with messageClass := ← messageClassValue w })
  else if b = Field.expiry then
    let len := (← boundedValueLength w).getD 0
    pure (.cont { msg with expiry := ← inner w len (expiryValue w) })
  else if b = Field.responseStatus then
    pure (.cont { msg with responseStatus := ← u8 w })
  else if b = Field.retrieveStatus then
    pure (.cont { msg with retrieveStatus := ← u8 w })
  else if b = Field.responseText ∨ b = Field.retrieveText then
    pure (.cont { msg with responseText := ← encodedString decodeText w })
  else if b = Field.contentType then
    match ← contentType decodeText w with
    | none => pure (.done (.error "malformed MMS Content-Type"))
    | some (ct, params) =>
      -- The content type is always the last field.
      let r ← get
      pure (.done (.ok ({ msg with contentType := some ct, contentTypeParams := params }, some r.pos)))
  else
    match ← skipValue w with
    | none => pure (.done (.ok (msg, none)))
    | some () => pure (.cont msg)

/-- One iteration of the loop over the header fields. -/
def decodeHeader (msg : MmsMessage) : Scan UInt8 (LoopStep MmsMessage Headers) := do
  if ← atEnd then pure (.done (.ok (msg, none)))
  else
    match ← peek with
    | none => pure (.done (.ok (msg, none)))
    | some b =>
      if b < 0x80 then
        -- A header with a name in text.
        let _name ← textString w
        match ← skipValue w with
        | none => pure (.done (.ok (msg, none)))
        | some () => pure (.cont msg)
      else
        advance w 1
        decodeField decodeText w msg b

/-- One iteration of the loop over the header fields of a part. -/
def decodePartHeader (part : MmsPart) : Scan UInt8 (LoopStep MmsPart MmsPart) := do
  if ← atEnd then pure (.done part)
  else
    match ← u8 w with
    | none => pure (.done part)
    | some h =>
      if h = 0xC0 then
        let id ← textString w
        pure (.cont { part with contentId := id.map (trimMatches fun c ↦ c == '<' || c == '>') })
      else if h = 0x8E then
        pure (.cont { part with contentLocation := ← textString w })
      else if h < 0x80 then
        stepBack
        let _name ← textString w
        match ← skipValue w with
        | none => pure (.done part)
        | some () => pure (.cont part)
      else
        match ← skipValue w with
        | none => pure (.done part)
        | some () => pure (.cont part)

/-- The header of a part, in a reader of its own; `data` is the content of the part. -/
def decodePartHeaders (data : List UInt8) : Scan UInt8 MmsPart := do
  let (ct, params) := (← contentType decodeText w).getD ("application/octet-stream", [])
  loopHere (decodePartHeader w) { contentType := ct, params, data }

/-- A length that `usize` can hold. -/
def partLength : Scan UInt8 (Option Nat) := do
  pure ((← uintvar w).filter (· < 2 ^ w))

/-- One part, if all of it is there. -/
def decodePart : Scan UInt8 (Option MmsPart) := do
  match ← partLength w with
  | none => pure none
  | some headersLen =>
    match ← partLength w with
    | none => pure none
    | some dataLen =>
      match ← take w headersLen with
      | none => pure none
      | some headerBytes =>
        match ← take w dataLen with
        | none => pure none
        | some data => pure (some (← nested headerBytes (decodePartHeaders decodeText w data)))

/-- At most `n` parts, up to the first that cannot be read. -/
def decodeParts : Nat → List MmsPart → Scan UInt8 (List MmsPart)
  | 0, parts => pure parts
  | n + 1, parts => do
    match ← decodePart decodeText w with
    | none => pure parts
    | some part => decodeParts n (parts ++ [part])

def decodeMultipart : Scan UInt8 (List MmsPart) := do
  match ← uintvar w with
  | none => pure []
  | some count => decodeParts decodeText w (min count 256) []

def isMultipart (contentType : Str) : Bool :=
  "multipart/".toList.isPrefixOf contentType ||
    "application/vnd.wap.multipart".toList.isPrefixOf contentType

/-- The parts in what follows the header. -/
def bodyParts (msg : MmsMessage) (body : List UInt8) : Scan UInt8 (List MmsPart) :=
  let ct := msg.contentType.getD []
  if isMultipart ct then nested body (decodeMultipart decodeText w)
  else if body ≠ [] then
    pure [{ contentType := ct, params := msg.contentTypeParams, data := body }]
  else pure []

def decodeScan : Scan UInt8 (Except Str MmsMessage) := do
  match ← loopHere (decodeHeader decodeText w) {} with
  | .error e => pure (.error e)
  | .ok (msg, none) => pure (.ok msg)
  | .ok (msg, some start) =>
    let r ← get
    let body ← sub r.data start r.data.length
    pure (.ok { msg with parts := ← bodyParts decodeText w msg body })

/-- Runs a decoder on a byte string. -/
def onBytes {β : Type} (op : Scan UInt8 β) (data : List UInt8) : Except Trap β :=
  (op ⟨data, 0⟩).map (·.1)

def decode (data : List UInt8) : Except Trap (Except Str MmsMessage) :=
  onBytes (decodeScan decodeText w) data

/-! ### WAP push -/

structure WapPush where
  contentType : Str
  body : List UInt8
deriving DecidableEq, Repr

def isWapPush (data : List UInt8) : Bool :=
  3 < data.length && (data[1]? == some 0x06 || data[1]? == some 0x07)

def pushScan : Scan UInt8 (Except Str WapPush) := do
  match ← u8 w with
  | none => pure (.error "truncated push PDU")
  | some _ =>
    let _pduType ← u8 w
    match ← uintvar w with
    | none => pure (.error "bad push headers length")
    | some len =>
      -- `as usize` keeps the low bits, `checked_add` refuses to wrap.
      let r ← get
      let headersEnd := r.pos + len % 2 ^ w
      if headersEnd < 2 ^ w ∧ headersEnd ≤ r.data.length then
        let headers ← sub r.data r.pos headersEnd
        match ← nested headers (contentType decodeText w) with
        | none => pure (.error "push PDU without a content type")
        | some (ct, _) =>
          pure (.ok { contentType := ct, body := ← sub r.data headersEnd r.data.length })
      else pure (.error "push headers run past the end of the PDU")

def parseWapPush (data : List UInt8) : Except Trap (Except Str WapPush) :=
  if isWapPush data then onBytes (pushScan decodeText w) data
  else .ok (.error "not a WSP push PDU")

/-- Whether the push carries an MMS PDU. -/
def isMmsPush (push : WapPush) : Bool :=
  eqIgnoreCase push.contentType "application/vnd.wap.mms-message" ||
    Text.contains "mms-message" push.contentType

end Decode

/-! ## Building an M-Send.req -/

/-- An address the way MMSCs expect it. -/
def formatAddress (addr : Str) : Str :=
  let addr := trim addr
  if addr.contains '@' || Text.contains "/TYPE=" addr then addr else addr ++ "/TYPE=PLMN"

structure SendReq where
  transactionId : Str
  fromAddr : Option Str
  toAddrs : List Str
  subject : Option Str
  parts : List MmsPart
  deliveryReport : Bool
  readReport : Bool
deriving DecidableEq, Repr

def encodeFrom : Option Str → List UInt8
  | some addr =>
    let inner := 0x80 :: writeEncodedString (formatAddress addr)
    writeValueLength inner.length ++ inner
  | none => writeValueLength 1 ++ [0x81]

/-- The content type of the message: related parts with a presentation, or a single one. -/
def encodeContentType (parts : List MmsPart) : List UInt8 :=
  let ct :=
    if 1 < parts.length then
      [0x80 ||| 0x33, 0x80 ||| 0x09] ++ writeTextString "application/smil" ++
        match parts.head?.bind (·.contentId) with
        | some cid => (0x80 ||| 0x19) :: writeTextString ("<" ++ cid ++ ">")
        | none => []
    else [0x80 ||| 0x23]
  writeValueLength ct.length ++ ct

def encodePartType (part : MmsPart) : List UInt8 :=
  (match contentTypeCode part.contentType with
    | some code => [0x80 ||| code]
    | none => writeTextString part.contentType) ++
  (if part.isText then (0x80 ||| 0x01) :: writeIntegerValue charsetUtf8 else []) ++
  (match part.name with
    | some name => (0x80 ||| 0x17) :: writeTextString name
    | none => [])

def encodePartHeaders (part : MmsPart) : List UInt8 :=
  let ct := encodePartType part
  writeValueLength ct.length ++ ct ++
  (match part.contentId with
    | some cid => 0xC0 :: writeTextString ("<" ++ cid ++ ">")
    | none => []) ++
  (match part.contentLocation with
    | some loc => 0x8E :: writeTextString loc
    | none => [])

def encodePart (part : MmsPart) : List UInt8 :=
  let headers := encodePartHeaders part
  writeUintvar headers.length ++ writeUintvar part.data.length ++ headers ++ part.data

def encodeMultipart (parts : List MmsPart) : List UInt8 :=
  writeUintvar parts.length ++ parts.flatMap encodePart

def encodeSendReq (req : SendReq) : List UInt8 :=
  [Field.messageType, sendReq] ++
  Field.transactionId :: writeTextString req.transactionId ++
  [Field.mmsVersion, version12] ++
  Field.fromAddr :: encodeFrom req.fromAddr ++
  (req.toAddrs.flatMap fun addr ↦ Field.toAddrs :: writeEncodedString (formatAddress addr)) ++
  (match req.subject with
    | some subject => if subject ≠ [] then Field.subject :: writeEncodedString subject else []
    | none => []) ++
  [Field.messageClass, 0x80] ++
  [Field.deliveryReport, if req.deliveryReport then 0x80 else 0x81] ++
  [Field.readReport, if req.readReport then 0x80 else 0x81] ++
  Field.contentType :: encodeContentType req.parts ++
  encodeMultipart req.parts

end Modem2Sip.Mms
