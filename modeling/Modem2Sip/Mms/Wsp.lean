import Modem2Sip.Lib.Cursor
import Modem2Sip.Lib.Text

/-!
# The primitive encodings of WSP

`mms/wsp.rs`: the reader that every MMS PDU is decoded with, and the writers that
build one.  A reader is a cursor over bytes and its methods are walks of it, so an
index outside the buffer, a position that wraps and a loop that does not end are
values that a theorem can rule out.  The width of `usize` is the parameter `w`, and
what the decoders of `encoding_rs` make of a byte string is the parameter
`decodeText`.
-/

namespace Modem2Sip.Mms

open Cursor Text

abbrev Reader := Cursor UInt8

/-! ## Assigned numbers -/

/-- Well-known content types. -/
def contentTypes : List (UInt8 × String) := [
  (0x00, "*/*"),
  (0x01, "text/*"),
  (0x02, "text/html"),
  (0x03, "text/plain"),
  (0x04, "text/x-hdml"),
  (0x05, "text/x-ttml"),
  (0x06, "text/x-vCalendar"),
  (0x07, "text/x-vCard"),
  (0x08, "text/vnd.wap.wml"),
  (0x09, "text/vnd.wap.wmlscript"),
  (0x0A, "text/vnd.wap.wta-event"),
  (0x0B, "multipart/*"),
  (0x0C, "multipart/mixed"),
  (0x0D, "multipart/form-data"),
  (0x0E, "multipart/byteranges"),
  (0x0F, "multipart/alternative"),
  (0x10, "application/*"),
  (0x11, "application/java-vm"),
  (0x12, "application/x-www-form-urlencoded"),
  (0x13, "application/x-hdmlc"),
  (0x14, "application/vnd.wap.wmlc"),
  (0x15, "application/vnd.wap.wmlscriptc"),
  (0x16, "application/vnd.wap.wta-eventc"),
  (0x17, "application/vnd.wap.uaprof"),
  (0x18, "application/vnd.wap.wtls-ca-certificate"),
  (0x19, "application/vnd.wap.wtls-user-certificate"),
  (0x1A, "application/x-x509-ca-cert"),
  (0x1B, "application/x-x509-user-cert"),
  (0x1C, "image/*"),
  (0x1D, "image/gif"),
  (0x1E, "image/jpeg"),
  (0x1F, "image/tiff"),
  (0x20, "image/png"),
  (0x21, "image/vnd.wap.wbmp"),
  (0x22, "application/vnd.wap.multipart.*"),
  (0x23, "application/vnd.wap.multipart.mixed"),
  (0x24, "application/vnd.wap.multipart.form-data"),
  (0x25, "application/vnd.wap.multipart.byteranges"),
  (0x26, "application/vnd.wap.multipart.alternative"),
  (0x27, "application/xml"),
  (0x28, "text/xml"),
  (0x29, "application/vnd.wap.wbxml"),
  (0x2A, "application/x-x968-cross-cert"),
  (0x2B, "application/x-x968-ca-cert"),
  (0x2C, "application/x-x968-user-cert"),
  (0x2D, "text/vnd.wap.si"),
  (0x2E, "application/vnd.wap.sic"),
  (0x2F, "text/vnd.wap.sl"),
  (0x30, "application/vnd.wap.slc"),
  (0x31, "text/vnd.wap.co"),
  (0x32, "application/vnd.wap.coc"),
  (0x33, "application/vnd.wap.multipart.related"),
  (0x34, "application/vnd.wap.sia"),
  (0x35, "text/vnd.wap.connectivity-xml"),
  (0x36, "application/vnd.wap.connectivity-wbxml"),
  (0x37, "application/pkcs7-mime"),
  (0x3E, "application/vnd.wap.mms-message")]

def contentTypeName (code : UInt8) : Str :=
  match contentTypes.find? (·.1 == code) with
  | some (_, n) => n
  | none => "application/octet-stream"

def contentTypeCode (name : Str) : Option UInt8 :=
  (contentTypes.find? fun e ↦ eqIgnoreCase e.2 name).map (·.1)

/-- Well-known parameter tokens. -/
def paramNames : List (UInt8 × String) := [
  (0x00, "q"),
  (0x01, "charset"),
  (0x02, "level"),
  (0x03, "type"),
  (0x05, "name"),
  (0x06, "filename"),
  (0x07, "differences"),
  (0x08, "padding"),
  (0x09, "type"),
  (0x0A, "start"),
  (0x0B, "start-info"),
  (0x0C, "comment"),
  (0x0D, "domain"),
  (0x0E, "max-age"),
  (0x0F, "path"),
  (0x10, "secure"),
  (0x11, "sec"),
  (0x12, "mac"),
  (0x13, "creation-date"),
  (0x14, "modification-date"),
  (0x15, "read-date"),
  (0x16, "size"),
  (0x17, "name"),
  (0x18, "filename"),
  (0x19, "start"),
  (0x1A, "start-info"),
  (0x1B, "comment"),
  (0x1C, "domain"),
  (0x1D, "path")]

def paramName (code : UInt8) : Option Str :=
  (paramNames.find? (·.1 == code)).map fun e ↦ e.2

/-- The encodings of `encoding_rs` that a charset can stand for. -/
inductive Encoding where
  | windows1252
  | utf8
  | utf16be
  | utf16le
  | eucKr
  | shiftJis
  | eucJp
  | big5
  | gbk
  | gb18030
deriving DecidableEq, Repr

def Encoding.name : Encoding → Str
  | windows1252 => "windows-1252"
  | utf8 => "UTF-8"
  | utf16be => "UTF-16BE"
  | utf16le => "UTF-16LE"
  | eucKr => "EUC-KR"
  | shiftJis => "Shift_JIS"
  | eucJp => "EUC-JP"
  | big5 => "Big5"
  | gbk => "GBK"
  | gb18030 => "gb18030"

/-- The encoding for an IANA MIBenum. -/
def charsetFor (mib : Nat) : Encoding :=
  match mib with
  | 3 | 4 => .windows1252
  | 106 => .utf8
  | 1000 | 1015 => .utf16be
  | 1013 => .utf16be
  | 1014 => .utf16le
  | 36 | 38 => .eucKr
  | 17 | 2024 => .shiftJis
  | 18 => .eucJp
  | 2026 => .big5
  | 57 | 113 | 2025 => .gbk
  | 2085 => .gb18030
  | _ => .utf8

/-! ## Reading -/

/-- The high bit, which marks a short integer or a well-known value. -/
def highBit (b : UInt8) : Bool := b &&& 0x80 != 0

namespace Reader

section

variable (w : Nat)

def u8 : Scan UInt8 (Option UInt8) := do
  match ← peek with
  | none => pure none
  | some b =>
    advance w 1
    pure (some b)

def take (n : Nat) : Scan UInt8 (Option (List UInt8)) := do
  if (← left) < n then pure none
  else
    let out ← sliceHere w n
    advance w n
    pure (some out)

/-- The groups of seven bits that are left to read, at most `n` of them. -/
def uintvarFrom : Nat → Nat → Scan UInt8 (Option Nat)
  | 0, _ => pure none
  | n + 1, value => do
    match ← u8 w with
    | none => pure none
    | some b =>
      let value := value * 2 ^ 7 % 2 ^ 64 + (b &&& 0x7F).toNat
      if highBit b then uintvarFrom n value else pure (some value)

/-- Variable length unsigned integer, seven bits a byte. -/
def uintvar : Scan UInt8 (Option Nat) := uintvarFrom w 8 0

/-- The quote that may stand before a text. -/
def skipQuote : Scan UInt8 Unit := do
  if (← peek) = some 0x7F then advance w 1 else pure ()

/-- One byte of the text that began at `start`; the NUL ends it. -/
def textByte (start : Nat) (_ : Unit) : Scan UInt8 (LoopStep Unit (Option Str)) := do
  match ← peek with
  | none => pure (.done none)
  | some b =>
    if b = 0 then
      let r ← get
      let text ← sub r.data start r.pos
      advance w 1
      pure (.done (some (fromUtf8Lossy text)))
    else
      advance w 1
      pure (.cont ())

/-- Text up to a NUL, without the quote before it. -/
def textString : Scan UInt8 (Option Str) := do
  skipQuote w
  let start := (← get).pos
  match ← loopHere (textByte w start) () with
  | some text => pure (some text)
  | none =>
    -- Unterminated: the rest is the text.
    let r ← get
    if start < r.data.length then
      let text ← sub r.data start r.data.length
      seek r.data.length
      pure (some (fromUtf8Lossy text))
    else pure none

/-- A length of up to 30 in one byte, or 0x1F and a uintvar. -/
def valueLength : Scan UInt8 (Option Nat) := do
  match ← peek with
  | none => pure none
  | some b =>
    if b ≤ 30 then
      advance w 1
      pure (some b.toNat)
    else if b = 0x1F then
      advance w 1
      -- What `usize` cannot hold is as good as its largest value.
      pure ((← uintvar w).map fun v ↦ if v < 2 ^ w then v else 2 ^ w - 1)
    else pure none

/-- A length that is in what is left of the buffer. -/
def boundedValueLength : Scan UInt8 (Option Nat) := do
  match ← valueLength w with
  | none => pure none
  | some len => pure (some (min len (← left)))

/-- A length and that many bytes, the most significant one first. -/
def longInt : Scan UInt8 (Option Nat) := do
  match ← u8 w with
  | none => pure none
  | some len =>
    if len = 0 ∨ 8 < len then pure none
    else
      match ← take w len.toNat with
      | none => pure none
      | some bytes => pure (some (bytes.foldl (fun acc b ↦ acc * 2 ^ 8 % 2 ^ 64 + b.toNat) 0))

def integerValue : Scan UInt8 (Option Nat) := do
  match ← peek with
  | none => pure none
  | some b =>
    if highBit b then
      advance w 1
      pure (some (b &&& 0x7F).toNat)
    else longInt w

/-- Reads `len` bytes with a reader of their own and goes on behind them. -/
def inner {β : Type} (len : Nat) (op : Scan UInt8 β) : Scan UInt8 β := do
  let bytes ← sliceHere w len
  advance w len
  nested bytes op

end

section

variable (decodeText : Encoding → List UInt8 → Str) (w : Nat)

/-- A charset and the text in it, up to the end of the buffer. -/
def charsetText : Scan UInt8 Str := do
  let mib := ((← integerValue w).getD 106) % 2 ^ 32
  let encoding := charsetFor mib
  let r ← get
  let raw ← sub r.data r.pos r.data.length
  -- UTF-16 ends with two NUL bytes, everything else with one.
  let terminator := if "UTF-16".toList.isPrefixOf encoding.name then 2 else 1
  if raw.length < terminator then pure (decodeText encoding raw)
  else
    let cut := raw.length - terminator
    if (← sub raw cut raw.length).all (· == 0) then
      pure (decodeText encoding (← sub raw 0 cut))
    else pure (decodeText encoding raw)

/-- Plain text, or a length, a charset and text. -/
def encodedString : Scan UInt8 (Option Str) := do
  match ← peek with
  | none => pure none
  | some b =>
    if 0x20 ≤ b ∧ b ≠ 0x7F then textString w
    else if b = 0x7F then textString w
    else
      match ← boundedValueLength w with
      | none => pure none
      | some len => pure (some (← inner w len (charsetText decodeText w)))

/-- The value of the parameter with this code. -/
def parameterValue (code : UInt8) : Scan UInt8 Str := do
  if code = 0x10 then pure []
  else if code = 0x00 then pure (((← uintvar w).map dec).getD [])
  else if code = 0x02 ∨ code = 0x0E ∨ code = 0x16 then pure (((← integerValue w).map dec).getD [])
  else if code = 0x01 then
    match ← peek with
    | some p =>
      if highBit p ∨ p < 0x20 then
        pure (((← integerValue w).map fun v ↦ (charsetFor (v % 2 ^ 32)).name).getD [])
      else pure ((← textString w).getD [])
    | none => pure ((← textString w).getD [])
  else pure ((← encodedString decodeText w).getD [])

/-- One parameter of a content type. -/
def parameter : Scan UInt8 (Option (Str × Str)) := do
  match ← u8 w with
  | none => pure none
  | some b =>
    if highBit b then
      let code := b &&& 0x7F
      pure (some ((paramName code).getD "x-unknown", ← parameterValue decodeText w code))
    else
      stepBack
      match ← textString w with
      | none => pure none
      | some name => pure (some (name, (← encodedString decodeText w).getD []))

abbrev Params := List (Str × Str)

/-- One more parameter, unless the buffer is at its end or the parameter cannot be read. -/
def nextParameter (params : Params) : Scan UInt8 (LoopStep Params Params) := do
  if ← atEnd then pure (.done params)
  else
    match ← parameter decodeText w with
    | none => pure (.done params)
    | some p => pure (.cont (params ++ [p]))

def parameters : Scan UInt8 Params := loopHere (nextParameter decodeText w) []

/-- What is in a content type with a length before it. -/
def typeAndParameters : Scan UInt8 (Option (Str × Params)) := do
  match ← peek with
  | none => pure none
  | some b =>
    if highBit b then
      advance w 1
      pure (some (contentTypeName (b &&& 0x7F), ← parameters decodeText w))
    else
      match ← textString w with
      | none => pure none
      | some name => pure (some (name, ← parameters decodeText w))

def contentType : Scan UInt8 (Option (Str × Params)) := do
  match ← peek with
  | none => pure none
  | some b =>
    if highBit b then
      advance w 1
      pure (some (contentTypeName (b &&& 0x7F), []))
    else if 0x20 ≤ b then pure ((← textString w).map (·, []))
    else
      match ← boundedValueLength w with
      | none => pure none
      | some len => inner w len (typeAndParameters decodeText w)

end

/-- Skips a value of a header that is not known. -/
def skipValue (w : Nat) : Scan UInt8 (Option Unit) := do
  match ← peek with
  | none => pure none
  | some b =>
    if b ≤ 30 ∨ b = 0x1F then
      match ← boundedValueLength w with
      | none => pure none
      | some len => pure ((← take w len).map fun _ ↦ ())
    else if highBit b then
      advance w 1
      pure (some ())
    else pure ((← textString w).map fun _ ↦ ())

end Reader

/-! ## Writing -/

/-- The groups of seven bits of `value`, at most `n` of them, put before `groups`. -/
def uintvarGroups : Nat → Nat → List UInt8 → List UInt8
  | 0, _, groups => groups
  | n + 1, value, groups =>
    let groups := UInt8.ofNat (value % 2 ^ 7) :: groups
    if value / 2 ^ 7 = 0 then groups else uintvarGroups n (value / 2 ^ 7) groups

/-- All bytes but the last say that there is another one. -/
def continued : List UInt8 → List UInt8
  | [] => []
  | [b] => [b]
  | b :: bs => (b ||| 0x80) :: continued bs

def writeUintvar (value : Nat) : List UInt8 := continued (uintvarGroups 10 value [])

/-- Text, with a quote before it where it would be taken for a binary value. -/
def writeTextString (text : Str) : List UInt8 :=
  (if (utf8 text).head?.any (0x80 ≤ ·) then [0x7F] else []) ++ utf8 text ++ [0]

def writeValueLength (len : Nat) : List UInt8 :=
  if len ≤ 30 then [UInt8.ofNat len] else 0x1F :: writeUintvar len

/-- The bytes of `value`, at most `n` of them, put before `bytes`. -/
def longIntBytes : Nat → Nat → List UInt8 → List UInt8
  | 0, _, bytes => bytes
  | n + 1, value, bytes =>
    if value = 0 then bytes else longIntBytes n (value / 2 ^ 8) (UInt8.ofNat (value % 2 ^ 8) :: bytes)

def writeLongInt (value : Nat) : List UInt8 :=
  let bytes := longIntBytes 8 value []
  let bytes := if bytes = [] then [0] else bytes
  UInt8.ofNat bytes.length :: bytes

def writeIntegerValue (value : Nat) : List UInt8 :=
  if value ≤ 127 then [0x80 ||| UInt8.ofNat value] else writeLongInt value

/-- The IANA MIBenum of UTF-8. -/
def charsetUtf8 : Nat := 106

def isAscii (text : Str) : Bool := (utf8 text).all (· < 0x80)

/-- ASCII text as it is, other text with its length and charset. -/
def writeEncodedString (text : Str) : List UInt8 :=
  if isAscii text then writeTextString text
  else
    let inner := writeIntegerValue charsetUtf8 ++ utf8 text ++ [0]
    writeValueLength inner.length ++ inner

end Modem2Sip.Mms
