import Modem2Sip.Mms.Pdu

/-!
# Messages as they are handled

The rest of `mms/pdu.rs`: what a decoded message says, and the PDUs and the presentation that the
gateway writes besides an M-Send.req.
-/

namespace Modem2Sip.Mms

open Text

/-! ## Reading -/

def notificationInd : UInt8 := 0x82

def retrieveConf : UInt8 := 0x84

/-- `msg_type::name`. -/
def messageTypeName (t : UInt8) : Str :=
  if t = 0x80 then "m-send-req"
  else if t = 0x81 then "m-send-conf"
  else if t = 0x82 then "m-notification-ind"
  else if t = 0x83 then "m-notifyresp-ind"
  else if t = 0x84 then "m-retrieve-conf"
  else if t = 0x85 then "m-acknowledge-ind"
  else if t = 0x86 then "m-delivery-ind"
  else if t = 0x87 then "m-read-rec-ind"
  else if t = 0x88 then "m-read-orig-ind"
  else "unknown"

/-- An address without its `/TYPE=` suffix. -/
def stripAddressType (addr : Str) : Str := trim (before '/' addr)

def MmsMessage.sender (m : MmsMessage) : Option Str := m.fromAddr.map stripAddressType

/-- Is the part the layout of the message? -/
def MmsPart.isSmil (p : MmsPart) : Bool := Text.contains "smil" p.contentType

/-- The text of a part.  `decoderFor` has the decoder of a charset label, and `utf8Text` is the one
for UTF-8. -/
def MmsPart.text (decoderFor : Str → Option (List UInt8 → Str)) (utf8Text : List UInt8 → Str)
    (p : MmsPart) : Option Str :=
  if p.isText then
    let label := p.params.find? fun e ↦ e.1 == ("charset" : Str)
    some (((label.bind fun e ↦ decoderFor e.2).getD utf8Text) p.data)
  else none

/-- The texts of a message, one to a line. -/
def MmsMessage.bodyText (decoderFor : Str → Option (List UInt8 → Str)) (utf8Text : List UInt8 → Str)
    (m : MmsMessage) : Option Str :=
  let texts := (m.parts.filter fun p ↦ p.isText && !p.isSmil).filterMap (·.text decoderFor utf8Text)
  if texts = [] then none else some (['\n'].intercalate texts)

/-! ## Writing -/

/-- `encode_notify_resp_ind`. -/
def encodeNotifyRespInd (transactionId : Str) (status : UInt8) (reportAllowed : Bool) : List UInt8 :=
  [Field.messageType, 0x83] ++ Field.transactionId :: writeTextString transactionId ++
    [Field.mmsVersion, version12, 0x95, status, 0x91, if reportAllowed then 0x80 else 0x81]

/-- `encode_acknowledge_ind`. -/
def encodeAcknowledgeInd (transactionId : Str) (reportAllowed : Bool) : List UInt8 :=
  [Field.messageType, 0x85] ++ Field.transactionId :: writeTextString transactionId ++
    [Field.mmsVersion, version12, 0x91, if reportAllowed then 0x80 else 0x81]

/-- The line of a part in the presentation. -/
def smilLine (p : MmsPart) : Str :=
  let starts (prefixText : Str) : Bool := prefixText.isPrefixOf p.contentType
  match p.contentId with
  | none => []
  | some cid =>
    if starts "image/" then "      <img src=\"cid:" ++ cid ++ "\" region=\"Image\"/>\n"
    else if starts "text/" then "      <text src=\"cid:" ++ cid ++ "\" region=\"Text\"/>\n"
    else if starts "audio/" || starts "video/" then
      "      <video src=\"cid:" ++ cid ++ "\" region=\"Image\"/>\n"
    else []

/-- `build_smil`. -/
def buildSmil (parts : List MmsPart) : Str :=
  "<smil>\n  <head>\n    <layout>\n      <root-layout width=\"320px\" height=\"480px\"/>\n" ++
    "      <region id=\"Image\" top=\"0%\" left=\"0%\" height=\"80%\" width=\"100%\" fit=\"meet\"/>\n" ++
    "      <region id=\"Text\" top=\"80%\" left=\"0%\" height=\"20%\" width=\"100%\" fit=\"scroll\"/>\n" ++
    "    </layout>\n  </head>\n  <body>\n    <par dur=\"8000ms\">\n" ++ parts.flatMap smilLine ++
    "    </par>\n  </body>\n</smil>\n"

end Modem2Sip.Mms
