import Modem2Sip.Messages.Sms
import Modem2Sip.Mms.Message
import Modem2Sip.Store.Attachments

/-!
# Multimedia messages

`mms/manager.rs`: a notification is stored, its message is downloaded and stored with its parts, and a
message is submitted.  HTTP options and logging are left out.
-/

namespace Modem2Sip.Messages

open Text Store Mms

/-- Code from outside: decoders of charsets, the date of a time in seconds, and which characters are
letters or digits. -/
structure Outside where
  decodeText : Encoding → List UInt8 → Str
  decoderFor : Str → Option (List UInt8 → Str)
  unixToIso : Nat → Str
  isAlphanumeric : Char → Bool

namespace Outside

variable (x : Outside)

/-- `pdu::decode`.  There is no input for which the decoder traps. -/
def decode (data : List UInt8) : Except Str MmsMessage :=
  match Mms.decode x.decodeText 64 data with
  | .ok r => r
  | .error _ => .error "trap"

/-- `parse_wap_push`. -/
def parseWapPush (data : List UInt8) : Except Str WapPush :=
  match Mms.parseWapPush x.decodeText 64 data with
  | .ok r => r
  | .error _ => .error "trap"

/-- The notification that a push carries, if it is an MMS push. -/
def readPush (data : List UInt8) : Except Str (Option (WapPush × MmsMessage)) :=
  match x.parseWapPush data with
  | .error _ => .error "decoding the WAP push"
  | .ok push =>
    if isMmsPush push then
      match x.decode push.body with
      | .error _ => .error "decoding the MMS PDU"
      | .ok notification => .ok (some (push, notification))
    else .ok none

end Outside

variable (x : Outside) (cfg : Config)

/-- `run_setup_command`. -/
def runSetupCommand : Attempt Unit :=
  match cfg.setupCommand with
  | none => pure ()
  | some cmd => ExceptT.mk (Prog.ask (Call.setupCommand cmd))

/-! ## Retrieval -/

/-- Where the message is, if it is not too large. -/
def location (notification : MmsMessage) : Except Str Str :=
  match notification.contentLocation with
  | none => .error "notification has no X-Mms-Content-Location"
  | some url =>
    match notification.messageSize.filter (cfg.maxSize < ·) with
    | some size => .error ("message of " ++ dec size ++ " bytes exceeds mms.max_size")
    | none => .ok url

/-- The message in the reply of the MMSC, if it is one. -/
def readReply (resp : HttpResponse) : Except Str MmsMessage :=
  if resp.status ≠ 200 then .error ("MMSC returned HTTP " ++ dec resp.status)
  else
    match x.decode resp.body with
    | .error _ => .error "decoding M-Retrieve.conf"
    | .ok message =>
      if message.messageType ≠ retrieveConf ∧ message.parts = [] then
        .error ("the MMSC returned a " ++ messageTypeName message.messageType ++ " with no content (" ++
          resp.contentType.getD "no content type" ++ ", " ++ dec resp.body.length ++
          " bytes) instead of an M-Retrieve.conf")
      else
        match message.retrieveStatus.filter (· != 0x80) with
        | some status =>
          .error ("the MMSC refused the retrieval: status 0x" ++ hexPad 2 status.toNat ++ " " ++
            message.responseText.getD [])
        | none => .ok message

/-- The parts are stored, numbered from the index on; the presentation is not. -/
def storeParts (id : Nat) : Nat → List MmsPart → Attempt Nat
  | index, [] => pure index
  | index, part :: parts =>
    if part.isSmil then storeParts id index parts
    else do
      Attempt.addAttachment x.isAlphanumeric cfg.attachmentsDir id (index + 1) part.contentType part.name
        part.contentId part.data
      storeParts id (index + 1) parts

/-- `store_retrieved`. -/
def storeRetrieved (id : Nat) (message : MmsMessage) : Attempt Unit := do
  Attempt.updateReceivedMms id message.subject
    (message.bodyText x.decoderFor (x.decodeText .utf8)) (message.date.map x.unixToIso)
  let index ← storeParts x cfg id 0 message.parts
  Attempt.pruneAttachments id index
  Attempt.setStatus id "received" none

/-- A request whose answer does not matter. -/
def postQuietly (url : Str) (body : List UInt8) : Attempt Unit :=
  ExceptT.mk (.call (Call.httpPost url body) fun _ ↦ .done (.ok ()))

/-- The end of `retrieve`: the MMSC is told. -/
def acknowledge (notification message : MmsMessage) : Attempt Unit :=
  match message.transactionId.or notification.transactionId, cfg.mmsc with
  | some tid, some mmsc => postQuietly mmsc (encodeAcknowledgeInd tid false)
  | _, _ => pure ()

/-- `retrieve`, without the marks around it. -/
def download (notification : MmsMessage) (id : Nat) : Attempt Unit := do
  let url ← Attempt.ofExcept (location cfg notification)
  runSetupCommand cfg
  let reply ← Prog.outcome (ExceptT.mk (Prog.ask (Call.httpGet url)))
  match reply with
  | .error _ => Attempt.fail "fetching the MMS body"
  | .ok resp =>
    let message ← Attempt.ofExcept (readReply x resp)
    storeRetrieved x cfg id message
    acknowledge cfg notification message

/-- `retrieve`. -/
def retrieve (notification : MmsMessage) (id : Nat) : Attempt Unit :=
  ExceptT.mk (.call (Call.retrieving id) fun _ ↦
    Prog.bind (download x cfg notification id) fun r ↦
      .call (Call.retrieved id r.isOk) fun _ ↦ .done r)

/-! ## Notifications -/

/-- `notify_resp`. -/
def notifyResp (notification : MmsMessage) (status : UInt8) : Attempt Unit :=
  match notification.transactionId, cfg.mmsc with
  | some tid, some mmsc => postQuietly mmsc (encodeNotifyRespInd tid status false)
  | _, _ => pure ()

/-- What identifies a notification. -/
def notificationId (notification : MmsMessage) : Option Str :=
  notification.transactionId.or notification.messageId

/-- The row of a notification. -/
def pushMessage (sms : SmsInfo) (push : WapPush) (notification : MmsMessage) : NewMessage where
  kind := .mms
  direction := .incoming
  peer := cfg.localNumber (notification.sender.getD sms.number)
  ownNumber := none
  subject := notification.subject
  text := none
  timestamp := notification.date.map x.unixToIso
  status := "notified"
  externalId := notificationId notification
  raw := some push.body

/-- `retriable_duplicate`: the row of a notification whose message is still missing. -/
def retriableDuplicate (externalId : Option Str) : Attempt (Option Nat) :=
  if cfg.mmsEnabled && cfg.autoRetrieve then
    match externalId with
    | none => pure none
    | some externalId => do
      let found ← Prog.outcome (Attempt.findByExternalId .mms .incoming externalId)
      match found with
      | .ok (some (id, status)) =>
        pure (if status = "notified" ∨ status = "retrieve_failed" then some id else none)
      | _ => pure none
  else pure none

/-- A retrieval whose failure is recorded. -/
def retrieveRecorded (notification : MmsMessage) (id : Nat) : Attempt (Except Str Unit) := do
  let result ← Prog.outcome (retrieve x cfg notification id)
  match result with
  | .error e =>
    Attempt.setStatus id "retrieve_failed" (some e)
    pure result
  | .ok _ => pure result

/-- A notification that is known, and retrieved if its message is missing. -/
def retryDuplicate (notification : MmsMessage) : Attempt (Option Nat) := do
  let existing ← retriableDuplicate cfg (notificationId notification)
  match existing with
  | none => pure none
  | some id =>
    let result ← retrieveRecorded x cfg notification id
    pure (if result.isOk then some id else none)

/-- A notification that is new. -/
def acceptNotification (notification : MmsMessage) (id : Nat) : Attempt (Option Nat) := do
  if !cfg.mmsEnabled then
    Attempt.setStatus id "notified" (some "mms disabled in the configuration")
  else if !cfg.autoRetrieve then
    notifyResp cfg notification 0x83
  else
    let _ ← retrieveRecorded x cfg notification id
  pure (some id)

/-- `handle_push`. -/
def handlePush (sms : SmsInfo) : Attempt (Option Nat) := do
  let pushed ← Attempt.ofExcept (x.readPush sms.data)
  match pushed with
  | none => pure none
  | some (push, notification) =>
    let stored ← Attempt.insertMessage (pushMessage x cfg sms push notification)
    match stored with
    | some id => acceptNotification x cfg notification id
    | none => retryDuplicate x cfg notification

/-- `retrieve_stored`. -/
def retrieveStored (id : Nat) : Attempt Unit := do
  if !cfg.mmsEnabled then Attempt.fail "MMS is disabled (set mms.enabled = true and mms.mmsc)"
  let raw ← Attempt.messageRaw id
  match raw with
  | none => Attempt.fail ("message " ++ dec id ++ " has no stored notification")
  | some raw =>
    match x.decode raw with
    | .error _ => Attempt.fail "decoding the stored notification"
    | .ok notification =>
      let result ← retrieveRecorded x cfg notification id
      Attempt.ofExcept result

namespace Sample

/-- Code from outside, as far as the samples need it. -/
def outside : Outside where
  decodeText _ := fromUtf8Lossy
  decoderFor _ := none
  unixToIso := dec
  isAlphanumeric := Char.isAlphanum

end Sample

end Modem2Sip.Messages
