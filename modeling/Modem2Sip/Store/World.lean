import Modem2Sip.Lib.Prog
import Modem2Sip.Store.Db

/-!
# What messages call on

The calls that the handling of messages makes: on the database, on the files of the attachments, on
the network and on the modem.  The database and the files are modelled, and may refuse any call; what
the network answers is open.
-/

namespace Modem2Sip.Store

open Text

structure HttpResponse where
  status : Nat
  contentType : Option Str
  body : List UInt8
deriving DecidableEq, Repr

/-- An attachment of a message to send. -/
structure SendAttachment where
  contentType : Str
  name : Option Str
  dataBase64 : Option Str
  path : Option Str
deriving DecidableEq, Repr

inductive Call where
  | insertMessage (msg : NewMessage)
  | findByExternalId (kind : Kind) (direction : Direction) (externalId : Str)
  | messageRaw (id : Nat)
  | getMessage (id : Nat)
  | updateReceivedMms (id : Nat) (subject text timestamp : Option Str)
  | setStatus (id : Nat) (status : Str) (error : Option Str)
  | upsertAttachment (messageId index : Nat) (row : AttachmentRow)
  /-- The two statements of `prune_attachments`. -/
  | deleteAttachments (messageId keep : Nat)
  | createDir (path : Str)
  | writeFile (path : Str) (data : List UInt8)
  | removeFile (path : Str)
  | setupCommand (cmd : Str)
  | loadAttachment (att : SendAttachment)
  | randomHex (bytes : Nat)
  | httpGet (url : Str)
  | httpPost (url : Str) (body : List UInt8)
  /-- A retrieval begins, and it ends well or not; not calls of the source. -/
  | retrieving (id : Nat)
  | retrieved (id : Nat) (ok : Bool)
  /-- Tasks that are started. -/
  | notifySip (peer body : Str)
  | deleteFromModem (path : Str)
deriving DecidableEq, Repr

/-- What a call is answered with; a failure is the text of its error. -/
def Call.Answer : Call → Type
  | .insertMessage _ => Except Str (Option Nat)
  | .findByExternalId .. => Except Str (Option (Nat × Str))
  | .messageRaw _ => Except Str (Option (List UInt8))
  | .loadAttachment _ => Except Str (List UInt8)
  | .getMessage _ => Except Str (Option MessageRow)
  | .deleteAttachments .. => Except Str (List Str)
  | .httpGet _ | .httpPost .. => Except Str HttpResponse
  | .randomHex _ => Str
  | .updateReceivedMms .. | .setStatus .. | .upsertAttachment .. | .createDir _ | .writeFile ..
  | .removeFile _ | .setupCommand _ => Except Str Unit
  | .retrieving _ | .retrieved .. | .notifySip .. | .deleteFromModem _ => Unit

/-- The database and the files; an attachment is under its message and its index. -/
structure State where
  messages : Messages
  attachments : Map (Nat × Nat) AttachmentRow
  files : Map Str (List UInt8)

namespace State

def empty : State := ⟨.empty, .empty, .empty⟩

/-- The paths of the attachments of a message above an index. -/
def stalePaths (s : State) (messageId keep : Nat) : List Str :=
  (s.attachments.entries.filter fun e ↦ e.1.1 == messageId && keep < e.1.2).map fun e ↦ e.2.path

/-- The attachments but for those above an index. -/
def pruned (s : State) (messageId keep : Nat) : State :=
  { s with attachments := s.attachments.retain fun k _ ↦ !(k.1 == messageId && keep < k.2) }

/-- A statement: it has its effect and its result, or fails and has none. -/
def Statement {α : Type} (s : State) (result : α) (after : State) (r : Except Str α) (s' : State) : Prop :=
  match r with
  | .ok a => a = result ∧ s' = after
  | .error _ => s' = s

/-- A file is written, or it fails and whatever is there then is not known. -/
def FileWrite (s : State) (path : Str) (data : List UInt8) (r : Except Str Unit) (s' : State) : Prop :=
  match r with
  | .ok _ => s' = { s with files := s.files.insert path data }
  | .error _ => s'.messages = s.messages ∧ s'.attachments = s.attachments ∧
      ∀ p, p ≠ path → s'.files.get? p = s.files.get? p

/-- How a call is answered, and what is stored then.  A row of `attachments` needs its message. -/
def world : Prog.World Call Call.Answer State
  | s, .insertMessage msg, r, s' =>
    Statement s (s.messages.insertMessage msg).1 { s with messages := (s.messages.insertMessage msg).2 } r s'
  | s, .findByExternalId kind direction externalId, r, s' =>
    Statement s (s.messages.findByExternalId kind direction externalId) s r s'
  | s, .messageRaw id, r, s' => Statement s (s.messages.messageRaw id) s r s'
  | s, .getMessage id, r, s' => Statement s (s.messages.row? id) s r s'
  | s, .updateReceivedMms id subject text timestamp, r, s' =>
    Statement s () { s with messages := s.messages.updateReceivedMms id subject text timestamp } r s'
  | s, .setStatus id status error, r, s' =>
    Statement s () { s with messages := s.messages.setStatus id status error } r s'
  | s, .upsertAttachment messageId index row, r, s' =>
    Statement s () { s with attachments := s.attachments.insert (messageId, index) row } r s' ∧
      (r.isOk = true → (s.messages.row? messageId).isSome)
  | s, .deleteAttachments messageId keep, r, s' =>
    Statement s (s.stalePaths messageId keep) (s.pruned messageId keep) r s'
  | s, .writeFile path data, r, s' => FileWrite s path data r s'
  | s, .removeFile path, r, s' => Statement s () { s with files := s.files.erase path } r s'
  | s, .createDir _, _, s' | s, .setupCommand _, _, s' | s, .loadAttachment _, _, s'
  | s, .randomHex _, _, s' | s, .httpGet _, _, s' | s, .httpPost .., _, s'
  | s, .retrieving _, _, s' | s, .retrieved .., _, s' | s, .notifySip .., _, s'
  | s, .deleteFromModem _, _, s' => s' = s

/-- A known message is answered with nothing, and nothing is stored. -/
theorem world_insertMessage_known {s : State} {msg : NewMessage} (h : s.messages.Known msg) :
    world s (.insertMessage msg) (.ok none : Except Str (Option Nat)) s := by
  have hinsert := Messages.insertMessage_of_known h
  refine ⟨(congrArg Prod.fst hinsert).symm, ?_⟩
  rw [hinsert]

/-- The statements that write the table of messages. -/
def writesMessages : Call → Bool
  | .insertMessage _ | .updateReceivedMms .. | .setStatus .. => true
  | _ => false

/-- No other call changes it. -/
theorem world_messages {s s' : State} {c : Call} {r : c.Answer} (hc : writesMessages c = false)
    (hW : world s c r s') : s'.messages = s.messages := by
  cases c with
  | insertMessage | updateReceivedMms | setStatus => cases hc
  | upsertAttachment =>
      cases r with
      | error e => rw [hW.1]
      | ok u => rw [hW.1.2]
  | deleteAttachments =>
      cases r with
      | error e => rw [hW]
      | ok paths => rw [hW.2, pruned]
  | findByExternalId | messageRaw | getMessage | removeFile =>
      cases r with
      | error e => rw [hW]
      | ok a => rw [hW.2]
  | writeFile =>
      cases r with
      | error e => exact hW.1
      | ok u =>
          change s' = _ at hW
          rw [hW]
  | _ =>
      change s' = s at hW
      rw [hW]

end State

/-! ## What is seen of a run -/

/-- The row that is created. -/
def createdRow : Prog.Event Call Call.Answer → Option Nat
  | ⟨.insertMessage _, (.ok id : Except Str (Option Nat))⟩ => id
  | _ => none

/-- A statement of the database has failed. -/
def databaseFails : Prog.Event Call Call.Answer → Bool
  | ⟨.insertMessage _, (.error _ : Except Str (Option Nat))⟩
  | ⟨.findByExternalId .., (.error _ : Except Str (Option (Nat × Str)))⟩
  | ⟨.messageRaw _, (.error _ : Except Str (Option (List UInt8)))⟩
  | ⟨.getMessage _, (.error _ : Except Str (Option MessageRow))⟩
  | ⟨.updateReceivedMms .., (.error _ : Except Str Unit)⟩
  | ⟨.setStatus .., (.error _ : Except Str Unit)⟩
  | ⟨.upsertAttachment .., (.error _ : Except Str Unit)⟩
  | ⟨.deleteAttachments .., (.error _ : Except Str (List Str))⟩ => true
  | _ => false

/-- The message of which a retrieval begins. -/
def retrievalOf : Prog.Event Call Call.Answer → Option Nat
  | ⟨.retrieving id, _⟩ => some id
  | _ => none

/-- A retrieval has ended well. -/
def fetches : Prog.Event Call Call.Answer → Bool
  | ⟨.retrieved _ ok, _⟩ => ok
  | _ => false

/-! ## Programs -/

abbrev Act := Prog Call Call.Answer

/-- A program that may fail. -/
abbrev Attempt := ExceptT Str Act

namespace Attempt

def ofExcept {α : Type} (r : Except Str α) : Attempt α := ExceptT.mk (.done r)

def fail {α : Type} (e : Str) : Attempt α := ofExcept (.error e)

/-- A call that may fail, and whose failure is the failure of the program. -/
def insertMessage (msg : NewMessage) : Attempt (Option Nat) := ExceptT.mk (Prog.ask (Call.insertMessage msg))

def findByExternalId (kind : Kind) (direction : Direction) (externalId : Str) :
    Attempt (Option (Nat × Str)) :=
  ExceptT.mk (Prog.ask (Call.findByExternalId kind direction externalId))

def messageRaw (id : Nat) : Attempt (Option (List UInt8)) := ExceptT.mk (Prog.ask (Call.messageRaw id))

def getMessage (id : Nat) : Attempt (Option MessageRow) := ExceptT.mk (Prog.ask (Call.getMessage id))

def updateReceivedMms (id : Nat) (subject text timestamp : Option Str) : Attempt Unit :=
  ExceptT.mk (Prog.ask (Call.updateReceivedMms id subject text timestamp))

def setStatus (id : Nat) (status : Str) (error : Option Str) : Attempt Unit :=
  ExceptT.mk (Prog.ask (Call.setStatus id status error))

/-- A task is started. -/
def notifySip (peer body : Str) : Attempt Unit := ExceptT.mk (.call (Call.notifySip peer body) fun _ ↦ .done (.ok ()))

def deleteFromModem (path : Str) : Attempt Unit :=
  ExceptT.mk (.call (Call.deleteFromModem path) fun _ ↦ .done (.ok ()))

end Attempt

end Modem2Sip.Store
