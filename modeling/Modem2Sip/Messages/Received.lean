import Modem2Sip.Lib.Threads
import Modem2Sip.Messages.Notifications

/-!
# What is received stays received

Notifications and requests to retrieve a message come at any time, each in a task of its own, and
nothing keeps two retrievals of one message apart.  What a task does to a message depends on the phase
of its retrieval only.  A message that is received stays as it is as long as no retrieval of it begins
then, or while another one is under way.
-/

namespace Modem2Sip.Messages

open Text Store Mms

/-! ## Phases of a task -/

inductive Phase where
  | idle
  /-- It has made a row. -/
  | fresh (id : Nat)
  /-- It retrieves the message, and has dropped the parts with these files. -/
  | working (id : Nat) (stale : List Str)
  /-- It has stored the message. -/
  | stored (id : Nat)
  /-- It has given up, and has to say so. -/
  | failed (id : Nat)
deriving DecidableEq

namespace Phase

def next : Phase → Prog.Event Call Call.Answer → Phase
  | idle, ⟨.insertMessage _, (.ok (some id) : Except Str (Option Nat))⟩ => fresh id
  | idle, ⟨.retrieving id, _⟩ | fresh _, ⟨.retrieving id, _⟩ => working id []
  | working id _, ⟨.deleteAttachments .., (.ok paths : Except Str (List Str))⟩ => working id paths
  | working id _, ⟨.setStatus .., (.ok _ : Except Str Unit)⟩ => stored id
  | working id _, ⟨.retrieved .., _⟩ => failed id
  | stored _, ⟨.retrieved .., _⟩ => idle
  | failed _, ⟨.setStatus .., _⟩ => idle
  | q, _ => q

/-- The message whose retrieval is under way. -/
def message : Phase → Option Nat
  | working id _ | stored id | failed id => some id
  | idle | fresh _ => none

/-- The calls of a task in this phase. -/
def Legal (cfg : Config) : Phase → Call → Prop
  | idle, .insertMessage msg => msg.status = "notified"
  | idle, .findByExternalId .. | idle, .messageRaw _ | fresh _, .httpPost .. => True
  | idle, .retrieving _ | fresh _, .retrieving _ => cfg.mmsEnabled = true
  | fresh id, .setStatus m status _ => m = id ∧ status = "notified" ∧ cfg.mmsEnabled = false
  | working id stale, c =>
    match c with
    | .updateReceivedMms m .. | .deleteAttachments m _ => m = id
    | .removeFile path => path ∈ stale
    | .setStatus m status _ => m = id ∧ status = "received"
    | .retrieved m ok => m = id ∧ ok = false
    | .setupCommand _ | .httpGet _ => True
    | c => Adds cfg.attachmentsDir id c
  | stored _, .httpPost .. => True
  | stored id, .retrieved m ok => m = id ∧ ok = true
  | failed id, .setStatus m status _ => m = id ∧ status = "retrieve_failed"
  | _, _ => False

end Phase

variable {x : Outside} {cfg : Config} {id : Nat}

/-- The program keeps to its phases. -/
abbrev Keeps {α : Type} (cfg : Config) (post : Phase → α → Prop) (q : Phase) (p : Act α) : Prop :=
  Prog.Conforms Phase.next (Phase.Legal cfg) post q p

/-- A retrieval that is not at its end, and has not failed, is at work. -/
def AtWork {α : Type} (id : Nat) (q : Phase) (_ : α) : Prop := ∃ stale, q = .working id stale

theorem Adds.legal {c : Call} {stale : List Str} (h : Adds cfg.attachmentsDir id c) :
    (Phase.working id stale).Legal cfg c := by
  cases c with
  | createDir | writeFile | upsertAttachment => exact h
  | _ => cases h

theorem Adds.stays {c : Call} {stale : List Str} (h : Adds cfg.attachmentsDir id c) (r : c.Answer) :
    (Phase.working id stale).next ⟨c, r⟩ = .working id stale := by
  cases c with
  | createDir | writeFile | upsertAttachment => rfl
  | _ => cases h

theorem keeps_removeFiles {stale paths : List Str} (h : ∀ path ∈ paths, path ∈ stale) :
    Keeps cfg (AtWork id) (.working id stale) (Attempt.removeFiles paths) := by
  induction paths with
  | nil => exact ⟨stale, rfl⟩
  | cons path paths ih =>
      obtain ⟨hpath, hpaths⟩ := List.forall_mem_cons.mp h
      exact ⟨hpath, fun _ ↦ ih hpaths⟩

theorem keeps_pruneAttachments (stale : List Str) (keep : Nat) :
    Keeps cfg (AtWork id) (.working id stale) (Attempt.pruneAttachments id keep) := by
  refine ⟨rfl, ?_⟩
  rintro (e | paths)
  · exact ⟨stale, rfl⟩
  · exact keeps_removeFiles fun _ h ↦ h

/-- It has stored the message, or has failed before that. -/
def Done (id : Nat) (q : Phase) (r : Except Str Unit) : Prop :=
  (r.isOk = true ∧ q = .stored id) ∨ (r.isOk = false ∧ ∃ stale, q = .working id stale)

theorem AtWork.done {α : Type} {q : Phase} {a : α} (h : AtWork id q a) (e : Str) :
    Done id q (.error e) := .inr ⟨rfl, h⟩

theorem keeps_storeRetrieved (message : MmsMessage) (stale : List Str) :
    Keeps cfg (Done id) (.working id stale) (storeRetrieved x cfg id message) := by
  refine Prog.Conforms.attempt (P := AtWork id) ⟨rfl, ?_⟩ ?_ fun q e h ↦ h.done e
  · rintro (e | _)
    · exact ⟨stale, rfl⟩
    · exact ⟨stale, rfl⟩
  rintro q _ ⟨stale, rfl⟩
  refine Prog.Conforms.attempt (P := AtWork id) ?_ ?_ fun q e h ↦ h.done e
  · refine (Prog.Conforms.of_only (adds_storeParts message.parts 0) (fun _ h ↦ h.legal)
      fun _ r h ↦ h.stays r).mono ?_
    rintro q r rfl
    exact ⟨stale, rfl⟩
  rintro q index ⟨stale, rfl⟩
  refine Prog.Conforms.attempt (keeps_pruneAttachments stale index) ?_ fun q e h ↦ h.done e
  rintro q _ ⟨stale, rfl⟩
  refine ⟨⟨rfl, rfl⟩, ?_⟩
  rintro (e | _)
  · exact .inr ⟨rfl, stale, rfl⟩
  · exact .inl ⟨rfl, rfl⟩

theorem keeps_acknowledge (notification message : MmsMessage) :
    Keeps cfg (Done id) (.stored id) (acknowledge cfg notification message) := by
  rw [acknowledge]
  split
  · exact ⟨trivial, fun _ ↦ .inl ⟨rfl, rfl⟩⟩
  · exact .inl ⟨rfl, rfl⟩

theorem keeps_download (notification : MmsMessage) (stale : List Str) :
    Keeps cfg (Done id) (.working id stale) (download x cfg notification id) := by
  refine Prog.Conforms.attempt (P := AtWork id) ⟨stale, rfl⟩ ?_ fun q e h ↦ h.done e
  rintro q url ⟨stale, rfl⟩
  refine Prog.Conforms.attempt (P := AtWork id) ?_ ?_ fun q e h ↦ h.done e
  · rw [runSetupCommand]
    split
    · exact ⟨stale, rfl⟩
    · exact ⟨trivial, fun _ ↦ ⟨stale, rfl⟩⟩
  rintro q _ ⟨stale, rfl⟩
  refine Prog.Conforms.attempt (P := AtWork id) ⟨trivial, fun _ ↦ ⟨stale, rfl⟩⟩ ?_ fun q e h ↦ h.done e
  rintro q reply ⟨stale, rfl⟩
  cases reply with
  | error e => exact .inr ⟨rfl, stale, rfl⟩
  | ok resp =>
      refine Prog.Conforms.attempt (P := AtWork id) ⟨stale, rfl⟩ ?_ fun q e h ↦ h.done e
      rintro q message ⟨stale, rfl⟩
      refine Prog.Conforms.attempt (keeps_storeRetrieved message stale) ?_ fun q e h ↦ ?_
      · rintro q _ (⟨-, rfl⟩ | ⟨hr, -⟩)
        · exact keeps_acknowledge notification message
        · cases hr
      · rcases h with ⟨hr, -⟩ | ⟨-, h⟩
        · cases hr
        · exact .inr ⟨rfl, h⟩

/-- A retrieval begins where none is under way. -/
def Begins (cfg : Config) (q : Phase) : Prop :=
  (q = .idle ∨ ∃ id, q = .fresh id) ∧ cfg.mmsEnabled = true

theorem keeps_retrieve {q : Phase} (hq : Begins cfg q) (notification : MmsMessage) :
    Keeps cfg (fun q r ↦ (r.isOk = true ∧ q = .idle) ∨ (r.isOk = false ∧ q = .failed id)) q
      (retrieve x cfg notification id) := by
  obtain ⟨hq, henabled⟩ := hq
  have hbegin : Phase.Legal cfg q (.retrieving id) ∧
      ∀ r : (Call.retrieving id).Answer, q.next ⟨.retrieving id, r⟩ = .working id [] := by
    rcases hq with rfl | ⟨k, rfl⟩
    · exact ⟨henabled, fun _ ↦ rfl⟩
    · exact ⟨henabled, fun _ ↦ rfl⟩
  refine ⟨hbegin.1, fun r ↦ ?_⟩
  rw [hbegin.2 r]
  refine (keeps_download notification []).bind ?_
  rintro q r (⟨hr, rfl⟩ | ⟨hr, stale, rfl⟩)
  · exact ⟨⟨rfl, hr⟩, fun _ ↦ .inl ⟨hr, rfl⟩⟩
  · exact ⟨⟨rfl, hr⟩, fun _ ↦ .inr ⟨hr, rfl⟩⟩

theorem keeps_retrieveRecorded {q : Phase} (hq : Begins cfg q) (notification : MmsMessage) :
    Keeps cfg (fun q _ ↦ q = .idle) q (retrieveRecorded x cfg notification id) := by
  refine Prog.Conforms.attempt (keeps_retrieve hq notification).outcome ?_ ?_
  · rintro q result ⟨r, hr, h⟩
    cases hr
    rcases h with ⟨hok, rfl⟩ | ⟨hok, rfl⟩
    · cases result with
      | ok _ => exact rfl
      | error e => cases hok
    · cases result with
      | ok _ => cases hok
      | error e =>
          refine Prog.Conforms.attempt (P := fun q _ ↦ q = Phase.idle) ⟨⟨rfl, rfl⟩, fun _ ↦ rfl⟩ ?_ ?_
          · rintro q _ rfl
            exact rfl
          · rintro q _ rfl
            rfl
  · rintro q e ⟨r, hr, -⟩
    cases hr

theorem keeps_retriableDuplicate (externalId : Option Str) :
    Keeps cfg (fun q r ↦ q = .idle ∧ ∀ k, r = .ok (some k) → cfg.mmsEnabled = true) .idle
      (retriableDuplicate cfg externalId) := by
  unfold retriableDuplicate
  split
  · rename_i henabled
    have hmms : cfg.mmsEnabled = true := (Bool.and_eq_true _ _ ▸ henabled).1
    split
    · exact ⟨rfl, nofun⟩
    · refine ⟨trivial, fun r ↦ ?_⟩
      cases r with
      | error e => exact ⟨rfl, nofun⟩
      | ok found =>
          cases found with
          | none => exact ⟨rfl, nofun⟩
          | some found => exact ⟨rfl, fun _ _ ↦ hmms⟩
  · exact ⟨rfl, nofun⟩

theorem keeps_retryDuplicate (notification : MmsMessage) :
    Keeps cfg (fun _ _ ↦ True) .idle (retryDuplicate x cfg notification) := by
  refine Prog.Conforms.attempt (keeps_retriableDuplicate _) ?_ fun _ _ _ ↦ trivial
  rintro q existing ⟨rfl, henabled⟩
  cases existing with
  | none => exact trivial
  | some id =>
      refine Prog.Conforms.attempt (keeps_retrieveRecorded ⟨.inl rfl, henabled id rfl⟩ notification) ?_
        fun _ _ _ ↦ trivial
      rintro q result rfl
      exact trivial

theorem keeps_acceptNotification (notification : MmsMessage) :
    Keeps cfg (fun _ _ ↦ True) (.fresh id) (acceptNotification x cfg notification id) := by
  unfold acceptNotification
  split
  · rename_i hoff
    refine ⟨⟨rfl, rfl, by simpa using hoff⟩, ?_⟩
    rintro (e | _)
    · exact trivial
    · exact trivial
  · rename_i hon
    have hmms : cfg.mmsEnabled = true := by simpa using hon
    split
    · unfold notifyResp
      split
      · exact ⟨trivial, fun _ ↦ trivial⟩
      · exact trivial
    · exact Prog.Conforms.attempt (keeps_retrieveRecorded ⟨.inr ⟨id, rfl⟩, hmms⟩ notification)
        (fun _ _ _ ↦ trivial) fun _ _ _ ↦ trivial

theorem keeps_handlePush (sms : SmsInfo) :
    Keeps cfg (fun _ _ ↦ True) .idle (handlePush x cfg sms) := by
  have hread : Keeps cfg (fun q _ ↦ q = .idle) .idle
      (Attempt.ofExcept (x.readPush sms.data) : Act (Except Str (Option (WapPush × MmsMessage)))) := rfl
  refine Prog.Conforms.attempt hread ?_ fun _ _ _ ↦ trivial
  rintro q pushed rfl
  cases pushed with
  | none => exact trivial
  | some pushed =>
      refine ⟨rfl, fun r ↦ ?_⟩
      cases r with
      | error e => exact trivial
      | ok stored =>
          cases stored with
          | none => exact keeps_retryDuplicate pushed.2
          | some id => exact keeps_acceptNotification pushed.2

theorem keeps_retrieveStored (id : Nat) :
    Keeps cfg (fun _ _ ↦ True) .idle (retrieveStored x cfg id) := by
  unfold retrieveStored
  split
  · exact trivial
  · rename_i hon
    have hmms : cfg.mmsEnabled = true := by simpa using hon
    refine Prog.Conforms.attempt (P := fun q _ ↦ q = Phase.idle) ⟨trivial, fun _ ↦ ?_⟩ ?_
      fun _ _ _ ↦ trivial
    · rfl
    rintro q raw rfl
    cases raw with
    | none => exact trivial
    | some raw =>
        dsimp only
        split
        · exact trivial
        · refine Prog.Conforms.attempt (keeps_retrieveRecorded ⟨.inl rfl, hmms⟩ _) ?_
            fun _ _ _ ↦ trivial
          rintro q result rfl
          exact trivial

/-! ## Tasks -/

/-- What a task is started for: a push, or a request to retrieve a message. -/
inductive Job where
  | push (sms : SmsInfo)
  | retrieve (id : Nat)

def Job.program (x : Outside) (cfg : Config) : Job → Act Unit
  | push sms => Prog.bind (handlePush x cfg sms) fun _ ↦ .done ()
  | retrieve id => Prog.bind (retrieveStored x cfg id) fun _ ↦ .done ()

theorem keeps_program (job : Job) :
    Keeps cfg (fun _ _ ↦ True) .idle (job.program x cfg) := by
  cases job with
  | push sms => exact (keeps_handlePush sms).bind fun _ _ _ ↦ trivial
  | retrieve id => exact (keeps_retrieveStored id).bind fun _ _ _ ↦ trivial

/-! ## What a call does to a message -/

section World

variable {dir : Str} {s s' s'' : State}

/-- The call is about the message. -/
def Concerns (dir : Str) (id : Nat) : Call → Prop
  | .updateReceivedMms m .. | .setStatus m .. | .upsertAttachment m .. | .deleteAttachments m _ => m = id
  | .writeFile path _ | .removeFile path => InDir dir id path
  | _ => False

/-- The message is as it was: its row, its parts and their files. -/
structure Unchanged (dir : Str) (id : Nat) (s s' : State) : Prop where
  row : ∀ row, s.messages.row? id = some row → s'.messages.row? id = some row
  attachments : ∀ index, s'.attachments.get? (id, index) = s.attachments.get? (id, index)
  files : ∀ name, s'.files.get? (joinPath (attachmentDir dir id) name) =
    s.files.get? (joinPath (attachmentDir dir id) name)

theorem Unchanged.refl (dir : Str) (id : Nat) (s : State) : Unchanged dir id s s :=
  ⟨fun _ h ↦ h, fun _ ↦ rfl, fun _ ↦ rfl⟩

theorem Unchanged.trans (h : Unchanged dir id s s') (h' : Unchanged dir id s' s'') :
    Unchanged dir id s s'' where
  row row hrow := h'.row row (h.row row hrow)
  attachments index := (h'.attachments index).trans (h.attachments index)
  files name := (h'.files name).trans (h.files name)

/-- Only the messages change, and only others. -/
theorem Unchanged.withMessages {messages : Messages}
    (h : ∀ row, s.messages.row? id = some row → messages.row? id = some row) :
    Unchanged dir id s { s with messages := messages } := ⟨h, fun _ ↦ rfl, fun _ ↦ rfl⟩

/-- Only the files change, and only elsewhere. -/
theorem Unchanged.withFiles {path : Str} (hpath : ¬ InDir dir id path)
    (hmessages : s'.messages = s.messages) (hattachments : s'.attachments = s.attachments)
    (hfiles : ∀ p, p ≠ path → s'.files.get? p = s.files.get? p) : Unchanged dir id s s' where
  row row hrow := by rwa [hmessages]
  attachments index := by rw [hattachments]
  files name := by
    refine hfiles _ ?_
    rintro rfl
    exact hpath ⟨name, rfl⟩

/-- A call leaves the messages alone that it is not about. -/
theorem world_unchanged {c : Call} {r : c.Answer} (hc : ¬ Concerns dir id c)
    (hW : State.world s c r s') : Unchanged dir id s s' := by
  cases c with
  | insertMessage msg =>
      cases r with
      | error e => exact hW ▸ .refl dir id s
      | ok stored =>
          rw [hW.2]
          exact .withMessages fun row hrow ↦ Messages.row?_insertMessage_of_row hrow
  | updateReceivedMms m subject text timestamp =>
      cases r with
      | error e => exact hW ▸ .refl dir id s
      | ok u =>
          rw [hW.2]
          refine .withMessages fun row hrow ↦ ?_
          rwa [Messages.row?_updateReceivedMms, if_neg fun h ↦ hc h.symm]
  | setStatus m status error =>
      cases r with
      | error e => exact hW ▸ .refl dir id s
      | ok u =>
          rw [hW.2]
          refine .withMessages fun row hrow ↦ ?_
          rwa [Messages.row?_setStatus, if_neg fun h ↦ hc h.symm]
  | upsertAttachment m index row =>
      cases r with
      | error e => exact hW.1 ▸ .refl dir id s
      | ok u =>
          rw [hW.1.2]
          refine ⟨fun _ h ↦ h, fun index' ↦ ?_, fun _ ↦ rfl⟩
          have hm : id ≠ m := fun h ↦ hc h.symm
          rw [Map.get?_insert, if_neg fun h ↦ hm (congrArg Prod.fst h)]
  | deleteAttachments m keep =>
      cases r with
      | error e => exact hW ▸ .refl dir id s
      | ok paths =>
          rw [hW.2]
          refine ⟨fun _ h ↦ h, fun index ↦ ?_, fun _ ↦ rfl⟩
          have hm : id ≠ m := fun h ↦ hc h.symm
          rw [State.pruned, Map.get?_retain]
          cases s.attachments.get? (id, index) with
          | none => rfl
          | some row => exact Option.filter_some_pos (by simp [hm])
  | writeFile path data =>
      cases r with
      | error e => exact .withFiles hc hW.1 hW.2.1 hW.2.2
      | ok u =>
          change s' = _ at hW
          rw [hW]
          exact .withFiles hc rfl rfl fun p hp ↦ by rw [Map.get?_insert, if_neg hp]
  | removeFile path =>
      cases r with
      | error e => exact hW ▸ .refl dir id s
      | ok u =>
          rw [hW.2]
          exact .withFiles hc rfl rfl fun p hp ↦ by rw [Map.get?_erase, if_neg hp]
  | findByExternalId | messageRaw | getMessage =>
      cases r with
      | error e => exact hW ▸ .refl dir id s
      | ok a => exact hW.2 ▸ .refl dir id s
  | _ =>
      change s' = s at hW
      exact hW ▸ .refl dir id s

/-- The message has a row that says that it is received. -/
def Received (id : Nat) (s : State) : Prop :=
  ∃ row, s.messages.row? id = some row ∧ row.status = "received"

theorem Received.unchanged (h : Received id s) (hsame : Unchanged dir id s s') : Received id s' := by
  obtain ⟨row, hrow, hstatus⟩ := h
  exact ⟨row, hsame.row row hrow, hstatus⟩

/-- The parts of all messages have their files where these belong. -/
def Placed (dir : Str) (s : State) : Prop :=
  ∀ m index row, s.attachments.get? (m, index) = some row → InDir dir m row.path

/-- What holds of the rows of all parts, and of those that are put in. -/
theorem attachments_step {R : Nat → Nat → AttachmentRow → Prop} {c : Call} {r : c.Answer}
    (h : ∀ m index row, s.attachments.get? (m, index) = some row → R m index row)
    (hc : ∀ m index row, c = .upsertAttachment m index row → R m index row)
    (hW : State.world s c r s') :
    ∀ m index row, s'.attachments.get? (m, index) = some row → R m index row := by
  cases c with
  | upsertAttachment m index row =>
      cases r with
      | error e => exact hW.1 ▸ h
      | ok u =>
          rw [hW.1.2]
          intro m' index' row' hrow
          rw [Map.get?_insert] at hrow
          split at hrow
          · rename_i heq
            cases heq
            cases hrow
            exact hc m index row rfl
          · exact h m' index' row' hrow
  | deleteAttachments m keep =>
      cases r with
      | error e => exact hW ▸ h
      | ok paths =>
          rw [hW.2]
          intro m' index row hrow
          rw [State.pruned, Map.get?_retain] at hrow
          exact h m' index row (Option.filter_eq_some_iff.mp hrow).1
  | insertMessage | updateReceivedMms | setStatus | findByExternalId | messageRaw | getMessage | removeFile =>
      cases r with
      | error e => exact hW ▸ h
      | ok a =>
          rw [hW.2]
          exact h
  | writeFile path data =>
      cases r with
      | error e =>
          intro m index row hrow
          rw [hW.2.1] at hrow
          exact h m index row hrow
      | ok u =>
          change s' = _ at hW
          rw [hW]
          exact h
  | _ =>
      change s' = s at hW
      exact hW ▸ h

theorem Placed.step {c : Call} {r : c.Answer} (h : Placed dir s)
    (hc : ∀ m index row, c = .upsertAttachment m index row → InDir dir m row.path)
    (hW : State.world s c r s') : Placed dir s' := attachments_step h hc hW

end World

/-! ## Tasks side by side -/

section Tasks

variable {s s' : State} {q : Phase} {qs rs : List Phase}

/-- A retrieval begins of a message that is not received, and that no other task retrieves. -/
def Alone (qs : List Phase) (s : State) : Call → Prop
  | .retrieving id => ¬ Received id s ∧ ∀ q ∈ qs, q.message ≠ some id
  | _ => True

/-- No retrieval is held up. -/
def Free (_ : List Phase) (_ : State) (_ : Call) : Prop := True

/-- What holds of the tasks and the store as long as retrievals begin so. -/
structure Safe (cfg : Config) (qs : List Phase) (s : State) : Prop where
  one : ∀ id, (qs.countP fun q ↦ q.message = some id) ≤ 1
  quiet : ∀ id, Received id s → ∀ q ∈ qs, q.message = some id → q = .stored id
  off : cfg.mmsEnabled = false → ∀ q ∈ qs, q.message = none ∧ ∀ id, q = .fresh id → ¬ Received id s
  placed : Placed cfg.attachmentsDir s
  stale : ∀ q ∈ qs, ∀ id paths, q = .working id paths → ∀ path ∈ paths, InDir cfg.attachmentsDir id path

/-- A message comes into a task with the beginning of its retrieval. -/
theorem message_next {c : Call} {r : c.Answer} (h : (q.next ⟨c, r⟩).message = some id) :
    q.message = some id ∨ c = .retrieving id := by
  cases q with
  | idle =>
      cases c with
      | insertMessage =>
          cases r with
          | error e => cases h
          | ok stored => cases stored <;> cases h
      | retrieving m =>
          cases h
          exact .inr rfl
      | _ => cases h
  | fresh k =>
      cases c with
      | retrieving m =>
          cases h
          exact .inr rfl
      | _ => cases h
  | working m stale =>
      left
      cases c with
      | deleteAttachments | setStatus => cases r <;> exact h
      | _ => exact h
  | stored m =>
      left
      cases c with
      | retrieved => cases h
      | _ => exact h
  | failed m =>
      left
      cases c with
      | setStatus => cases h
      | _ => exact h

/-- A new row is in the phase of the task that made it, and says that its message is notified. -/
theorem fresh_next {c : Call} {r : c.Answer} (h : q.next ⟨c, r⟩ = .fresh id) (hlegal : q.Legal cfg c)
    (hW : State.world s c r s') : q = .fresh id ∨ ¬ Received id s' := by
  cases q with
  | idle =>
      cases c with
      | insertMessage msg =>
          cases r with
          | error e => cases h
          | ok stored =>
              cases stored with
              | none => cases h
              | some id' =>
                  cases h
                  right
                  rintro ⟨row, hrow, hstatus⟩
                  rw [hW.2, Messages.row?_insertMessage hW.1.symm] at hrow
                  cases hrow
                  exact absurd (hlegal.symm.trans hstatus) (by decide)
      | _ => cases h
  | fresh k =>
      left
      cases c with
      | retrieving => cases h
      | _ => exact h
  | working m stale =>
      cases c with
      | deleteAttachments | setStatus => cases r <;> cases h
      | _ => cases h
  | stored m => cases c <;> cases h
  | failed m => cases c <;> cases h

/-- The parts that a retrieval has dropped are those of its message. -/
theorem stale_next {c : Call} {r : c.Answer} {paths : List Str} (h : q.next ⟨c, r⟩ = .working id paths)
    (hlegal : q.Legal cfg c) (hplaced : Placed cfg.attachmentsDir s) (hW : State.world s c r s') :
    q = .working id paths ∨ ∀ path ∈ paths, InDir cfg.attachmentsDir id path := by
  cases q with
  | idle =>
      cases c with
      | insertMessage =>
          cases r with
          | error e => cases h
          | ok stored => cases stored <;> cases h
      | retrieving m =>
          cases h
          exact .inr nofun
      | _ => cases h
  | fresh k =>
      cases c with
      | retrieving m =>
          cases h
          exact .inr nofun
      | _ => cases h
  | working m stale =>
      cases c with
      | deleteAttachments m' keep =>
          cases r with
          | error e => exact .inl h
          | ok dropped =>
              cases h
              right
              intro path hpath
              rw [hW.1] at hpath
              obtain ⟨⟨⟨k, index⟩, row⟩, hmem, rfl⟩ := List.mem_map.mp hpath
              obtain ⟨hentry, hkeep⟩ := List.mem_filter.mp hmem
              rw [Bool.and_eq_true, beq_iff_eq] at hkeep
              have hk : k = id := hkeep.1.trans hlegal
              exact hk ▸ hplaced k index row (AList.mem_lookup_iff.mpr hentry)
      | setStatus =>
          cases r with
          | error e => exact .inl h
          | ok u => cases h
      | retrieved => cases h
      | _ => exact .inl h
  | stored m => cases c <;> cases h
  | failed m => cases c <;> cases h

/-- A message is received because it was, or because the retrieval of it has stored it. -/
theorem received_step {c : Call} {r : c.Answer} (hlegal : q.Legal cfg c) (hW : State.world s c r s')
    (h : Received id s') : Received id s ∨ q.message = some id ∧ q.next ⟨c, r⟩ = .stored id := by
  obtain ⟨row, hrow, hstatus⟩ := h
  cases hc : State.writesMessages c with
  | false =>
      rw [State.world_messages hc hW] at hrow
      exact .inl ⟨row, hrow, hstatus⟩
  | true =>
      cases c with
      | insertMessage msg =>
          left
          cases r with
          | error e => exact ⟨row, hW ▸ hrow, hstatus⟩
          | ok stored =>
              rw [hW.2] at hrow
              cases hold : s.messages.row? id with
              | some row' =>
                  rw [Messages.row?_insertMessage_of_row hold] at hrow
                  exact ⟨row', hold, (Option.some.inj hrow) ▸ hstatus⟩
              | none =>
                  -- The row is the new one, which is only notified.
                  have hnotified : msg.status = "notified" := by
                    cases q with
                    | idle => exact hlegal
                    | _ => cases hlegal
                  by_cases hknown : s.messages.Known msg
                  · rw [Messages.insertMessage_of_known hknown, hold] at hrow
                    cases hrow
                  · rw [Messages.insertMessage_of_not_known hknown, Messages.row?_append, hold] at hrow
                    split at hrow
                    · cases hrow
                      exact absurd (hnotified.symm.trans hstatus) (by decide)
                    · cases hrow
      | updateReceivedMms m subject text timestamp =>
          left
          cases r with
          | error e => exact ⟨row, hW ▸ hrow, hstatus⟩
          | ok u =>
              rw [hW.2, Messages.row?_updateReceivedMms] at hrow
              split at hrow
              · obtain ⟨row', hrow', rfl⟩ := Option.map_eq_some_iff.mp hrow
                exact ⟨row', hrow', hstatus⟩
              · exact ⟨row, hrow, hstatus⟩
      | setStatus m status error =>
          cases r with
          | error e => exact .inl ⟨row, hW ▸ hrow, hstatus⟩
          | ok u =>
              rw [hW.2, Messages.row?_setStatus] at hrow
              split at hrow
              · rename_i hm
                obtain ⟨row', -, rfl⟩ := Option.map_eq_some_iff.mp hrow
                change status = "received" at hstatus
                cases q with
                | fresh k => exact absurd (hlegal.2.1.symm.trans hstatus) (by decide)
                | failed k => exact absurd (hlegal.2.symm.trans hstatus) (by decide)
                | working k stale =>
                    obtain rfl : m = k := hlegal.1
                    cases hm
                    exact .inr ⟨rfl, rfl⟩
                | _ => cases hlegal
              · exact .inl ⟨row, hrow, hstatus⟩
      | _ => cases hc

theorem not_inDir {dir path : Str} {m : Nat} (h : InDir dir m path) (hm : m ≠ id) :
    ¬ InDir dir id path := by
  rintro ⟨name, rfl⟩
  exact h.ne hm.symm name rfl

/-- What a task does is not about a message that is received. -/
theorem Safe.not_concerns {c : Call} (h : Safe cfg qs s) (hq : q ∈ qs) (hlegal : q.Legal cfg c)
    (hreceived : Received id s) : ¬ Concerns cfg.attachmentsDir id c := by
  cases q with
  | idle =>
      cases c with
      | insertMessage | findByExternalId | messageRaw | retrieving => exact not_false
      | _ => cases hlegal
  | fresh k =>
      cases c with
      | setStatus m status error =>
          obtain ⟨rfl, -, hoff⟩ := hlegal
          rintro rfl
          exact (h.off hoff _ hq).2 m rfl hreceived
      | httpPost | retrieving => exact not_false
      | _ => cases hlegal
  | working m stale =>
      have hm : m ≠ id := by
        rintro rfl
        cases h.quiet m hreceived _ hq rfl
      cases c with
      | updateReceivedMms | deleteAttachments =>
          cases hlegal
          exact hm
      | setStatus =>
          cases hlegal.1
          exact hm
      | upsertAttachment =>
          cases hlegal.1
          exact hm
      | removeFile path => exact not_inDir (h.stale _ hq m stale rfl path hlegal) hm
      | writeFile path data => exact not_inDir hlegal hm
      | createDir | retrieved | setupCommand | httpGet => exact not_false
      | _ => cases hlegal
  | stored m =>
      cases c with
      | httpPost | retrieved => exact not_false
      | _ => cases hlegal
  | failed m =>
      have hm : m ≠ id := by
        rintro rfl
        cases h.quiet m hreceived _ hq rfl
      cases c with
      | setStatus =>
          cases hlegal.1
          exact hm
      | _ => cases hlegal

theorem Safe.perm (h : Safe cfg qs s) (hperm : qs.Perm rs) : Safe cfg rs s where
  one id := (hperm.countP_eq _).symm.trans_le (h.one id)
  quiet id hreceived q hq := h.quiet id hreceived q (hperm.mem_iff.mpr hq)
  off hoff q hq := h.off hoff q (hperm.mem_iff.mpr hq)
  placed := h.placed
  stale q hq := h.stale q (hperm.mem_iff.mpr hq)

theorem Safe.start (h : Safe cfg qs s) : Safe cfg (.idle :: qs) s where
  one id := by
    rw [List.countP_cons_of_neg (by simp [Phase.message])]
    exact h.one id
  quiet id hreceived := List.forall_mem_cons.mpr ⟨nofun, h.quiet id hreceived⟩
  off hoff := List.forall_mem_cons.mpr ⟨⟨rfl, nofun⟩, h.off hoff⟩
  placed := h.placed
  stale := List.forall_mem_cons.mpr ⟨nofun, h.stale⟩

/-- The others have another message. -/
theorem Safe.message_ne (h : Safe cfg (q :: qs) s) (hq : q.message = some id) :
    ∀ u ∈ qs, u.message ≠ some id := by
  have hone := h.one id
  rw [List.countP_cons_of_pos (by simpa using hq)] at hone
  intro u hu hmessage
  have hpos : 0 < qs.countP fun u ↦ u.message = some id :=
    List.countP_pos_iff.mpr ⟨u, hu, by simpa using hmessage⟩
  omega

theorem retrieving_enabled (hlegal : q.Legal cfg (.retrieving id)) : cfg.mmsEnabled = true := by
  cases q with
  | idle | fresh => exact hlegal
  | working | stored | failed => cases hlegal

/-- After a call, no other task has the message of the one that made it. -/
theorem Safe.message_ne_next {c : Call} {r : c.Answer} (h : Safe cfg (q :: qs) s)
    (hok : Alone qs s c) (hnext : (q.next ⟨c, r⟩).message = some id) :
    ∀ u ∈ qs, u.message ≠ some id := by
  rcases message_next hnext with hq | rfl
  · exact h.message_ne hq
  · exact hok.2

theorem Safe.call {c : Call} {r : c.Answer} (h : Safe cfg (q :: qs) s) (hlegal : q.Legal cfg c)
    (hok : Alone qs s c) (hW : State.world s c r s') : Safe cfg (q.next ⟨c, r⟩ :: qs) s' where
  one id := by
    have hothers : (qs.countP fun u ↦ u.message = some id) ≤ 1 :=
      (List.sublist_cons_self _ _).countP_le.trans (h.one id)
    by_cases hnext : (q.next ⟨c, r⟩).message = some id
    · have hzero : (qs.countP fun u ↦ u.message = some id) = 0 := by
        refine List.countP_eq_zero.mpr fun u hu ↦ ?_
        simpa using h.message_ne_next hok hnext u hu
      rw [List.countP_cons_of_pos (by simpa using hnext), hzero]
    · rwa [List.countP_cons_of_neg (by simpa using hnext)]
  quiet id hreceived := by
    rcases received_step hlegal hW hreceived with hbefore | ⟨hq, hstored⟩
    · refine List.forall_mem_cons.mpr ⟨fun hnext ↦ ?_, fun u hu ↦ h.quiet id hbefore u (.tail _ hu)⟩
      rcases message_next hnext with hq | rfl
      · obtain rfl := h.quiet id hbefore q List.mem_cons_self hq
        cases c with
        | retrieved => cases hnext
        | _ => rfl
      · exact absurd hbefore hok.1
    · refine List.forall_mem_cons.mpr ⟨fun _ ↦ hstored, fun u hu hmessage ↦ ?_⟩
      exact absurd hmessage (h.message_ne hq u hu)
  off hoff := by
    have hold := h.off hoff
    have hnone : q.message = none := (hold q List.mem_cons_self).1
    have hbefore {k : Nat} (hreceived : Received k s') : Received k s := by
      rcases received_step hlegal hW hreceived with hbefore | ⟨hq, -⟩
      · exact hbefore
      · rw [hnone] at hq
        cases hq
    refine List.forall_mem_cons.mpr ⟨⟨?_, fun k hfresh hreceived ↦ ?_⟩, fun u hu ↦ ?_⟩
    · refine Option.eq_none_iff_forall_ne_some.mpr fun k hnext ↦ ?_
      rcases message_next hnext with hq | rfl
      · rw [hnone] at hq
        cases hq
      · rw [retrieving_enabled hlegal] at hoff
        cases hoff
    · rcases fresh_next hfresh hlegal hW with hq | hnot
      · exact (hold q List.mem_cons_self).2 k hq (hbefore hreceived)
      · exact hnot hreceived
    · obtain ⟨hmessage, hfresh⟩ := hold u (.tail _ hu)
      exact ⟨hmessage, fun k hk hreceived ↦ hfresh k hk (hbefore hreceived)⟩
  placed := by
    refine h.placed.step ?_ hW
    rintro m index row rfl
    cases q with
    | working k stale =>
        obtain ⟨rfl, -, hpath⟩ := hlegal
        exact hpath.inDir
    | _ => cases hlegal
  stale := by
    refine List.forall_mem_cons.mpr ⟨fun k paths hnext ↦ ?_, fun u hu ↦ h.stale u (.tail _ hu)⟩
    rcases stale_next hnext hlegal h.placed hW with hq | hpaths
    · exact h.stale q List.mem_cons_self k paths hq
    · exact hpaths

end Tasks

/-- The tasks and the store. -/
abbrev Tasks := Prog.Pool Job Call Call.Answer Unit State

/-- Tasks are started and make their calls, in any order. -/
abbrev Tasks.Reach (x : Outside) (cfg : Config) (ok : List Phase → State → Call → Prop) :
    Tasks → Tasks → Prop :=
  Prog.Pool.Reaches Phase.next .idle State.world (Job.program x cfg) ok

theorem Tasks.Reach.safe {P P' : Tasks} (h : Tasks.Reach x cfg Alone P P')
    (hP : P.Conforming Phase.next .idle (Phase.Legal cfg)) (hsafe : Safe cfg (P.phases Phase.next .idle) P.state) :
    P'.Conforming Phase.next .idle (Phase.Legal cfg) ∧ Safe cfg (P'.phases Phase.next .idle) P'.state := by
  refine Prog.Pool.Reaches.invariant (Safe cfg) keeps_program ?_ ?_ h hP hsafe
  · intro qs s hsafe
    exact hsafe.start.perm (List.perm_append_singleton _ _).symm
  · intro qs q rs s c r s' hsafe hlegal hok hW
    exact ((hsafe.perm List.perm_middle).call hlegal hok hW).perm List.perm_middle.symm

/-- If no retrieval of a message begins while it is received, or while another one is under way, then
once it is received it stays so, with its text, its parts and their files. -/
theorem received_stays {s₀ : State} (hplaced : Placed cfg.attachmentsDir s₀) {P P' : Tasks}
    (hrun : Tasks.Reach x cfg Alone ⟨[], s₀⟩ P) (hreceived : Received id P.state)
    (hrun' : Tasks.Reach x cfg Alone P P') :
    Received id P'.state ∧ Unchanged cfg.attachmentsDir id P.state P'.state := by
  have hstart : Safe cfg [] s₀ := ⟨fun _ ↦ Nat.zero_le 1, fun _ _ ↦ nofun, fun _ ↦ nofun, hplaced, nofun⟩
  obtain ⟨hconforming, hsafe⟩ := Tasks.Reach.safe hrun nofun hstart
  have hboth := Prog.Pool.Reaches.invariant
    (fun qs s ↦ Safe cfg qs s ∧ Received id s ∧ Unchanged cfg.attachmentsDir id P.state s)
    keeps_program ?_ ?_ hrun' hconforming ⟨hsafe, hreceived, .refl _ _ _⟩
  · exact hboth.2.2
  · rintro qs s ⟨hsafe, hkept⟩
    exact ⟨hsafe.start.perm (List.perm_append_singleton _ _).symm, hkept⟩
  · rintro qs q rs s c r s' ⟨hsafe, hreceived, hsame⟩ hlegal hok hW
    have hq : q ∈ qs ++ q :: rs := List.mem_append_right _ List.mem_cons_self
    have hstep := world_unchanged (hsafe.not_concerns hq hlegal hreceived) hW
    refine ⟨((hsafe.perm List.perm_middle).call hlegal hok hW).perm List.perm_middle.symm, ?_, ?_⟩
    · exact hreceived.unchanged hstep
    · exact hsame.trans hstep

namespace Sample

/-- The notification comes again once the message is received. -/
def again : List (Prog.Event Call Call.Answer) :=
  [⟨.insertMessage pushRow, (.ok none : Except Str (Option Nat))⟩,
    ⟨.findByExternalId .mms .incoming "T1",
      (.ok (some (1, "received")) : Except Str (Option (Nat × Str)))⟩]

theorem runs_again :
    Prog.Runs State.world fetched (handlePush outside config pushSms) again fetched (.done (.ok none)) := by
  have hknown : fetched.messages.Known pushRow := by decide
  have hfind : State.world fetched (.findByExternalId .mms .incoming "T1")
      (.ok (some (1, "received")) : Except Str (Option (Nat × Str))) fetched := ⟨by decide, rfl⟩
  rw [handlePush, readPush_pushSms]
  exact .call (State.world_insertMessage_known hknown) (.call hfind (.refl _ _))

/-- The store once a retrieval of the received message has failed. -/
def lost : State :=
  { fetched with
    messages := fetched.messages.setStatus 1 "retrieve_failed" (some "fetching the MMS body") }

/-- The message is asked for once more, and the MMSC does not answer. -/
def asked : List (Prog.Event Call Call.Answer) :=
  [⟨.messageRaw 1, (.ok (some notificationPdu) : Except Str (Option (List UInt8)))⟩,
    ⟨.retrieving 1, ()⟩,
    ⟨.httpGet "u", (.error "timeout" : Except Str HttpResponse)⟩,
    ⟨.retrieved 1 false, ()⟩,
    ⟨.setStatus 1 "retrieve_failed" (some "fetching the MMS body"), (.ok () : Except Str Unit)⟩]

theorem runs_asked :
    Prog.Runs State.world fetched (retrieveStored outside config 1) asked lost
      (.done (.error "fetching the MMS body")) := by
  have hraw : State.world fetched (.messageRaw 1)
      (.ok (some notificationPdu) : Except Str (Option (List UInt8))) fetched := ⟨by decide, rfl⟩
  have hstatus : State.world fetched (.setStatus 1 "retrieve_failed" (some "fetching the MMS body"))
      (.ok () : Except Str Unit) lost := ⟨rfl, rfl⟩
  exact .call hraw (.call rfl (.call rfl (.call rfl (.call hstatus (.refl _ _)))))

theorem placed_fetched : Placed config.attachmentsDir fetched := by
  intro m index row hrow
  have hnone : fetched.attachments.get? (m, index) = none := Map.get?_empty _
  rw [hnone] at hrow
  cases hrow

theorem received_fetched : Received 1 fetched := by
  have hrow : (fetched.messages.row? 1).map (·.status) = some "received".toList := by decide
  obtain ⟨row, hrow, hstatus⟩ := Option.map_eq_some_iff.mp hrow
  exact ⟨row, hrow, hstatus⟩

/-- A task that does what a run of its program does. -/
theorem reach_push {ok : List Phase → State → Call → Prop} {s s' : State} {sms : SmsInfo}
    {es : List (Prog.Event Call Call.Answer)} {r : Except Str (Option Nat)}
    (h : Prog.Runs State.world s (handlePush outside config sms) es s' (.done r))
    (hok : ∀ e ∈ es, ∀ qs s, ok qs s e.1) (P : Tasks) (hP : P.state = s) :
    ∃ P', Tasks.Reach outside config ok P P' ∧ P'.state = s' := by
  subst hP
  have hjob : Prog.Runs State.world P.state ((Job.push sms).program outside config) es s' (.done ()) :=
    h.bind _
  exact ⟨_, .of_job hjob hok P.threads, rfl⟩

end Sample

/-- A notification that comes again leaves a received message as it is. -/
theorem received_stays_again : ∃ P : Tasks, P.state = Sample.fetched ∧
    Received 1 P.state ∧ Unchanged "attachments" 1 Sample.fetched P.state := by
  have halone : ∀ e ∈ Sample.again, ∀ qs s, Alone qs s e.1 := by
    refine List.forall_mem_cons.mpr ⟨fun _ _ ↦ trivial, List.forall_mem_singleton.mpr fun _ _ ↦ trivial⟩
  obtain ⟨P, hreach, hP⟩ := Sample.reach_push Sample.runs_again halone ⟨[], Sample.fetched⟩ rfl
  exact ⟨P, hP, received_stays Sample.placed_fetched .refl Sample.received_fetched hreach⟩

/-- A received message is asked for once more, and that fails: it is received no longer. -/
theorem asked_again_not_received : ∃ P P' : Tasks,
    Tasks.Reach Sample.outside Sample.config Free ⟨[], .empty⟩ P ∧ Received 1 P.state ∧
    Tasks.Reach Sample.outside Sample.config Free P P' ∧ ¬ Received 1 P'.state := by
  have hfree {es : List (Prog.Event Call Call.Answer)} : ∀ e ∈ es, ∀ qs s, Free qs s e.1 := fun _ _ _ _ ↦ trivial
  obtain ⟨P₁, hreach₁, hP₁⟩ := Sample.reach_push Sample.runs_unreachable hfree ⟨[], .empty⟩ rfl
  obtain ⟨P₂, hreach₂, hP₂⟩ := Sample.reach_push Sample.runs_reached hfree P₁ hP₁
  have hjob : Prog.Runs State.world P₂.state ((Job.retrieve 1).program Sample.outside Sample.config)
      Sample.asked Sample.lost (.done ()) := hP₂ ▸ Sample.runs_asked.bind _
  refine ⟨P₂, _, hreach₁.trans hreach₂, hP₂ ▸ Sample.received_fetched,
    .of_job hjob hfree P₂.threads, ?_⟩
  rintro ⟨row, hrow, hstatus⟩
  have hlost : (Sample.lost.messages.row? 1).map (·.status) = some "retrieve_failed".toList := by decide
  change Sample.lost.messages.row? 1 = some row at hrow
  rw [hrow, Option.map_some, hstatus] at hlost
  exact absurd hlost (by decide)

end Modem2Sip.Messages
