import Mathlib.Algebra.GroupWithZero.Nat
import Modem2Sip.Messages.Manager

/-!
# Submission

`MmsManager::send`: the parts are built, the message is stored with them as being sent, and it is
submitted to the MMSC.  A step that fails before the submission ends it at once, and leaves the row as
it is.
-/

namespace Modem2Sip.Messages

open Text Store Mms

structure SendRequest where
  toAddrs : List Str
  subject : Option Str
  text : Option Str
  attachments : List SendAttachment
deriving DecidableEq, Repr

/-! ## The parts -/

/-- The text of a request, if it has one. -/
def textPart (req : SendRequest) : List MmsPart :=
  match req.text.filter (· != []) with
  | none => []
  | some text =>
    [{ contentType := "text/plain", params := [("name", "text0.txt")], contentId := some "text0",
       data := utf8 text }]

def attachmentPart (i : Nat) (att : SendAttachment) (data : List UInt8) : MmsPart where
  contentType := att.contentType
  params := (att.name.map fun name ↦ (("name" : Str), name)).toList
  contentId := some ("part" ++ dec i)
  data := data

/-- The attachments of a request, loaded and numbered from `i` on. -/
def attachmentParts : Nat → List SendAttachment → Attempt (List MmsPart)
  | _, [] => pure []
  | i, att :: atts => do
    let data ← ExceptT.mk (Prog.ask (Call.loadAttachment att))
    let parts ← attachmentParts (i + 1) atts
    pure (attachmentPart i att data :: parts)

/-- The presentation, if there is more than one part. -/
def presentation (content : List MmsPart) : List MmsPart :=
  if 1 < content.length then
    [{ contentType := "application/smil", params := [("name", "presentation.smil")],
       contentId := some "smil", data := utf8 (buildSmil content) }]
  else []

variable (x : Outside) (cfg : Config)

/-- The parts of the message, if there are any and they are not too large. -/
def buildParts (req : SendRequest) : Attempt (List MmsPart) := do
  let attached ← attachmentParts 0 req.attachments
  let content := textPart req ++ attached
  if content = [] then Attempt.fail "an MMS needs at least a text or one attachment"
  else
    let parts := presentation content ++ content
    let total := (parts.map (·.data.length)).sum
    if cfg.maxSize < total then
      Attempt.fail ("message of " ++ dec total ++ " bytes exceeds mms.max_size")
    else pure parts

/-! ## The row -/

def submittedMessage (req : SendRequest) (tid : Str) : NewMessage where
  kind := .mms
  direction := .outgoing
  peer := [','].intercalate req.toAddrs
  ownNumber := none
  subject := req.subject
  text := req.text
  timestamp := none
  status := "sending"
  externalId := some tid
  raw := none

/-- What is sent, without a sender: the MMSC fills it in. -/
def submissionPdu (req : SendRequest) (parts : List MmsPart) (tid : Str) : List UInt8 :=
  encodeSendReq
    { transactionId := tid, fromAddr := none, toAddrs := req.toAddrs, subject := req.subject,
      parts := parts, deliveryReport := false, readReport := false }

/-- The parts are stored, each under its place among them; the presentation is not. -/
def storeSubmitted (id : Nat) : Nat → List MmsPart → Attempt Unit
  | _, [] => pure ()
  | i, part :: parts =>
    if part.isSmil then storeSubmitted id (i + 1) parts
    else do
      Attempt.addAttachment x.isAlphanumeric cfg.attachmentsDir id i part.contentType part.name
        part.contentId part.data
      storeSubmitted id (i + 1) parts

/-! ## The answer -/

/-- What the answer of the MMSC says: the message is taken, or what is recorded and what is reported. -/
def verdict (reply : Except Str HttpResponse) : Except (Str × Str) Unit :=
  match reply with
  | .error e => .error (e, e)
  | .ok resp =>
    if resp.status = 200 then
      -- a body that is not understood, or that has no status, is taken for an acceptance
      let conf := (x.decode resp.body).toOption
      let status := (conf.bind (·.responseStatus)).getD 0x80
      if status = 0x80 then .ok ()
      else
        let text := (conf.bind (·.responseText)).getD ("response status 0x" ++ hexPad 2 status.toNat)
        .error (text, "MMSC rejected the message: " ++ text)
    else
      let msg := "MMSC returned HTTP " ++ dec resp.status
      .error (msg, msg)

/-- The end of a submission: its status is written. -/
def conclude (id : Nat) (reply : Except Str HttpResponse) : Attempt Nat := do
  match verdict x reply with
  | .ok _ =>
    Attempt.setStatus id "sent" none
    pure id
  | .error (recorded, reported) =>
    Attempt.setStatus id "failed" (some recorded)
    Attempt.fail reported

/-- What is done between the row and the submission. -/
def prepare (parts : List MmsPart) (id : Nat) : Attempt Unit := do
  storeSubmitted x cfg id 0 parts
  runSetupCommand cfg

/-- What is done once there is a row. -/
def submit (mmsc : Str) (payload : List UInt8) (parts : List MmsPart) (id : Nat) : Attempt Nat := do
  prepare x cfg parts id
  let reply ← Prog.outcome (ExceptT.mk (Prog.ask (Call.httpPost mmsc payload)))
  conclude x id reply

/-- The message is stored under its transaction id, and submitted. -/
def record (req : SendRequest) (mmsc : Str) (parts : List MmsPart) (tid : Str) : Attempt Nat := do
  let stored ← Attempt.insertMessage (submittedMessage req tid)
  match stored with
  | none => Attempt.fail "duplicate transaction id"
  | some id => submit x cfg mmsc (submissionPdu req parts tid) parts id

/-- `send`. -/
def send (req : SendRequest) : Attempt Nat :=
  if !cfg.mmsEnabled then Attempt.fail "MMS is disabled (set mms.enabled = true and mms.mmsc)"
  else
    match cfg.mmsc with
    | none => Attempt.fail "mms.mmsc is not configured"
    | some mmsc =>
      if req.toAddrs = [] then Attempt.fail "at least one recipient is required"
      else do
        let parts ← buildParts cfg req
        let hex ← ExceptT.mk (.call (Call.randomHex 6) fun hex ↦ .done (.ok hex))
        record x cfg req mmsc parts ('T' :: hex)

/-! ## Every submission is decided -/

/-- A step fails that is made between the row and the submission. -/
def storingFails : Prog.Event Call Call.Answer → Bool
  | ⟨.createDir _, (.error _ : Except Str Unit)⟩ | ⟨.writeFile .., (.error _ : Except Str Unit)⟩
  | ⟨.upsertAttachment .., (.error _ : Except Str Unit)⟩
  | ⟨.setupCommand _, (.error _ : Except Str Unit)⟩ => true
  | _ => false

/-- The status of a message could not be written. -/
def statusFails : Prog.Event Call Call.Answer → Bool
  | ⟨.setStatus .., (.error _ : Except Str Unit)⟩ => true
  | _ => false

/-- How a submission ends, as the status of its row says it. -/
def finalStatus (ok : Bool) : Str := if ok then "sent" else "failed"

theorem sending_ne_finalStatus (ok : Bool) : ("sending" : Str) ≠ finalStatus ok := by
  cases ok with
  | false => decide
  | true => decide

/-- The status of a row says how the submission has ended. -/
def Settled (s : State) (id : Nat) (ok : Bool) : Prop :=
  (s.messages.row? id).map (·.status) = some (finalStatus ok)

/-- Every row that has been created is settled. -/
def Decided (es : List (Prog.Event Call Call.Answer)) (r : Except Str Nat) (s : State) : Prop :=
  ∀ id ∈ es.filterMap createdRow, Settled s id r.isOk

/-- A call that builds the message, before there is a row. -/
def Builds : Call → Prop
  | .loadAttachment _ | .randomHex _ => True
  | _ => False

/-- A call between the row and the submission. -/
def Prepares : Call → Prop
  | .createDir _ | .writeFile .. | .upsertAttachment .. | .setupCommand _ => True
  | _ => False

theorem Builds.world {s s' : State} {c : Call} {r : c.Answer} (h : Builds c) (hW : State.world s c r s') :
    s' = s := by
  cases c with
  | loadAttachment | randomHex => exact hW
  | _ => cases h

theorem Builds.event {c : Call} (h : Builds c) (r : c.Answer) :
    createdRow ⟨c, r⟩ = none ∧ storingFails ⟨c, r⟩ = false := by
  cases c with
  | loadAttachment | randomHex => exact ⟨rfl, rfl⟩
  | _ => cases h

theorem Prepares.world {s s' : State} {c : Call} {r : c.Answer} (h : Prepares c)
    (hW : State.world s c r s') : s'.messages = s.messages := by
  cases c with
  | createDir | writeFile | upsertAttachment | setupCommand => exact State.world_messages rfl hW
  | _ => cases h

theorem Prepares.createdRow {c : Call} (h : Prepares c) (r : c.Answer) : createdRow ⟨c, r⟩ = none := by
  cases c with
  | createDir | writeFile | upsertAttachment | setupCommand => rfl
  | _ => cases h

variable {x cfg}

/-! ### The steps before the submission -/

theorem only_attachmentParts (atts : List SendAttachment) (i : Nat) :
    Prog.Only Builds (attachmentParts i atts) := by
  induction atts generalizing i with
  | nil => trivial
  | cons att atts ih =>
      refine Prog.Only.attempt (Prog.Only.ask trivial) fun data ↦ ?_
      exact Prog.Only.attempt (ih (i + 1)) fun parts ↦ trivial

theorem only_buildParts (req : SendRequest) : Prog.Only Builds (buildParts cfg req) := by
  refine Prog.Only.attempt (only_attachmentParts req.attachments 0) fun attached ↦ ?_
  dsimp only
  split
  · trivial
  · split
    · trivial
    · trivial

/-- Until the message is built there is no row, and nothing that could be left undone. -/
theorem wp_buildParts {req : SendRequest} {s : State} :
    Prog.wp State.world (buildParts cfg req)
      (fun es _ s' ↦ s' = s ∧ ∀ e ∈ es, createdRow e = none ∧ storingFails e = false) s := by
  refine Prog.wp_iff.mpr fun es r s' hrun ↦ ?_
  obtain ⟨hbuilds, -⟩ := (only_buildParts req).of_mem hrun
  exact ⟨hrun.invariant (I := (· = s)) (fun s₁ c a s₂ hs hc hW ↦ (hc.world hW).trans hs) hbuilds rfl,
    fun e he ↦ (hbuilds e he).event e.2⟩

theorem strict_addAttachment {isAlphanumeric : Char → Bool} {dir : Str} {id index : Nat}
    {contentType : Str} {name contentId : Option Str} {data : List UInt8} :
    Prog.Strict storingFails
      (Attempt.addAttachment isAlphanumeric dir id index contentType name contentId data) := by
  refine Prog.Strict.bind (Prog.Strict.single fun r ↦ ?_) fun _ ↦
    Prog.Strict.bind (Prog.Strict.single fun r ↦ ?_) fun _ ↦ Prog.Strict.single fun r ↦ ?_
  · cases r <;> rfl
  · cases r <;> rfl
  · cases r <;> rfl

theorem only_addAttachment {isAlphanumeric : Char → Bool} {dir : Str} {id index : Nat}
    {contentType : Str} {name contentId : Option Str} {data : List UInt8} :
    Prog.Only Prepares
      (Attempt.addAttachment isAlphanumeric dir id index contentType name contentId data) :=
  Prog.Only.attempt (Prog.Only.ask trivial) fun _ ↦
    Prog.Only.attempt (Prog.Only.ask trivial) fun _ ↦ Prog.Only.ask trivial

theorem storeSubmitted_steps (x : Outside) (cfg : Config) (id i : Nat) (parts : List MmsPart) :
    Prog.Strict storingFails (storeSubmitted x cfg id i parts) ∧
      Prog.Only Prepares (storeSubmitted x cfg id i parts) := by
  induction parts generalizing i with
  | nil => exact ⟨rfl, trivial⟩
  | cons part parts ih =>
      obtain ⟨hstrict, honly⟩ := ih (i + 1)
      rw [storeSubmitted]
      split
      · exact ⟨hstrict, honly⟩
      · exact ⟨strict_addAttachment.bind fun _ ↦ hstrict, only_addAttachment.attempt fun _ ↦ honly⟩

theorem runSetupCommand_steps (cfg : Config) :
    Prog.Strict storingFails (runSetupCommand cfg) ∧ Prog.Only Prepares (runSetupCommand cfg) := by
  rw [runSetupCommand]
  cases cfg.setupCommand with
  | none => exact ⟨rfl, trivial⟩
  | some cmd => exact ⟨Prog.Strict.single fun r ↦ by cases r <;> rfl, Prog.Only.ask trivial⟩

/-- Between the row and the submission no row is written, and it is the steps that decide how it goes
on. -/
theorem wp_prepare {parts : List MmsPart} {id : Nat} {s : State} :
    Prog.wp State.world (prepare x cfg parts id)
      (fun es r s' ↦ s'.messages = s.messages ∧ (∀ e ∈ es, createdRow e = none) ∧
        (r.isOk = true ↔ ∀ e ∈ es, storingFails e = false)) s := by
  have hparts := storeSubmitted_steps x cfg id 0 parts
  have hsetup := runSetupCommand_steps cfg
  have honly : Prog.Only Prepares (prepare x cfg parts id) := hparts.2.attempt fun _ ↦ hsetup.2
  have hstrict : Prog.Strict storingFails (prepare x cfg parts id) := hparts.1.bind fun _ ↦ hsetup.1
  refine Prog.wp_iff.mpr fun es r s' hrun ↦ ?_
  obtain ⟨hprepares, -⟩ := honly.of_mem hrun
  refine ⟨?_, fun e he ↦ (hprepares e he).createdRow e.2, hstrict.isOk_iff hrun⟩
  exact hrun.invariant (I := (·.messages = s.messages))
    (fun s₁ c a s₂ hs hc hW ↦ (hc.world hW).trans hs) hprepares rfl

/-! ### The submission -/

/-- Once the MMSC has answered, or could not be reached, the row is settled. -/
theorem wp_conclude {id : Nat} {reply : Except Str HttpResponse} {s : State}
    (hrow : (s.messages.row? id).isSome) :
    Prog.wp State.world (conclude x id reply)
      (fun es r s' ↦ (∀ e ∈ es, createdRow e = none ∧ storingFails e = false) ∧
        ((∀ e ∈ es, statusFails e = false) → Settled s' id r.isOk)) s := by
  obtain ⟨row, hrow⟩ := Option.isSome_iff_exists.mp hrow
  have hsettled : ∀ (ok : Bool) error, Settled
      { s with messages := s.messages.setStatus id (finalStatus ok) error } id ok := by
    intro ok error
    rw [Settled, Messages.row?_setStatus, if_pos rfl, hrow]
    rfl
  rw [conclude]
  cases verdict x reply with
  | ok _ =>
      rintro (e | _) s' hW
      · refine ⟨List.forall_mem_singleton.mpr ⟨rfl, rfl⟩, fun hstatus ↦ ?_⟩
        exact absurd (hstatus _ (List.mem_singleton_self _)) nofun
      · refine ⟨List.forall_mem_singleton.mpr ⟨rfl, rfl⟩, fun _ ↦ ?_⟩
        rw [hW.2]
        exact hsettled true none
  | error told =>
      rintro (e | _) s' hW
      · refine ⟨List.forall_mem_singleton.mpr ⟨rfl, rfl⟩, fun hstatus ↦ ?_⟩
        exact absurd (hstatus _ (List.mem_singleton_self _)) nofun
      · refine ⟨List.forall_mem_singleton.mpr ⟨rfl, rfl⟩, fun _ ↦ ?_⟩
        rw [hW.2]
        exact hsettled false (some told.1)

/-- A row that is being sent is settled in the end if all steps before the submission worked, and is left
as it was if one of them did not. -/
theorem wp_submit {mmsc : Str} {payload : List UInt8} {parts : List MmsPart} {id : Nat} {s : State}
    {row : MessageRow} (hrow : s.messages.row? id = some row) (hsending : row.status = "sending") :
    Prog.wp State.world (submit x cfg mmsc payload parts id)
      (fun es r s' ↦ (∀ e ∈ es, createdRow e = none) ∧
        ((∀ e ∈ es, statusFails e = false) →
          (Settled s' id r.isOk ↔ ∀ e ∈ es, storingFails e = false))) s := by
  refine Prog.wp_attempt.mpr (Prog.wp_mono wp_prepare ?_)
  rintro es (e | _) s₁ ⟨hmessages, hcreated, hok⟩
  · refine ⟨hcreated, fun _ ↦ iff_of_false ?_ fun h ↦ ?_⟩
    · rw [Settled, hmessages, hrow, Option.map_some, hsending]
      exact fun h ↦ sending_ne_finalStatus _ (Option.some.inj h)
    · exact absurd (hok.mpr h) nofun
  · have hstored := hok.mp rfl
    have hrow₁ : (s₁.messages.row? id).isSome := by
      rw [hmessages, hrow]
      rfl
    refine Prog.wp_attempt.mpr (Prog.wp_outcome.mpr ?_)
    rintro reply s₂ rfl
    change Prog.wp State.world (conclude x id reply) _ _
    refine Prog.wp_mono (wp_conclude hrow₁) ?_
    rintro es' r s' ⟨hquiet, hsettled⟩
    have hrest : ∀ e ∈ [⟨Call.httpPost mmsc payload, reply⟩] ++ es',
        createdRow e = none ∧ storingFails e = false :=
      List.forall_mem_cons.mpr ⟨⟨rfl, rfl⟩, hquiet⟩
    refine ⟨List.forall_mem_append.mpr ⟨hcreated, fun e he ↦ (hrest e he).1⟩, fun hstatus ↦ ?_⟩
    obtain ⟨-, hstatus⟩ := List.forall_mem_append.mp hstatus
    refine iff_of_true (hsettled fun e he ↦ hstatus e (List.mem_cons_of_mem _ he)) ?_
    exact List.forall_mem_append.mpr ⟨hstored, fun e he ↦ (hrest e he).2⟩

/-! ### The whole of it -/

/-- If the statuses could be written, every row is settled exactly if no step before the submission has
failed. -/
def Closed (es : List (Prog.Event Call Call.Answer)) (r : Except Str Nat) (s : State) : Prop :=
  (∀ e ∈ es, statusFails e = false) → (Decided es r s ↔ ∀ e ∈ es, storingFails e = false)

/-- Without a row there is nothing to settle. -/
theorem closed_of_quiet {es : List (Prog.Event Call Call.Answer)} {r : Except Str Nat} {s : State}
    (h : ∀ e ∈ es, createdRow e = none ∧ storingFails e = false) : Closed es r s := by
  have hnone : es.filterMap createdRow = [] := List.filterMap_eq_nil_iff.mpr fun e he ↦ (h e he).1
  refine fun _ ↦ iff_of_true ?_ fun e he ↦ (h e he).2
  rw [Decided, hnone]
  exact nofun

/-- What comes before the row does not matter. -/
theorem Closed.append {es es' : List (Prog.Event Call Call.Answer)} {r : Except Str Nat} {s : State}
    (h : ∀ e ∈ es, createdRow e = none ∧ storingFails e = false) (h' : Closed es' r s) :
    Closed (es ++ es') r s := by
  intro hstatus
  have hnone : es.filterMap createdRow = [] := List.filterMap_eq_nil_iff.mpr fun e he ↦ (h e he).1
  have hdecided := h' (List.forall_mem_append.mp hstatus).2
  rw [List.forall_mem_append, and_iff_right fun e he ↦ (h e he).2, ← hdecided, Decided,
    List.filterMap_append, hnone, List.nil_append, Decided]

theorem wp_record {req : SendRequest} {mmsc tid : Str} {parts : List MmsPart} {s : State} :
    Prog.wp State.world (record x cfg req mmsc parts tid) Closed s := by
  refine Prog.wp_attempt.mpr ?_
  rintro (e | _ | id) s₁ hW
  · exact closed_of_quiet (List.forall_mem_singleton.mpr ⟨rfl, rfl⟩)
  · exact closed_of_quiet (List.forall_mem_singleton.mpr ⟨rfl, rfl⟩)
  · obtain ⟨hid, rfl⟩ := hW
    change Prog.wp State.world (submit x cfg mmsc (submissionPdu req parts tid) parts id) _ _
    have hrow := Messages.row?_insertMessage hid.symm
    refine Prog.wp_mono (wp_submit hrow rfl) ?_
    rintro es r s' ⟨hcreated, hsettled⟩ hstatus
    obtain ⟨-, hstatus⟩ := List.forall_mem_cons.mp hstatus
    have hnone : es.filterMap createdRow = [] := List.filterMap_eq_nil_iff.mpr hcreated
    have hrows : (⟨.insertMessage (submittedMessage req tid), (.ok (some id) : Except Str (Option Nat))⟩ ::
        es).filterMap createdRow = [id] := by
      rw [← hnone]
      rfl
    rw [Decided, List.singleton_append, hrows, List.forall_mem_singleton, hsettled hstatus]
    exact ⟨fun h ↦ List.forall_mem_cons.mpr ⟨rfl, h⟩, fun h ↦ (List.forall_mem_cons.mp h).2⟩

theorem wp_send {req : SendRequest} {s : State} : Prog.wp State.world (send x cfg req) Closed s := by
  have hfail : ∀ e : Str, Prog.wp State.world (Attempt.fail e : Attempt Nat) Closed s :=
    fun e ↦ closed_of_quiet (List.forall_mem_nil _)
  rw [send]
  split
  · exact hfail _
  · cases cfg.mmsc with
    | none => exact hfail _
    | some mmsc =>
        dsimp only
        split
        · exact hfail _
        · refine Prog.wp_attempt.mpr (Prog.wp_mono wp_buildParts ?_)
          rintro es (e | parts) s₁ ⟨rfl, hquiet⟩
          · exact closed_of_quiet hquiet
          · refine Prog.wp_attempt_call.mpr ?_
            rintro hex s₂ rfl
            refine Prog.wp_mono wp_record fun es' r s' hrest ↦ ?_
            have hhex : Closed ([⟨.randomHex 6, hex⟩] ++ es') r s' :=
              hrest.append (List.forall_mem_singleton.mpr ⟨rfl, rfl⟩)
            exact hhex.append hquiet

/-- If the statuses can be written, a submission leaves no row undecided exactly if no step fails that is
made between the row and the submission. -/
theorem decided_send_iff {req : SendRequest} {s s' : State} {es : List (Prog.Event Call Call.Answer)}
    {r : Except Str Nat} (h : Prog.Runs State.world s (send x cfg req) es s' (.done r))
    (hstatus : ∀ e ∈ es, statusFails e = false) :
    Decided es r s' ↔ ∀ e ∈ es, storingFails e = false :=
  Prog.wp_iff.mp wp_send es r s' h hstatus

namespace Sample

/-- The bearer is brought up by a command first. -/
def bearerConfig : Config := { config with setupCommand := some "mms-up" }

def greeting : SendRequest where
  toAddrs := ["01012345678"]
  subject := none
  text := some "hi"
  attachments := []

def greetingPath : Str := "attachments/1/0_text0.txt"

def greetingRow : AttachmentRow where
  contentType := "text/plain"
  name := some "text0.txt"
  contentId := some "text0"
  size := 2
  path := greetingPath

/-- The store with the message in it, and nothing of its parts. -/
def withGreeting : State :=
  { State.empty with messages := (Messages.empty.insertMessage (submittedMessage greeting "T00ff00ff00ff")).2 }

/-- The store with its part as well. -/
def withGreetingPart : State where
  messages := withGreeting.messages
  attachments := withGreeting.attachments.insert (1, 0) greetingRow
  files := withGreeting.files.insert greetingPath (utf8 "hi")

/-- The parts are stored, and the command fails. -/
def bearerDown : List (Prog.Event Call Call.Answer) :=
  [⟨.randomHex 6, ("00ff00ff00ff" : Str)⟩,
    ⟨.insertMessage (submittedMessage greeting "T00ff00ff00ff"), (.ok (some 1) : Except Str (Option Nat))⟩,
    ⟨.createDir "attachments/1", (.ok () : Except Str Unit)⟩,
    ⟨.writeFile greetingPath (utf8 "hi"), (.ok () : Except Str Unit)⟩,
    ⟨.upsertAttachment 1 0 greetingRow, (.ok () : Except Str Unit)⟩,
    ⟨.setupCommand "mms-up",
      (.error "mms.setup_command exited with exit status: 1" : Except Str Unit)⟩]

theorem send_bearerDown :
    Prog.Runs State.world .empty (send outside bearerConfig greeting) bearerDown withGreetingPart
      (.done (.error "mms.setup_command exited with exit status: 1")) := by
  have hrow : (Messages.empty.insertMessage (submittedMessage greeting "T00ff00ff00ff")).1 = some 1 := by
    decide
  have hinsert : State.world .empty (.insertMessage (submittedMessage greeting "T00ff00ff00ff"))
      (.ok (some 1) : Except Str (Option Nat)) withGreeting := ⟨hrow.symm, rfl⟩
  have hupsert : State.world { withGreetingPart with attachments := withGreeting.attachments }
      (.upsertAttachment 1 0 greetingRow) (.ok () : Except Str Unit) withGreetingPart :=
    ⟨⟨rfl, rfl⟩, fun _ ↦ rfl⟩
  exact .call rfl (.call hinsert (.call rfl (.call rfl (.call hupsert (.call rfl (.refl _ _))))))

theorem statuses_bearerDown : ∀ e ∈ bearerDown, statusFails e = false := by
  simp only [bearerDown, List.forall_mem_cons]
  exact ⟨rfl, rfl, rfl, rfl, rfl, rfl, List.forall_mem_nil _⟩

end Sample

/-- The row of a submission whose command fails stays as it is being sent. -/
theorem bearerDown_undecided :
    ¬ ∀ (x : Outside) (cfg : Config) (req : SendRequest) (s s' : State)
      (es : List (Prog.Event Call Call.Answer)) (r : Except Str Nat),
      Prog.Runs State.world s (send x cfg req) es s' (.done r) →
        (∀ e ∈ es, statusFails e = false) → Decided es r s' := by
  intro h
  have hdecided := h _ _ _ _ _ _ _ Sample.send_bearerDown Sample.statuses_bearerDown
  have hsettled := hdecided 1 (List.mem_singleton_self 1)
  exact sending_ne_finalStatus false (Option.some.inj hsettled)

theorem decided_send_iff_bearerDown :
    Decided Sample.bearerDown (.error "mms.setup_command exited with exit status: 1")
      Sample.withGreetingPart ↔ ∀ e ∈ Sample.bearerDown, storingFails e = false :=
  decided_send_iff Sample.send_bearerDown Sample.statuses_bearerDown

end Modem2Sip.Messages
