import Modem2Sip.Messages.Received

/-!
# Messages that are removed from the modem

What the gateway does about an SMS object: `on_sms_added` and the two handlers behind it.  An object
that is gone before it can be read is nothing to it, and the text that `format_mms_summary` makes of a
message is any function of its row here.
-/

namespace Modem2Sip.Messages

open Text Store Mms

/-! ## SMS objects -/

/-- `sms_state`. -/
def stateStored : Nat := 1

def stateReceiving : Nat := 2

def stateReceived : Nat := 3

def stateSent : Nat := 5

def pduDeliver : Nat := 1

def pduSubmit : Nat := 2

def smsAssemblyAttempts : Nat := 10

namespace SmsInfo

/-- A binary message without a text: a WAP push, most likely. -/
def looksLikeWapPush (info : SmsInfo) : Bool :=
  info.text == [] && 3 < info.data.length && isWapPush info.data

def isIncoming (info : SmsInfo) (received : Bool) : Bool :=
  info.pduType == pduDeliver || (received && info.pduType != pduSubmit)

def isReady (info : SmsInfo) : Bool :=
  info.state == stateReceived || info.state == stateStored

end SmsInfo

variable (x : Outside) (md5Hex : List UInt8 → Str) (cfg : Config) (summary : MessageRow → Str)

/-- The SIP side is told of a message that was stored. -/
def notifyMms (sms : Sms) (result : Except Str (Option Nat)) : Attempt Unit :=
  match result with
  | .ok (some id) => do
    let found ← Prog.outcome (Attempt.getMessage id)
    match found with
    | .ok (some msg) =>
      Attempt.notifySip (if msg.peer = [] then sms.info.peer cfg else msg.peer) (summary msg)
    | _ => pure ()
  | _ => pure ()

/-- `handle_mms_push`: the task that it starts.  A failure of `handle_push` is logged. -/
def handleMmsPush (sms : Sms) : Attempt Unit := do
  let result ← Prog.outcome (handlePush x cfg sms.info)
  notifyMms cfg summary sms result
  if cfg.deleteFromModem then
    Attempt.deleteFromModem sms.path

/-- `on_sms_added`; the attempt that is due in a while, if parts of the message are missing. -/
def onSmsAdded (sms : Sms) (received : Bool) (attempt : Nat) : Attempt (Option Nat) := do
  if sms.info.isIncoming received && sms.info.state == stateReceiving then
    pure (if attempt ≥ smsAssemblyAttempts then none else some (attempt + 1))
  else if !sms.info.isIncoming received || !sms.info.isReady then
    -- What we sent ourselves is tidied up, unless a delivery report needs it.
    if sms.info.pduType == pduSubmit && sms.info.state == stateSent && cfg.deleteFromModem &&
        !cfg.deliveryReport then
      Attempt.deleteFromModem sms.path
    pure none
  else if sms.info.looksLikeWapPush then
    handleMmsPush x cfg summary sms
    pure none
  else
    handleTextSms md5Hex cfg sms
    pure none

/-! ## The row of a message -/

/-- The row that is made for a message, if any: of a push, if it carries an MMS PDU. -/
def Sms.row (sms : Sms) : Option NewMessage :=
  if sms.info.looksLikeWapPush then
    match x.readPush sms.info.data with
    | .ok (some (push, notification)) => some (pushMessage x cfg sms.info push notification)
    | _ => none
  else some (textMessage md5Hex cfg sms)

/-- The row tells of the message: of a text by its sender, its time and what it says, of an MMS by the
id of its notification or the notification itself, as the rest is filled in when it is retrieved. -/
def Tells (row msg : NewMessage) : Prop :=
  row.kind = msg.kind ∧ row.direction = msg.direction ∧
    match msg.kind with
    | .sms => row.peer = msg.peer ∧ row.timestamp = msg.timestamp ∧ row.text = msg.text ∧ row.raw = msg.raw
    | .mms => row.externalId = msg.externalId ∧ (msg.externalId = none → row.raw = msg.raw)

/-- There is a row for the message. -/
def HasRowFor (t : Messages) (msg : NewMessage) : Prop := ∃ r ∈ t.rows, Tells r.toNewMessage msg

/-- The database holds a row for the message of the object. -/
def Sms.Stored (sms : Sms) (s : State) : Prop :=
  ∃ msg, sms.row x md5Hex cfg = some msg ∧ HasRowFor s.messages msg

/-- The `INSERT` has failed. -/
def insertFails : Prog.Event Call Call.Answer → Bool
  | ⟨.insertMessage _, (.error _ : Except Str (Option Nat))⟩ => true
  | _ => false

variable {x md5Hex cfg summary} {s s' : State} {t : Messages} {msg : NewMessage}

theorem Tells.refl (msg : NewMessage) : Tells msg msg := by
  refine ⟨rfl, rfl, ?_⟩
  cases msg.kind with
  | sms => exact ⟨rfl, rfl, rfl, rfl⟩
  | mms => exact ⟨rfl, fun _ ↦ rfl⟩

/-- After an `INSERT` there is a row for a message that had one, and for one that is not taken for
another. -/
theorem hasRowFor_insertMessage :
    HasRowFor (t.insertMessage msg).2 msg ↔ HasRowFor t msg ∨ ¬ t.Known msg := by
  by_cases hknown : t.Known msg
  · rw [Messages.insertMessage_of_known hknown]
    exact (or_iff_left (not_not_intro hknown)).symm
  · rw [Messages.insertMessage_of_not_known hknown]
    refine iff_of_true ⟨_, List.mem_append_right _ (List.mem_singleton_self _), .refl msg⟩ (.inr hknown)

/-- What is never filled in later. -/
def fixedPart (r : MessageRow) : Kind × Direction × Option Str × Option (List UInt8) :=
  (r.kind, r.direction, r.externalId, r.raw)

theorem hasRowFor_congr {t' : Messages} (hkind : msg.kind = .mms)
    (h : t'.rows.map fixedPart = t.rows.map fixedPart) : HasRowFor t' msg ↔ HasRowFor t msg := by
  have hiff (t : Messages) : HasRowFor t msg ↔ ∃ k ∈ t.rows.map fixedPart,
      k.1 = msg.kind ∧ k.2.1 = msg.direction ∧
        k.2.2.1 = msg.externalId ∧ (msg.externalId = none → k.2.2.2 = msg.raw) := by
    simp only [List.mem_map, exists_exists_and_eq_and]
    refine exists_congr fun r ↦ and_congr_right fun _ ↦ ?_
    rw [Tells, hkind]
    exact Iff.rfl
  rw [hiff, hiff, h]

theorem map_fixedPart_update {id : Nat} {f : MessageRow → MessageRow}
    (hf : ∀ r, (f r).id = r.id ∧ (f r).kind = r.kind ∧ (f r).direction = r.direction ∧
      (f r).externalId = r.externalId) (h : ∀ r, fixedPart (f r) = fixedPart r) :
    (t.update id f hf).rows.map fixedPart = t.rows.map fixedPart := by
  rw [Messages.update, List.map_map]
  refine List.map_congr_left fun r _ ↦ ?_
  rw [Function.comp_apply]
  split
  · exact h r
  · rfl

/-- A call that creates no row changes nothing of this. -/
theorem Rowless.map_fixedPart {c : Call} {r : c.Answer} (hc : Rowless c) (hW : State.world s c r s') :
    s'.messages.rows.map fixedPart = s.messages.rows.map fixedPart := by
  cases hwrites : State.writesMessages c with
  | false => rw [State.world_messages hwrites hW]
  | true =>
      cases c with
      | insertMessage msg =>
          have hcreated : createdRow ⟨.insertMessage msg, (.ok (some 0) : Except Str (Option Nat))⟩ = none :=
            hc _
          cases hcreated
      | setStatus id status error =>
          cases r with
          | error e => rw [hW]
          | ok u =>
              rw [hW.2]
              refine map_fixedPart_update ?_ fun _ ↦ rfl
              exact fun _ ↦ ⟨rfl, rfl, rfl, rfl⟩
      | updateReceivedMms id subject text timestamp =>
          cases r with
          | error e => rw [hW]
          | ok u =>
              rw [hW.2]
              refine map_fixedPart_update ?_ fun _ ↦ rfl
              exact fun _ ↦ ⟨rfl, rfl, rfl, rfl⟩
      | _ => cases hwrites

theorem Rowless.insertFails {c : Call} (hc : Rowless c) (r : c.Answer) : insertFails ⟨c, r⟩ = false := by
  cases c with
  | insertMessage msg =>
      have hcreated : createdRow ⟨.insertMessage msg, (.ok (some 0) : Except Str (Option Nat))⟩ = none :=
        hc _
      cases hcreated
  | _ => rfl

/-- Nothing of this changes, and no `INSERT` has failed. -/
structure Unfailing (s : State) (es : List (Prog.Event Call Call.Answer)) (s' : State) : Prop where
  fixedParts : s'.messages.rows.map fixedPart = s.messages.rows.map fixedPart
  inserts : ∀ e ∈ es, insertFails e = false

theorem wp_rowless {α : Type} {p : Act α} (h : p.Only Rowless) :
    p.wp State.world (fun es _ s' ↦ Unfailing s es s') s := by
  refine Prog.wp_iff.mpr fun es a s' hrun ↦ ?_
  have hes := (h.of_mem hrun).1
  refine ⟨?_, fun e he ↦ (hes e he).insertFails e.2⟩
  exact hrun.invariant (I := fun s' ↦ s'.messages.rows.map fixedPart = s.messages.rows.map fixedPart)
    (fun s₁ c r s₂ hs hc hW ↦ (Rowless.map_fixedPart hc hW).trans hs) hes rfl

/-! ## When it is removed -/

/-- The object is removed. -/
def Removes (path : Str) (c : Call) : Prop := c = .deleteFromModem path

theorem only_handlePush (sms : SmsInfo) (path : Str) :
    Prog.Only (fun c ↦ ¬ Removes path c) (handlePush x cfg sms) := by
  refine (keeps_handlePush sms).only ?_
  rintro q c hlegal rfl
  cases q with
  | idle | fresh | working | stored | failed => exact hlegal

/-- A row for the message has been there before, or is made now. -/
def Covered (x : Outside) (md5Hex : List UInt8 → Str) (cfg : Config) (sms : Sms) (s : State)
    (es : List (Prog.Event Call Call.Answer)) : Prop :=
  sms.Stored x md5Hex cfg s ∨ ∃ msg, sms.row x md5Hex cfg = some msg ∧ ¬ s.messages.Known msg ∧
    ∀ e ∈ es, insertFails e = false

/-- At every removal of the object there is a row for its message just when there has been one before or
one is made. -/
def Removals (x : Outside) (md5Hex : List UInt8 → Str) (cfg : Config) (sms : Sms) {α : Type}
    (p : Act α) (s : State) : Prop :=
  p.AtCalls State.world (fun es c s' ↦ Removes sms.path c →
    (sms.Stored x md5Hex cfg s' ↔ Covered x md5Hex cfg sms s es)) s

/-- A row that is made is there. -/
theorem stored_of_inserted {sms : Sms} {es : List (Prog.Event Call Call.Answer)}
    (hrow : sms.row x md5Hex cfg = some msg) (hes : ∀ e ∈ es, insertFails e = false)
    (h : HasRowFor s'.messages msg ↔ HasRowFor s.messages msg ∨ ¬ s.messages.Known msg) :
    sms.Stored x md5Hex cfg s' ↔ Covered x md5Hex cfg sms s es := by
  have hstored (s : State) : sms.Stored x md5Hex cfg s ↔ HasRowFor s.messages msg := by
    constructor
    · rintro ⟨msg', hrow', h⟩
      cases hrow.symm.trans hrow'
      exact h
    · exact fun h ↦ ⟨msg, hrow, h⟩
  rw [Covered, hstored, hstored, h]
  refine or_congr_right ⟨fun hnew ↦ ⟨msg, hrow, hnew, hes⟩, ?_⟩
  rintro ⟨msg', hrow', hnew, -⟩
  cases hrow.symm.trans hrow'
  exact hnew

theorem removals_handleTextSms {sms : Sms} (hrow : sms.row x md5Hex cfg = some (textMessage md5Hex cfg sms))
    (s : State) : Removals x md5Hex cfg sms (handleTextSms md5Hex cfg sms) s := by
  refine .call (by rintro ⟨⟩) ?_
  rintro (e | stored) s₁ hW
  · exact .done
  have hdone (es : List (Prog.Event Call Call.Answer)) (hes : ∀ e ∈ es, insertFails e = false) :
      sms.Stored x md5Hex cfg s₁ ↔ Covered x md5Hex cfg sms s
        (⟨.insertMessage (textMessage md5Hex cfg sms), (.ok stored : Except Str (Option Nat))⟩ :: es) := by
    refine stored_of_inserted hrow (List.forall_mem_cons.mpr ⟨rfl, hes⟩) ?_
    rw [hW.2]
    exact hasRowFor_insertMessage
  change Prog.AtCalls _ _ (startTasks cfg sms stored) s₁
  rw [startTasks]
  cases stored.isSome && cfg.notifySip with
  | false =>
      cases cfg.deleteFromModem with
      | false => exact .done
      | true => exact .call (fun _ ↦ hdone [] (List.forall_mem_nil _)) fun _ _ _ ↦ .done
  | true =>
      cases cfg.deleteFromModem with
      | false => exact .call (by rintro ⟨⟩) fun _ _ _ ↦ .done
      | true =>
          refine .call (by rintro ⟨⟩) ?_
          rintro r s₂ rfl
          exact .call (fun _ ↦ hdone [⟨_, r⟩] (List.forall_mem_singleton.mpr rfl)) fun _ _ _ ↦ .done

/-- What is known of the message of a push once it has been handled. -/
theorem wp_handlePush_stored (md5Hex : List UInt8 → Str) {sms : Sms}
    (hpush : sms.info.looksLikeWapPush = true) (s : State) :
    Prog.wp State.world (handlePush x cfg sms.info)
      (fun es _ s' ↦ sms.Stored x md5Hex cfg s' ↔ Covered x md5Hex cfg sms s es) s := by
  have hrow : sms.row x md5Hex cfg = match x.readPush sms.info.data with
      | .ok (some (push, notification)) => some (pushMessage x cfg sms.info push notification)
      | _ => none := if_pos hpush
  have hnone (hrow : sms.row x md5Hex cfg = none) (es : List (Prog.Event Call Call.Answer)) (s' : State) :
      sms.Stored x md5Hex cfg s' ↔ Covered x md5Hex cfg sms s es := by
    simp only [Covered, Sms.Stored, hrow, reduceCtorEq, false_and, exists_false, or_self]
  rw [handlePush]
  cases hread : x.readPush sms.info.data with
  | error e => exact hnone (by rw [hrow, hread]) [] s
  | ok pushed =>
      cases pushed with
      | none => exact hnone (by rw [hrow, hread]) [] s
      | some pushed =>
          obtain ⟨push, notification⟩ := pushed
          rw [hread] at hrow
          refine Prog.wp_attempt_call.mpr ?_
          rintro (e | stored) s₁ hW
          · obtain rfl : s₁ = s := hW
            refine (or_iff_left ?_).symm
            rintro ⟨-, -, -, hes⟩
            cases hes _ (List.mem_singleton_self _)
          obtain ⟨rfl, rfl⟩ := hW
          refine Prog.wp_mono (wp_rowless ?_) fun es r s' hes ↦ ?_
          · cases (s.messages.insertMessage (pushMessage x cfg sms.info push notification)).1 with
            | some id => exact rowless_acceptNotification notification
            | none => exact rowless_retryDuplicate notification
          · refine stored_of_inserted hrow (List.forall_mem_cons.mpr ⟨rfl, hes.inserts⟩) ?_
            rw [hasRowFor_congr rfl hes.fixedParts]
            exact hasRowFor_insertMessage

/-- The calls by which the SIP side is told. -/
def Announces : Call → Prop
  | .getMessage _ | .notifySip .. => True
  | _ => False

theorem Announces.world {c : Call} {r : c.Answer} (h : Announces c) (hW : State.world s c r s') : s' = s := by
  cases c with
  | getMessage id =>
      cases r with
      | error e => exact hW
      | ok row => exact hW.2
  | notifySip => exact hW
  | _ => cases h

theorem Announces.insertFails {c : Call} (h : Announces c) (r : c.Answer) : insertFails ⟨c, r⟩ = false := by
  cases c with
  | getMessage | notifySip => rfl
  | _ => cases h

theorem Announces.not_removes {c : Call} (h : Announces c) (path : Str) : ¬ Removes path c := by
  rintro rfl
  exact h

theorem only_notifyMms (sms : Sms) (result : Except Str (Option Nat)) :
    Prog.Only Announces (notifyMms cfg summary sms result) := by
  unfold notifyMms
  split
  · refine Prog.Only.attempt (Prog.Only.bind (Prog.Only.ask trivial) fun _ ↦ trivial) fun found ↦ ?_
    split
    · exact ⟨trivial, fun _ ↦ trivial⟩
    · trivial
  · trivial

theorem wp_notifyMms (sms : Sms) (result : Except Str (Option Nat)) (s : State) :
    Prog.wp State.world (notifyMms cfg summary sms result)
      (fun es _ s' ↦ s' = s ∧ ∀ e ∈ es, insertFails e = false) s := by
  refine Prog.wp_iff.mpr fun es r s' hrun ↦ ?_
  have hes := ((only_notifyMms sms result).of_mem hrun).1
  refine ⟨?_, fun e he ↦ (hes e he).insertFails e.2⟩
  exact hrun.invariant (I := (· = s)) (fun _ _ _ _ hs hc hW ↦ (hc.world hW).trans hs) hes rfl

theorem covered_append {sms : Sms} {es es' : List (Prog.Event Call Call.Answer)}
    (hes' : ∀ e ∈ es', insertFails e = false) :
    Covered x md5Hex cfg sms s (es ++ es') ↔ Covered x md5Hex cfg sms s es := by
  refine or_congr_right (exists_congr fun msg ↦ and_congr_right fun _ ↦ and_congr_right fun _ ↦ ?_)
  rw [List.forall_mem_append]
  exact and_iff_left hes'

theorem removals_handleMmsPush {sms : Sms} (hpush : sms.info.looksLikeWapPush = true) (s : State) :
    Removals x md5Hex cfg sms (handleMmsPush x cfg summary sms) s := by
  have hquiet {es : List (Prog.Event Call Call.Answer)} {c : Call} {s' : State}
      (hc : ¬ Removes sms.path c) : Removes sms.path c →
        (sms.Stored x md5Hex cfg s' ↔ Covered x md5Hex cfg sms s es) := fun h ↦ absurd h hc
  refine Prog.AtCalls.attempt (.of_only ((only_handlePush sms.info sms.path).bind fun _ ↦ trivial)
    fun _ _ _ hc ↦ hquiet hc) ?_
  refine Prog.wp_outcome.mpr (Prog.wp_mono (wp_handlePush_stored md5Hex hpush s) ?_)
  rintro es r s₁ hstored _ -
  refine Prog.AtCalls.attempt (.of_only (only_notifyMms sms _) fun _ _ _ hc ↦ hquiet (hc.not_removes _)) ?_
  refine Prog.wp_mono (wp_notifyMms sms _ s₁) ?_
  rintro es' r' s₂ ⟨rfl, hes'⟩ _ -
  split
  · refine .call (fun _ ↦ ?_) fun _ _ _ ↦ .done
    rwa [List.append_nil, covered_append hes']
  · exact .done

theorem SmsInfo.pduType_of_isIncoming {info : SmsInfo} {received : Bool}
    (h : info.isIncoming received = true) : (info.pduType == pduSubmit) = false := by
  refine beq_false_of_ne fun hsubmit ↦ ?_
  rw [isIncoming, hsubmit] at h
  cases received with
  | false => cases h
  | true => cases h

theorem removals_onSmsAdded {sms : Sms} {received : Bool} (hincoming : sms.info.isIncoming received = true)
    (attempt : Nat) (s : State) :
    Removals x md5Hex cfg sms (onSmsAdded x md5Hex cfg summary sms received attempt) s := by
  have hpdu := SmsInfo.pduType_of_isIncoming hincoming
  unfold onSmsAdded
  rw [hincoming, hpdu]
  split
  · exact .done
  split
  · exact .done
  split
  · rename_i hpush
    refine (removals_handleMmsPush hpush s).attempt ?_
    exact Prog.wp_iff.mpr fun _ _ _ _ _ _ ↦ .done
  · rename_i htext
    refine (removals_handleTextSms (if_neg htext) s).attempt ?_
    exact Prog.wp_iff.mpr fun _ _ _ _ _ _ ↦ .done

/-- When an incoming object is removed, there is a row for its message just when there has been one
before, or a row is made now: a push has to carry an MMS PDU, the message must not be taken for another,
and the `INSERT` must not fail. -/
theorem removed_stored_iff {sms : Sms} {received : Bool} (hincoming : sms.info.isIncoming received = true)
    {attempt : Nat} {es : List (Prog.Event Call Call.Answer)}
    {k : (Call.deleteFromModem sms.path).Answer → Act (Except Str (Option Nat))}
    (hrun : Prog.Runs State.world s (onSmsAdded x md5Hex cfg summary sms received attempt) es s'
      (.call (.deleteFromModem sms.path) k)) :
    sms.Stored x md5Hex cfg s' ↔ sms.Stored x md5Hex cfg s ∨
      ∃ msg, sms.row x md5Hex cfg = some msg ∧ ¬ s.messages.Known msg ∧ ∀ e ∈ es, insertFails e = false :=
  removals_onSmsAdded hincoming attempt s es s' _ k hrun rfl

namespace Sample

/-- Handled messages are removed. -/
def removing : Config := { config with deleteFromModem := true }

/-- The object of a push. -/
def pushObject : Sms := ⟨"/SMS/4", pushSms, none⟩

/-- The row of a text is written, and the SIP side is told. -/
def helloStored : List (Prog.Event Call Call.Answer) :=
  [⟨.insertMessage (textMessage digest config (hello "/SMS/4")), (.ok (some 1) : Except Str (Option Nat))⟩,
    ⟨.notifySip "01012345678" "hello", ()⟩]

theorem runs_helloStored :
    Prog.Runs State.world .empty
      (onSmsAdded outside digest removing (fun _ ↦ []) (hello "/SMS/4") true 0) helloStored withHello
      (.call (.deleteFromModem "/SMS/4") fun _ ↦ .done (.ok none)) := by
  have hrow : (Messages.empty.insertMessage (textMessage digest config (hello "/SMS/4"))).1 = some 1 := by
    decide
  have hinsert : State.world .empty (.insertMessage (textMessage digest config (hello "/SMS/4")))
      (.ok (some 1) : Except Str (Option Nat)) withHello := ⟨hrow.symm, rfl⟩
  exact .call hinsert (.call rfl (.refl _ _))

theorem runs_refused :
    Prog.Runs State.world .empty (onSmsAdded outside digest removing (fun _ ↦ []) pushObject true 0)
      [⟨.insertMessage pushRow, (.error "disk full" : Except Str (Option Nat))⟩] .empty
      (.call (.deleteFromModem "/SMS/4") fun _ ↦ .done (.ok none)) := by
  have hpush : onSmsAdded outside digest removing (fun _ ↦ []) pushObject true 0 =
      (handleMmsPush outside removing (fun _ ↦ []) pushObject >>= fun _ ↦ pure none) := rfl
  have hread : outside.readPush pushObject.info.data = .ok (some (push, notification)) := readPush_pushSms
  rw [hpush, handleMmsPush, handlePush, hread]
  exact .call rfl (.refl _ _)

end Sample

theorem removed_stored_iff_hello :
    (Sample.hello "/SMS/4").Stored Sample.outside Sample.digest Sample.removing Sample.withHello ↔
      (Sample.hello "/SMS/4").Stored Sample.outside Sample.digest Sample.removing .empty ∨
        ∃ msg, (Sample.hello "/SMS/4").row Sample.outside Sample.digest Sample.removing = some msg ∧
          ¬ State.empty.messages.Known msg ∧ ∀ e ∈ Sample.helloStored, insertFails e = false :=
  removed_stored_iff (by decide) Sample.runs_helloStored

/-- The row of a notification cannot be written, and its object is removed. -/
theorem refused_push_removed :
    Prog.Runs State.world .empty
        (onSmsAdded Sample.outside Sample.digest Sample.removing (fun _ ↦ []) Sample.pushObject true 0)
        [⟨.insertMessage Sample.pushRow, (.error "disk full" : Except Str (Option Nat))⟩] .empty
        (.call (.deleteFromModem Sample.pushObject.path) fun _ ↦ .done (.ok none)) ∧
      Sample.pushObject.info.isIncoming true = true ∧
        ¬ Sample.pushObject.Stored Sample.outside Sample.digest Sample.removing .empty := by
  refine ⟨Sample.runs_refused, rfl, ?_⟩
  rintro ⟨msg, -, r, hr, -⟩
  cases hr

end Modem2Sip.Messages
