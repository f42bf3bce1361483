import Modem2Sip.Messages.Retrieval

/-!
# Notifications that come again

The carrier notifies again with the same transaction id until a message has been fetched, and
`handle_push` fetches it on the first occasion on which that works.
-/

namespace Modem2Sip.Messages

open Text Store Mms

/-! ## The row of a notification -/

/-- What a row is found by does not change. -/
structure SameKey (r r' : MessageRow) : Prop where
  kind : r'.kind = r.kind
  direction : r'.direction = r.direction
  externalId : r'.externalId = r.externalId

theorem SameKey.refl (r : MessageRow) : SameKey r r := ⟨rfl, rfl, rfl⟩

/-- The row is that of the notification with the transaction id. -/
def IsFor (tid : Str) (r : MessageRow) : Prop :=
  r.kind = .mms ∧ r.direction = .incoming ∧ r.externalId = some tid

instance (tid : Str) (r : MessageRow) : Decidable (IsFor tid r) := inferInstanceAs (Decidable (_ ∧ _))

/-- The notification with the transaction id has this row. -/
def HasKey (tid : Str) (id : Nat) (s : State) : Prop :=
  ∃ row, s.messages.row? id = some row ∧ IsFor tid row

/-- And the row has this status. -/
def HasStatus (tid : Str) (id : Nat) (status : Str) (s : State) : Prop :=
  ∃ row, s.messages.row? id = some row ∧ IsFor tid row ∧ row.status = status

variable {tid : Str} {id : Nat} {s s' : State}

theorem HasStatus.hasKey {status : Str} (h : HasStatus tid id status s) : HasKey tid id s := by
  obtain ⟨row, hrow, hfor, -⟩ := h
  exact ⟨row, hrow, hfor⟩

/-- It is the only one. -/
theorem HasStatus.rows {status : Str} (h : HasStatus tid id status s) :
    (s.messages.rows.filter (IsFor tid ·)).map (fun r ↦ (r.id, r.status)) = [(id, status)] := by
  obtain ⟨row, hrow, ⟨hkind, hdirection, hexternal⟩, rfl⟩ := h
  obtain ⟨hmem, rfl⟩ := Messages.row?_eq_some_iff.mp hrow
  have hsome : row.externalId ≠ none := hexternal ▸ Option.some_ne_none tid
  have hsame : ∀ r : MessageRow, IsFor tid r ↔ SameExternal r.toNewMessage row.toNewMessage := by
    intro r
    rw [IsFor, SameExternal, hkind, hdirection, hexternal]
    constructor
    · rintro ⟨h₁, h₂, h₃⟩
      exact ⟨h₁, h₂, h₃, h₃ ▸ Option.some_ne_none tid⟩
    · rintro ⟨h₁, h₂, h₃, -⟩
      exact ⟨h₁, h₂, h₃⟩
  have hrows := Messages.filter_sameExternal hmem hsome
  simp only [hsame]
  rw [hrows, List.map_singleton]

theorem HasKey.setStatus (h : HasKey tid id s) (status : Str) (error : Option Str) :
    HasStatus tid id status { s with messages := s.messages.setStatus id status error } := by
  obtain ⟨row, hrow, hfor⟩ := h
  refine ⟨{ row with status := status, error := error }, ?_, hfor, rfl⟩
  rw [Messages.row?_setStatus, if_pos rfl, hrow, Option.map_some]

/-- No call takes a row away, or changes what it is found by. -/
theorem world_row {c : Call} {r : c.Answer} {row : MessageRow} (hrow : s.messages.row? id = some row)
    (hW : State.world s c r s') : ∃ row', s'.messages.row? id = some row' ∧ SameKey row row' := by
  cases hc : State.writesMessages c with
  | false =>
      rw [State.world_messages hc hW]
      exact ⟨row, hrow, .refl row⟩
  | true =>
      cases c with
      | insertMessage msg =>
          cases r with
          | error e => exact ⟨row, hW ▸ hrow, .refl row⟩
          | ok stored =>
              rw [hW.2]
              exact ⟨row, Messages.row?_insertMessage_of_row hrow, .refl row⟩
      | updateReceivedMms m subject text timestamp =>
          cases r with
          | error e => exact ⟨row, hW ▸ hrow, .refl row⟩
          | ok u =>
              rw [hW.2, Messages.row?_updateReceivedMms, hrow]
              split
              · exact ⟨_, rfl, ⟨rfl, rfl, rfl⟩⟩
              · exact ⟨row, rfl, .refl row⟩
      | setStatus m status error =>
          cases r with
          | error e => exact ⟨row, hW ▸ hrow, .refl row⟩
          | ok u =>
              rw [hW.2, Messages.row?_setStatus, hrow]
              split
              · exact ⟨_, rfl, ⟨rfl, rfl, rfl⟩⟩
              · exact ⟨row, rfl, .refl row⟩
      | _ => cases hc

theorem HasKey.step {c : Call} {r : c.Answer} (h : HasKey tid id s) (hW : State.world s c r s') :
    HasKey tid id s' := by
  obtain ⟨row, hrow, hkind, hdirection, hexternal⟩ := h
  obtain ⟨row', hrow', hsame⟩ := world_row hrow hW
  exact ⟨row', hrow', hsame.kind.trans hkind, hsame.direction.trans hdirection,
    hsame.externalId.trans hexternal⟩

theorem HasKey.always {α : Type} {p : Act α} (h : HasKey tid id s) :
    p.Always State.world (HasKey tid id) s := by
  intro es s' q hrun
  exact hrun.invariant (P := fun _ ↦ True) (fun _ _ _ _ hs _ hW ↦ hs.step hW) (fun _ _ ↦ trivial) h

/-! ## A retrieval -/

/-- The calls of a download: no row is created, and the marks around it are not among them. -/
def Works : Call → Prop
  | .insertMessage _ | .retrieving _ | .retrieved .. => False
  | _ => True

theorem Works.event {c : Call} (h : Works c) (r : c.Answer) :
    createdRow ⟨c, r⟩ = none ∧ retrievalOf ⟨c, r⟩ = none ∧ fetches ⟨c, r⟩ = false := by
  cases c with
  | insertMessage | retrieving | retrieved => cases h
  | _ => exact ⟨rfl, rfl, rfl⟩

theorem Own.works {dir : Str} {c : Call} (h : Own dir id c) : Works c := by
  cases c with
  | insertMessage | retrieving | retrieved => cases h
  | _ => trivial

variable {x : Outside} {cfg : Config}

theorem works_removeFiles (paths : List Str) : Prog.Only Works (Attempt.removeFiles paths) := by
  induction paths with
  | nil => trivial
  | cons path paths ih => exact ⟨trivial, fun _ ↦ ih⟩

theorem works_storeRetrieved (message : MmsMessage) : Prog.Only Works (storeRetrieved x cfg id message) := by
  refine Prog.Only.attempt (Prog.Only.ask trivial) fun _ ↦ ?_
  refine Prog.Only.attempt ((only_storeParts message.parts 0).mono fun _ h ↦ h.works) fun index ↦ ?_
  refine Prog.Only.attempt ?_ fun _ ↦ Prog.Only.ask trivial
  exact Prog.Only.attempt (Prog.Only.ask trivial) works_removeFiles

theorem works_acknowledge (notification message : MmsMessage) :
    Prog.Only Works (acknowledge cfg notification message) := by
  rw [acknowledge]
  split
  · exact ⟨trivial, fun _ ↦ trivial⟩
  · trivial

theorem works_download (notification : MmsMessage) :
    Prog.Only Works (download x cfg notification id) := by
  refine Prog.Only.attempt trivial fun url ↦ Prog.Only.attempt ?_ fun _ ↦ ?_
  · rw [runSetupCommand]
    split
    · trivial
    · exact Prog.Only.ask trivial
  refine Prog.Only.attempt (Prog.Only.bind (Prog.Only.ask trivial) fun _ ↦ trivial) fun reply ↦ ?_
  cases reply with
  | error e => trivial
  | ok resp =>
      refine Prog.Only.attempt trivial fun message ↦ ?_
      exact Prog.Only.attempt (works_storeRetrieved message) fun _ ↦ works_acknowledge notification message

/-- A message that is stored is received. -/
theorem wp_storeRetrieved_status (h : HasKey tid id s) (message : MmsMessage) :
    Prog.wp State.world (storeRetrieved x cfg id message)
      (fun _ r s' ↦ r = .ok () → HasStatus tid id "received" s') s := by
  refine Prog.wp_attempt.mpr (Prog.wp_mono h.always.wp ?_)
  rintro es₁ (e | _) s₁ h₁
  · exact nofun
  refine Prog.wp_attempt.mpr (Prog.wp_mono h₁.always.wp ?_)
  rintro es₂ (e | index) s₂ h₂
  · exact nofun
  refine Prog.wp_attempt.mpr (Prog.wp_mono h₂.always.wp ?_)
  rintro es₃ (e | _) s₃ h₃
  · exact nofun
  rintro (e | _) s₄ hW
  · exact nofun
  · rw [hW.2]
    exact fun _ ↦ h₃.setStatus _ _

theorem wp_acknowledge {status : Str} (h : HasStatus tid id status s) (notification message : MmsMessage) :
    Prog.wp State.world (acknowledge cfg notification message)
      (fun _ r s' ↦ r = .ok () ∧ HasStatus tid id status s') s := by
  rw [acknowledge]
  split
  · rintro r s' hW
    change s' = s at hW
    rw [hW]
    exact ⟨rfl, h⟩
  · exact ⟨rfl, h⟩

/-- A download that succeeds leaves the message received. -/
theorem wp_download (h : HasKey tid id s) (notification : MmsMessage) :
    Prog.wp State.world (download x cfg notification id)
      (fun _ r s' ↦ r = .ok () → HasStatus tid id "received" s') s := by
  refine Prog.wp_attempt.mpr (Prog.wp_mono h.always.wp ?_)
  rintro es₁ (e | url) s₁ h₁
  · exact nofun
  refine Prog.wp_attempt.mpr (Prog.wp_mono h₁.always.wp ?_)
  rintro es₂ (e | _) s₂ h₂
  · exact nofun
  refine Prog.wp_attempt.mpr (Prog.wp_mono h₂.always.wp ?_)
  rintro es₃ (e | reply) s₃ h₃
  · exact nofun
  cases reply with
  | error e => exact nofun
  | ok resp =>
      refine Prog.wp_attempt.mpr (Prog.wp_mono h₃.always.wp ?_)
      rintro es₄ (e | message) s₄ h₄
      · exact nofun
      refine Prog.wp_attempt.mpr (Prog.wp_mono (wp_storeRetrieved_status h₄ message) ?_)
      rintro es₅ (e | _) s₅ h₅
      · exact nofun
      exact Prog.wp_mono (wp_acknowledge (h₅ rfl) notification message) fun _ _ _ h₆ _ ↦ h₆.2

/-- No row is created, and nothing is retrieved. -/
def Still (es : List (Prog.Event Call Call.Answer)) : Prop :=
  ∀ e ∈ es, createdRow e = none ∧ retrievalOf e = none ∧ fetches e = false

theorem Still.of_works {es : List (Prog.Event Call Call.Answer)} (h : ∀ e ∈ es, Works e.1) : Still es :=
  fun e he ↦ (h e he).event e.2

theorem Still.retrievals {es : List (Prog.Event Call Call.Answer)} (h : Still es) :
    es.filterMap retrievalOf = [] :=
  List.filterMap_eq_nil_iff.mpr fun e he ↦ (h e he).2.1

theorem Still.fetched {es : List (Prog.Event Call Call.Answer)} (h : Still es) : es.any fetches = false :=
  List.any_eq_false.mpr fun e he ↦ (h e he).2.2 ▸ Bool.false_ne_true

/-- The message is retrieved once, well or not, and no row is created. -/
structure Attempted (id : Nat) (ok : Bool) (es : List (Prog.Event Call Call.Answer)) : Prop where
  retrievals : es.filterMap retrievalOf = [id]
  fetched : es.any fetches = ok
  created : ∀ e ∈ es, createdRow e = none

namespace Attempted

variable {ok : Bool} {es es' : List (Prog.Event Call Call.Answer)}

theorem append (h : Attempted id ok es) (hstill : Still es') : Attempted id ok (es ++ es') where
  retrievals := by rw [List.filterMap_append, h.retrievals, hstill.retrievals, List.append_nil]
  fetched := by rw [List.any_append, h.fetched, hstill.fetched, Bool.or_false]
  created := List.forall_mem_append.mpr ⟨h.created, fun e he ↦ (hstill e he).1⟩

theorem prepend (h : Attempted id ok es) (hstill : Still es') : Attempted id ok (es' ++ es) where
  retrievals := by rw [List.filterMap_append, h.retrievals, hstill.retrievals, List.nil_append]
  fetched := by rw [List.any_append, h.fetched, hstill.fetched, Bool.false_or]
  created := List.forall_mem_append.mpr ⟨fun e he ↦ (hstill e he).1, h.created⟩

/-- What is between the marks of a retrieval. -/
theorem of_still (hstill : Still es) (u : (Call.retrieving id).Answer) (v : (Call.retrieved id ok).Answer) :
    Attempted id ok (⟨.retrieving id, u⟩ :: (es ++ [⟨.retrieved id ok, v⟩])) where
  retrievals := by
    have hrest : List.filterMap retrievalOf (es ++ [⟨.retrieved id ok, v⟩]) = [] := by
      rw [List.filterMap_append, hstill.retrievals]
      rfl
    exact congrArg (List.cons id) hrest
  fetched := by
    have hrest : List.any (es ++ [⟨.retrieved id ok, v⟩]) fetches = ok := by
      rw [List.any_append, hstill.fetched]
      exact Bool.or_false ok
    exact hrest
  created := List.forall_mem_cons.mpr ⟨rfl, List.forall_mem_append.mpr
    ⟨fun e he ↦ (hstill e he).1, List.forall_mem_singleton.mpr rfl⟩⟩

end Attempted

theorem wp_retrieve (h : HasKey tid id s) (notification : MmsMessage) :
    Prog.wp State.world (retrieve x cfg notification id)
      (fun es r s' ↦ Attempted id r.isOk es ∧ HasKey tid id s' ∧
        (r = .ok () → HasStatus tid id "received" s')) s := by
  rintro u s₁ rfl
  refine Prog.wp_bind.mpr (Prog.wp_mono
    (Prog.wp_and (works_download notification).wp (Prog.wp_and h.always.wp (wp_download h notification))) ?_)
  rintro es r s₂ ⟨hworks, h₂, hreceived⟩ v s₃ rfl
  exact ⟨.of_still (.of_works hworks) u v, h₂, hreceived⟩

/-- The status of a notification, by whether its message has been fetched. -/
def statusOf (fetched : Bool) : Str := if fetched then "received" else "retrieve_failed"

theorem wp_retrieveRecorded (h : HasKey tid id s) (notification : MmsMessage) :
    Prog.wp State.world (retrieveRecorded x cfg notification id)
      (fun es r s' ↦ (∀ e ∈ es, databaseFails e = false) →
        ∃ result : Except Str Unit, r = .ok result ∧ Attempted id result.isOk es ∧
          HasStatus tid id (statusOf result.isOk) s') s := by
  refine Prog.wp_attempt.mpr (Prog.wp_outcome.mpr (Prog.wp_mono (wp_retrieve h notification) ?_))
  rintro es (e | _) s₁ ⟨hattempted, h₁, hreceived⟩
  · rintro (e' | _) s₂ hW hdb
    · exact absurd (hdb _ (List.mem_append_right _ (List.mem_singleton_self _))) nofun
    · refine ⟨.error e, rfl, hattempted.append (List.forall_mem_singleton.mpr ⟨rfl, rfl, rfl⟩), ?_⟩
      rw [hW.2]
      exact h₁.setStatus _ _
  · intro hdb
    exact ⟨.ok (), rfl, hattempted.append (List.forall_mem_nil _), hreceived rfl⟩

/-! ## An announcement -/

/-- The push carries a notification with the transaction id. -/
def Carries (x : Outside) (tid : Str) (sms : SmsInfo) : Prop :=
  ∃ push notification, x.readPush sms.data = .ok (some (push, notification)) ∧
    notification.transactionId = some tid

/-- A notification is found by its transaction id. -/
theorem HasStatus.find {status : Str} (h : HasStatus tid id status s) :
    s.messages.findByExternalId .mms .incoming tid = some (id, status) := by
  obtain ⟨row, hrow, ⟨hkind, hdirection, hexternal⟩, rfl⟩ := h
  obtain ⟨-, rfl⟩ := Messages.row?_eq_some_iff.mp hrow
  have hfound := Messages.findByExternalId_of_row hrow hexternal
  rwa [hkind, hdirection] at hfound

/-- It is known by it, whatever else it says. -/
theorem HasKey.known (x : Outside) (cfg : Config) (h : HasKey tid id s) (sms : SmsInfo)
    (push : WapPush) {notification : MmsMessage} (htid : notification.transactionId = some tid) :
    s.messages.Known (pushMessage x cfg sms push notification) := by
  obtain ⟨row, hrow, hkind, hdirection, hexternal⟩ := h
  have hid : notificationId notification = some tid := by rw [notificationId, htid, Option.some_or]
  refine ⟨row, (Messages.row?_eq_some_iff.mp hrow).1, .inl ⟨hkind, hdirection, hexternal.trans hid.symm, ?_⟩⟩
  rw [hexternal]
  exact Option.some_ne_none tid

/-- A call that creates no row. -/
def Rowless (c : Call) : Prop := ∀ r, createdRow ⟨c, r⟩ = none

theorem Works.rowless {c : Call} (h : Works c) : Rowless c := fun r ↦ (h.event r).1

theorem rowless_retrieveRecorded (notification : MmsMessage) :
    Prog.Only Rowless (retrieveRecorded x cfg notification id) := by
  have hdownload : Prog.Only Rowless (download x cfg notification id) :=
    (works_download notification).mono fun _ h ↦ h.rowless
  have hretrieve : Prog.Only Rowless (retrieve x cfg notification id) :=
    ⟨fun _ ↦ rfl, fun _ ↦ hdownload.bind fun _ ↦ ⟨fun _ ↦ rfl, fun _ ↦ trivial⟩⟩
  refine Prog.Only.attempt (hretrieve.bind fun _ ↦ trivial) fun result ↦ ?_
  cases result with
  | ok _ => trivial
  | error e => exact Prog.Only.attempt (Prog.Only.ask fun _ ↦ rfl) fun _ ↦ trivial

theorem rowless_retryDuplicate (notification : MmsMessage) :
    Prog.Only Rowless (retryDuplicate x cfg notification) := by
  refine Prog.Only.attempt ?_ fun existing ↦ ?_
  · rw [retriableDuplicate.eq_def]
    split
    · cases notificationId notification with
      | none => trivial
      | some externalId =>
          refine Prog.Only.attempt (Prog.Only.bind (Prog.Only.ask fun _ ↦ rfl) fun _ ↦ trivial) fun found ↦ ?_
          split
          · trivial
          · trivial
    · trivial
  · cases existing with
    | none => trivial
    | some id => exact (rowless_retrieveRecorded notification).attempt fun _ ↦ trivial

theorem rowless_acceptNotification (notification : MmsMessage) :
    Prog.Only Rowless (acceptNotification x cfg notification id) := by
  unfold acceptNotification
  split
  · exact Prog.Only.attempt (Prog.Only.ask fun _ ↦ rfl) fun _ ↦ trivial
  split
  · refine Prog.Only.attempt ?_ fun _ ↦ trivial
    unfold notifyResp
    split
    · exact ⟨fun _ ↦ rfl, fun _ ↦ trivial⟩
    · trivial
  · exact (rowless_retrieveRecorded notification).attempt fun _ ↦ trivial

section Announcement

variable (henabled : cfg.mmsEnabled = true) (hauto : cfg.autoRetrieve = true)
include henabled hauto

theorem acceptNotification_eq (notification : MmsMessage) :
    acceptNotification x cfg notification id =
      (retrieveRecorded x cfg notification id >>= fun _ ↦ pure (some id)) := by
  rw [acceptNotification, henabled, hauto]
  rfl

/-- The first announcement, if it is stored. -/
theorem wp_handlePush_first {sms : SmsInfo} (htid : Carries x tid sms) :
    Prog.wp State.world (handlePush x cfg sms)
      (fun es r s' ↦ (∀ e ∈ es, databaseFails e = false) → ∀ id ∈ es.filterMap createdRow,
        r = .ok (some id) ∧ es.filterMap retrievalOf = [id] ∧
          HasStatus tid id (statusOf (es.any fetches)) s') s := by
  obtain ⟨push, notification, hread, htid⟩ := htid
  have hid : notificationId notification = some tid := by rw [notificationId, htid, Option.some_or]
  rw [handlePush, hread]
  refine Prog.wp_attempt_call.mpr ?_
  rintro (e | _ | id) s₁ hW
  · exact fun hdb ↦ absurd (hdb _ (List.mem_singleton_self _)) nofun
  · refine Prog.wp_mono (rowless_retryDuplicate notification).wp fun es r s' hrowless _ id hmem ↦ ?_
    obtain ⟨e, he, hcreated⟩ := List.mem_filterMap.mp hmem
    rcases List.mem_cons.mp he with rfl | he
    · cases hcreated
    · rw [hrowless e he e.2] at hcreated
      cases hcreated
  · have hkey : HasKey tid id s₁ := by
      rw [hW.2]
      exact ⟨_, Messages.row?_insertMessage hW.1.symm, rfl, rfl, hid⟩
    dsimp only
    rw [acceptNotification_eq henabled hauto]
    refine Prog.wp_attempt.mpr (Prog.wp_mono (wp_retrieveRecorded hkey notification) ?_)
    rintro es r s₂ hrecorded
    cases r with
    | error e =>
        intro hdb
        obtain ⟨result, hr, -⟩ := hrecorded (List.forall_mem_cons.mp hdb).2
        cases hr
    | ok result =>
        intro hdb id' hid'
        rw [List.append_nil] at hdb hid' ⊢
        obtain ⟨result', -, hattempted, hstatus⟩ := hrecorded (List.forall_mem_cons.mp hdb).2
        have hnone : es.filterMap createdRow = [] := List.filterMap_eq_nil_iff.mpr hattempted.created
        obtain rfl : id' = id := by
          change id' ∈ id :: es.filterMap createdRow at hid'
          rw [hnone] at hid'
          exact List.mem_singleton.mp hid'
        refine ⟨rfl, hattempted.retrievals, ?_⟩
        change HasStatus tid id' (statusOf (es.any fetches)) s₂
        rwa [hattempted.fetched]

/-- A notification is retried if its message has not been fetched. -/
theorem wp_retriableDuplicate {fetched : Bool} (hrow : HasStatus tid id (statusOf fetched) s) :
    Prog.wp State.world (retriableDuplicate cfg (some tid))
      (fun es r s' ↦ s' = s ∧ Still es ∧ (r = .ok (if fetched then none else some id) ∨
        r = .ok none ∧ ∃ e ∈ es, databaseFails e = true)) s := by
  rw [retriableDuplicate.eq_def, henabled, hauto]
  refine Prog.wp_attempt.mpr (Prog.wp_outcome.mpr ?_)
  rintro (e | found) s₁ hW
  · exact ⟨hW, List.forall_mem_singleton.mpr ⟨rfl, rfl, rfl⟩, .inr ⟨rfl, _, List.mem_singleton_self _, rfl⟩⟩
  · obtain ⟨rfl, rfl⟩ := hW
    rw [hrow.find]
    cases fetched with
    | false => exact ⟨rfl, List.forall_mem_singleton.mpr ⟨rfl, rfl, rfl⟩, .inl rfl⟩
    | true => exact ⟨rfl, List.forall_mem_singleton.mpr ⟨rfl, rfl, rfl⟩, .inl rfl⟩

/-- A known notification is retrieved if its message has not been fetched. -/
theorem wp_retryDuplicate {notification : MmsMessage} (hid : notificationId notification = some tid)
    {fetched : Bool} (hrow : HasStatus tid id (statusOf fetched) s) :
    Prog.wp State.world (retryDuplicate x cfg notification)
      (fun es r s' ↦ (∀ e ∈ es, databaseFails e = false) →
        r = .ok (if es.any fetches then some id else none) ∧
          es.filterMap retrievalOf = (if fetched then [] else [id]) ∧
            HasStatus tid id (statusOf (fetched || es.any fetches)) s') s := by
  rw [retryDuplicate, hid]
  refine Prog.wp_attempt.mpr (Prog.wp_mono (wp_retriableDuplicate henabled hauto hrow) ?_)
  rintro es r s₁ ⟨rfl, hstill, rfl | ⟨rfl, e, he, hfails⟩⟩
  · cases fetched with
    | true =>
        intro _
        rw [List.append_nil, hstill.fetched, hstill.retrievals]
        exact ⟨rfl, rfl, hrow⟩
    | false =>
        refine Prog.wp_attempt.mpr (Prog.wp_mono (wp_retrieveRecorded hrow.hasKey notification) ?_)
        rintro es' (e | result) s₂ hrecorded hdb
        · obtain ⟨result', hr, -⟩ := hrecorded (List.forall_mem_append.mp hdb).2
          cases hr
        · rw [List.append_nil] at hdb ⊢
          obtain ⟨result', hr, hattempted, hstatus⟩ := hrecorded (List.forall_mem_append.mp hdb).2
          cases hr
          have hall := hattempted.prepend hstill
          rw [hall.fetched, hall.retrievals]
          exact ⟨rfl, rfl, hstatus⟩
  · intro hdb
    rw [List.append_nil] at hdb
    exact absurd hfails (Bool.not_eq_true _ ▸ hdb e he)

/-- Another announcement of a notification. -/
theorem wp_handlePush_again {sms : SmsInfo} (htid : Carries x tid sms) {fetched : Bool}
    (hrow : HasStatus tid id (statusOf fetched) s) :
    Prog.wp State.world (handlePush x cfg sms)
      (fun es r s' ↦ (∀ e ∈ es, databaseFails e = false) →
        r = .ok (if es.any fetches then some id else none) ∧
          es.filterMap retrievalOf = (if fetched then [] else [id]) ∧
            HasStatus tid id (statusOf (fetched || es.any fetches)) s') s := by
  obtain ⟨push, notification, hread, htid⟩ := htid
  have hid : notificationId notification = some tid := by rw [notificationId, htid, Option.some_or]
  have hinsert := Messages.insertMessage_of_known
    (hrow.hasKey.known x cfg sms push htid)
  rw [handlePush, hread]
  refine Prog.wp_attempt_call.mpr ?_
  rintro (e | stored) s₁ hW
  · exact fun hdb ↦ absurd (hdb _ (List.mem_singleton_self _)) nofun
  obtain ⟨rfl, rfl⟩ := hW
  rw [hinsert]
  change Prog.wp State.world (retryDuplicate x cfg notification) _ s
  refine Prog.wp_mono (wp_retryDuplicate henabled hauto hid hrow) fun es r s' hretried hdb ↦ ?_
  exact hretried (List.forall_mem_cons.mp hdb).2

/-! ## All of them -/

/-- One of the runs has fetched the message. -/
def fetchedIn (runs : List (SmsInfo × List (Prog.Event Call Call.Answer) × Except Str (Option Nat))) : Bool :=
  runs.any fun run ↦ run.2.1.any fetches

/-- The announcements of a notification that is stored. -/
theorem announced_again {runs : List (SmsInfo × List (Prog.Event Call Call.Answer) × Except Str (Option Nat))}
    (h : Prog.Series State.world (handlePush x cfg) s runs s') (htid : ∀ run ∈ runs, Carries x tid run.1)
    (hdb : ∀ run ∈ runs, ∀ e ∈ run.2.1, databaseFails e = false) {fetched : Bool}
    (hrow : HasStatus tid id (statusOf fetched) s) :
    HasStatus tid id (statusOf (fetched || fetchedIn runs)) s' ∧
      ∀ before run after, runs = before ++ run :: after →
        run.2.2 = .ok (if run.2.1.any fetches then some id else none) ∧
          run.2.1.filterMap retrievalOf = (if fetched || fetchedIn before then [] else [id]) := by
  induction h generalizing fetched with
  | nil s =>
      refine ⟨?_, fun before run after heq ↦ ?_⟩
      · rwa [fetchedIn, List.any_nil, Bool.or_false]
      · exact absurd heq.symm (List.append_ne_nil_of_right_ne_nil _ (List.cons_ne_nil _ _))
  | @cons s s₁ s₂ sms es r runs hrun _ ih =>
      obtain ⟨hsms, htid⟩ := List.forall_mem_cons.mp htid
      obtain ⟨hes, hdb⟩ := List.forall_mem_cons.mp hdb
      obtain ⟨hr, hretrievals, hrow₁⟩ :=
        Prog.wp_iff.mp (wp_handlePush_again henabled hauto hsms hrow) es r s₁ hrun hes
      obtain ⟨hrow₂, hall⟩ := ih htid hdb hrow₁
      refine ⟨?_, fun before run after heq ↦ ?_⟩
      · rwa [fetchedIn, List.any_cons, ← Bool.or_assoc]
      · cases before with
        | nil =>
            cases heq
            rw [fetchedIn, List.any_nil, Bool.or_false]
            exact ⟨hr, hretrievals⟩
        | cons first before =>
            cases heq
            obtain ⟨hr', hretrievals'⟩ := hall before run after rfl
            refine ⟨hr', ?_⟩
            rw [fetchedIn, List.any_cons, ← Bool.or_assoc]
            exact hretrievals'

/-- A notification is retried until its message has been fetched, and never after: of the announcements
that follow the one that was stored, those up to the first that fetches the message make one attempt
each and the others none; there is one row, and its status says whether the message has been fetched;
the first announcement and the one that fetches it give the id. -/
theorem retried_until_fetched
    {first : SmsInfo × List (Prog.Event Call Call.Answer) × Except Str (Option Nat)}
    {rest : List (SmsInfo × List (Prog.Event Call Call.Answer) × Except Str (Option Nat))}
    (h : Prog.Series State.world (handlePush x cfg) s (first :: rest) s')
    (htid : ∀ run ∈ first :: rest, Carries x tid run.1)
    (hdb : ∀ run ∈ first :: rest, ∀ e ∈ run.2.1, databaseFails e = false)
    (hfirst : id ∈ first.2.1.filterMap createdRow) :
    (∀ before run after, first :: rest = before ++ run :: after →
      run.2.1.filterMap retrievalOf = (if fetchedIn before then [] else [id]) ∧
        run.2.2 = .ok (if before.isEmpty || run.2.1.any fetches then some id else none)) ∧
    (s'.messages.rows.filter (IsFor tid ·)).map (fun r ↦ (r.id, r.status)) =
      [(id, statusOf (fetchedIn (first :: rest)))] := by
  obtain ⟨hsms, hrests⟩ := List.forall_mem_cons.mp htid
  obtain ⟨hes, hdbs⟩ := List.forall_mem_cons.mp hdb
  cases h with
  | cons hrun hrest =>
      obtain ⟨hr, hretrievals, hrow⟩ :=
        Prog.wp_iff.mp (wp_handlePush_first henabled hauto hsms) _ _ _ hrun hes id hfirst
      obtain ⟨hrow', hall⟩ := announced_again henabled hauto hrest hrests hdbs hrow
      refine ⟨fun before run after heq ↦ ?_, hrow'.rows⟩
      cases before with
      | nil =>
          cases heq
          exact ⟨hretrievals, hr⟩
      | cons first' before =>
          cases heq
          obtain ⟨hr', hretrievals'⟩ := hall before run after rfl
          exact ⟨hretrievals', hr'⟩

end Announcement

namespace Sample

/-- The location of a message, under the transaction id T1. -/
def notificationPdu : List UInt8 := [0x8C, 0x82, 0x98, 0x54, 0x31, 0, 0x8D, 0x92, 0x83, 0x75, 0]

def notification : MmsMessage where
  messageType := notificationInd
  transactionId := some "T1"
  version := some 0x92
  contentLocation := some "u"

def push : WapPush := ⟨"application/vnd.wap.mms-message", notificationPdu⟩

def pushSms : SmsInfo where
  state := 3
  pduType := 1
  number := "+821012345678"
  text := []
  data := [1, 6, 1, 0xBE] ++ notificationPdu
  timestamp := none

theorem readPush_pushSms : outside.readPush pushSms.data = .ok (some (push, notification)) := rfl

def pushRow : NewMessage := pushMessage outside config pushSms push notification

/-- The store once the message could not be retrieved. -/
def owed : State :=
  { State.empty with
    messages := (Messages.empty.insertMessage pushRow).2.setStatus 1 "retrieve_failed"
      (some "fetching the MMS body") }

/-- The store once it has been. -/
def fetched : State :=
  { owed with messages := (owed.messages.updateReceivedMms 1 none none none).setStatus 1 "received" none }

/-- The first announcement: the MMSC cannot be reached. -/
def unreachable : List (Prog.Event Call Call.Answer) :=
  [⟨.insertMessage pushRow, (.ok (some 1) : Except Str (Option Nat))⟩,
    ⟨.retrieving 1, ()⟩,
    ⟨.httpGet "u", (.error "timeout" : Except Str HttpResponse)⟩,
    ⟨.retrieved 1 false, ()⟩,
    ⟨.setStatus 1 "retrieve_failed" (some "fetching the MMS body"), (.ok () : Except Str Unit)⟩]

/-- An M-Retrieve.conf without content. -/
def emptyConf : HttpResponse := ⟨200, none, [0x8C, 0x84, 0x8D, 0x92]⟩

/-- The second one: the message is there, and has no parts. -/
def reached : List (Prog.Event Call Call.Answer) :=
  [⟨.insertMessage pushRow, (.ok none : Except Str (Option Nat))⟩,
    ⟨.findByExternalId .mms .incoming "T1",
      (.ok (some (1, "retrieve_failed")) : Except Str (Option (Nat × Str)))⟩,
    ⟨.retrieving 1, ()⟩,
    ⟨.httpGet "u", (.ok emptyConf : Except Str HttpResponse)⟩,
    ⟨.updateReceivedMms 1 none none none, (.ok () : Except Str Unit)⟩,
    ⟨.deleteAttachments 1 0, (.ok [] : Except Str (List Str))⟩,
    ⟨.setStatus 1 "received" none, (.ok () : Except Str Unit)⟩,
    ⟨.httpPost "http://mmsc" (encodeAcknowledgeInd "T1" false), (.error "refused" : Except Str HttpResponse)⟩,
    ⟨.retrieved 1 true, ()⟩]

theorem runs_unreachable :
    Prog.Runs State.world .empty (handlePush outside config pushSms) unreachable owed
      (.done (.ok (some 1))) := by
  have hrow : (Messages.empty.insertMessage pushRow).1 = some 1 := by decide
  have hinsert : State.world .empty (.insertMessage pushRow) (.ok (some 1) : Except Str (Option Nat))
      { State.empty with messages := (Messages.empty.insertMessage pushRow).2 } := ⟨hrow.symm, rfl⟩
  have hstatus : State.world { State.empty with messages := (Messages.empty.insertMessage pushRow).2 }
      (.setStatus 1 "retrieve_failed" (some "fetching the MMS body")) (.ok () : Except Str Unit) owed :=
    ⟨rfl, rfl⟩
  rw [handlePush, readPush_pushSms]
  exact .call hinsert (.call rfl (.call rfl (.call rfl (.call hstatus (.refl _ _)))))

theorem runs_reached :
    Prog.Runs State.world owed (handlePush outside config pushSms) reached fetched
      (.done (.ok (some 1))) := by
  have hknown : owed.messages.Known pushRow := by decide
  have hfind : State.world owed (.findByExternalId .mms .incoming "T1")
      (.ok (some (1, "retrieve_failed")) : Except Str (Option (Nat × Str))) owed := ⟨by decide, rfl⟩
  rw [handlePush, readPush_pushSms]
  refine .call (State.world_insertMessage_known hknown) (.call hfind (.call rfl (.call rfl ?_)))
  exact .call ⟨rfl, rfl⟩ (.call ⟨rfl, rfl⟩ (.call ⟨rfl, rfl⟩ (.call rfl (.call rfl (.refl _ _)))))

/-- The notification is announced, and once more. -/
def announcedTwice : List (SmsInfo × List (Prog.Event Call Call.Answer) × Except Str (Option Nat)) :=
  [(pushSms, unreachable, .ok (some 1)), (pushSms, reached, .ok (some 1))]

theorem series_announcedTwice :
    Prog.Series State.world (handlePush outside config) .empty announcedTwice fetched :=
  .cons runs_unreachable (.cons runs_reached (.nil _))

end Sample

theorem retried_until_fetched_second :
    (∀ before run after, Sample.announcedTwice = before ++ run :: after →
      run.2.1.filterMap retrievalOf = (if fetchedIn before then [] else [1]) ∧
        run.2.2 = .ok (if before.isEmpty || run.2.1.any fetches then some 1 else none)) ∧
    (Sample.fetched.messages.rows.filter (IsFor "T1" ·)).map (fun r ↦ (r.id, r.status)) =
      [(1, statusOf (fetchedIn Sample.announcedTwice))] := by
  refine retried_until_fetched rfl rfl Sample.series_announcedTwice ?_ ?_ (List.mem_singleton_self 1)
  · have hcarries : Carries Sample.outside "T1" Sample.pushSms := ⟨_, _, Sample.readPush_pushSms, rfl⟩
    exact List.forall_mem_cons.mpr ⟨hcarries, List.forall_mem_singleton.mpr hcarries⟩
  · refine List.forall_mem_cons.mpr ⟨?_, List.forall_mem_singleton.mpr ?_⟩
    · simp only [Sample.unreachable, List.forall_mem_cons]
      exact ⟨rfl, rfl, rfl, rfl, rfl, List.forall_mem_nil _⟩
    · simp only [Sample.reached, List.forall_mem_cons]
      exact ⟨rfl, rfl, rfl, rfl, rfl, rfl, rfl, rfl, rfl, List.forall_mem_nil _⟩

end Modem2Sip.Messages
