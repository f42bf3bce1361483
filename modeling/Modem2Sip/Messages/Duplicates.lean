import Modem2Sip.Lib.Run
import Modem2Sip.Lib.Threads
import Modem2Sip.Messages.Notifications

/-!
# Messages that are taken for duplicates

`insert_message` looks for a message that is announced again by its external id, and for an incoming
one by sender, time and text as well.  What has been said of a message by then is in the table only as
far as its row has it, so a history of the table is kept here along with whose rows it has.
-/

namespace Modem2Sip.Messages

open Text Store Mms Run

/-! ## Incoming messages -/

/-- A message as `handle_text_sms` and `handle_push` hand it to the database. -/
inductive Incoming where
  | text (sms : Sms)
  | push (sms : SmsInfo) (wap : WapPush) (notification : MmsMessage)

/-- What two messages can differ in: sender, time, text, binary data and transaction id. -/
structure Identity where
  sender : Str
  timestamp : Option Str
  date : Option Nat
  text : Option Str
  data : List UInt8
  transactionId : Option Str
deriving DecidableEq

variable (x : Outside) (md5Hex : List UInt8 → Str) (cfg : Config)

namespace Incoming

def row : Incoming → NewMessage
  | text sms => textMessage md5Hex cfg sms
  | push sms wap notification => pushMessage x cfg sms wap notification

def identity : Incoming → Identity
  | text sms => ⟨sms.info.number, sms.info.timestamp, none, some sms.info.text, sms.info.data, none⟩
  | push sms wap notification =>
    ⟨notification.sender.getD sms.number, none, notification.date, none, wap.body,
      notification.transactionId⟩

theorem direction_row (m : Incoming) : (m.row x md5Hex cfg).direction = .incoming := by
  cases m with
  | text => rfl
  | push => rfl

end Incoming

/-! ## Histories -/

/-- The table, the messages that were announced, and which of them a row was made for. -/
structure History where
  table : Messages
  announced : List Identity
  made : List (Nat × Identity)

/-- What happens to the table: an incoming message, one of ours, or an update of any row.  What fails
does nothing. -/
inductive Operation where
  | incoming (m : Incoming)
  | outgoing (msg : NewMessage) (h : msg.direction = .outgoing)
  | setStatus (id : Nat) (status : Str) (error : Option Str)
  | updateReceivedMms (id : Nat) (subject text timestamp : Option Str)

namespace History

/-- The row was made for the message, and it is there. -/
def IsRowOf (h : History) (id : Nat) (i : Identity) : Prop :=
  (id, i) ∈ h.made ∧ (h.table.row? id).isSome = true

/-- The message has a row of its own. -/
def HasRow (h : History) (i : Identity) : Prop := ∃ id, h.IsRowOf id i

/-- Any two different messages that were announced have rows of their own. -/
def OwnRows (h : History) : Prop :=
  ∀ i ∈ h.announced, ∀ j ∈ h.announced, i ≠ j → ∃ k l, k ≠ l ∧ h.IsRowOf k i ∧ h.IsRowOf l j

def start : History := ⟨.empty, [], []⟩

def step (h : History) : Operation → History
  | .incoming m =>
    let (id, table) := h.table.insertMessage (m.row x md5Hex cfg)
    { table := table
      announced := h.announced ++ [m.identity]
      made := h.made ++ (id.map (·, m.identity)).toList }
  | .outgoing msg _ => { h with table := (h.table.insertMessage msg).2 }
  | .setStatus id status error => { h with table := h.table.setStatus id status error }
  | .updateReceivedMms id subject text timestamp =>
    { h with table := h.table.updateReceivedMms id subject text timestamp }

/-- A message without a row of its own agrees with no row in its external id, nor, if it has a time,
in sender, time and text. -/
def Unconfused (h : History) : Operation → Prop
  | .incoming m => h.HasRow m.identity ∨ ∀ r ∈ h.table.rows,
      ¬ SameExternal r.toNewMessage (m.row x md5Hex cfg) ∧
        ¬ SameContent r.toNewMessage (m.row x md5Hex cfg)
  | _ => True

/-- The rows of a history: each was made for one message, and the incoming ones for one that was
announced. -/
structure WellFormed (h : History) : Prop where
  isRow : ∀ e ∈ h.made, (h.table.row? e.1).isSome = true
  nodup : (h.made.map Prod.fst).Nodup
  owned : ∀ r ∈ h.table.rows, r.direction = .incoming → ∃ i, (r.id, i) ∈ h.made
  made_announced : ∀ e ∈ h.made, e.2 ∈ h.announced
  made_ne_nil : h.announced ≠ [] → h.made ≠ []

variable {x md5Hex cfg} {h : History}

/-- An incoming row agrees with incoming messages only. -/
theorem direction_of_agrees {r : MessageRow} {m : Incoming}
    (hagrees : SameExternal r.toNewMessage (m.row x md5Hex cfg) ∨
      SameContent r.toNewMessage (m.row x md5Hex cfg)) : r.direction = .incoming := by
  have hdirection : r.direction = (m.row x md5Hex cfg).direction := by
    rcases hagrees with hsame | hsame
    · exact hsame.2.1
    · exact hsame.2.2.2.2.1
  exact hdirection.trans (m.direction_row x md5Hex cfg)

theorem step_incoming_of_known {m : Incoming} (hknown : h.table.Known (m.row x md5Hex cfg)) :
    h.step x md5Hex cfg (.incoming m) = { h with announced := h.announced ++ [m.identity] } := by
  rw [step, Messages.insertMessage_of_known hknown]
  exact congrArg (History.mk _ _) (List.append_nil _)

theorem step_incoming_of_new {m : Incoming} (hnew : ¬ h.table.Known (m.row x md5Hex cfg)) :
    h.step x md5Hex cfg (.incoming m) =
      { table := h.table.append (m.row x md5Hex cfg) hnew
        announced := h.announced ++ [m.identity]
        made := h.made ++ [(h.table.lastId + 1, m.identity)] } := by
  rw [step, Messages.insertMessage_of_not_known hnew]
  rfl

/-! ## What an operation does -/

theorem WellFormed.lt (hwell : h.WellFormed) {e : Nat × Identity} (he : e ∈ h.made) :
    e.1 ≤ h.table.lastId := by
  obtain ⟨r, hr⟩ := Option.isSome_iff_exists.mp (hwell.isRow e he)
  obtain ⟨hmem, hid⟩ := Messages.row?_eq_some_iff.mp hr
  exact hid ▸ h.table.id_le r hmem

/-- Another table, whose rows are those that were there, and rows of ours. -/
theorem WellFormed.withTable (hwell : h.WellFormed) {table : Messages}
    (hkeep : ∀ k, (h.table.row? k).isSome = true → (table.row? k).isSome = true)
    (hrows : ∀ r ∈ table.rows, r.direction = .incoming →
      ∃ r' ∈ h.table.rows, r'.id = r.id ∧ r'.direction = .incoming) :
    WellFormed { h with table := table } where
  isRow e he := hkeep e.1 (hwell.isRow e he)
  nodup := hwell.nodup
  owned r hr hincoming := by
    obtain ⟨r', hr', hid, hincoming'⟩ := hrows r hr hincoming
    exact hid ▸ hwell.owned r' hr' hincoming'
  made_announced := hwell.made_announced
  made_ne_nil := hwell.made_ne_nil

/-- An update leaves all rows in their places. -/
theorem isSome_row?_update {t : Messages} {k id : Nat} {f : MessageRow → MessageRow}
    (hk : (t.row? k).isSome = true)
    (hf : ∀ r, (f r).id = r.id ∧ (f r).kind = r.kind ∧ (f r).direction = r.direction ∧
      (f r).externalId = r.externalId) : ((t.update id f hf).row? k).isSome = true := by
  rw [Messages.row?_update]
  split
  · rwa [Option.isSome_map]
  · exact hk

theorem WellFormed.update (hwell : h.WellFormed) (id : Nat) (f : MessageRow → MessageRow)
    (hf : ∀ r, (f r).id = r.id ∧ (f r).kind = r.kind ∧ (f r).direction = r.direction ∧
      (f r).externalId = r.externalId) :
    WellFormed { h with table := h.table.update id f hf } := by
  refine hwell.withTable (fun k hk ↦ isSome_row?_update hk hf) fun r hr hincoming ↦ ?_
  obtain ⟨r', hr', rfl⟩ := List.mem_map.mp hr
  refine ⟨r', hr', ?_⟩
  split at hincoming
  · rename_i hid
    rw [if_pos hid]
    exact ⟨(hf r').1.symm, (hf r').2.2.1.symm.trans hincoming⟩
  · rename_i hid
    rw [if_neg hid]
    exact ⟨rfl, hincoming⟩

theorem isSome_row?_insertMessage {t : Messages} {k : Nat} (hk : (t.row? k).isSome = true)
    (msg : NewMessage) : ((t.insertMessage msg).2.row? k).isSome = true := by
  obtain ⟨r, hr⟩ := Option.isSome_iff_exists.mp hk
  rw [Messages.row?_insertMessage_of_row hr]
  rfl

theorem WellFormed.outgoing (hwell : h.WellFormed) {msg : NewMessage}
    (hout : msg.direction = .outgoing) :
    WellFormed { h with table := (h.table.insertMessage msg).2 } := by
  refine hwell.withTable (fun k hk ↦ isSome_row?_insertMessage hk msg) fun r hr hincoming ↦ ?_
  by_cases hknown : h.table.Known msg
  · rw [Messages.insertMessage_of_known hknown] at hr
    exact ⟨r, hr, rfl, hincoming⟩
  · rw [Messages.insertMessage_of_not_known hknown] at hr
    rcases List.mem_append.mp hr with hr | hr
    · exact ⟨r, hr, rfl, hincoming⟩
    · rw [List.mem_singleton.mp hr] at hincoming
      rw [hout] at hincoming
      cases hincoming

theorem WellFormed.known (hwell : h.WellFormed) {m : Incoming}
    (hknown : h.table.Known (m.row x md5Hex cfg)) :
    WellFormed { h with announced := h.announced ++ [m.identity] } where
  isRow := hwell.isRow
  nodup := hwell.nodup
  owned := hwell.owned
  made_announced e he := List.mem_append_left _ (hwell.made_announced e he)
  made_ne_nil _ := by
    obtain ⟨r, hr, hagrees⟩ := hknown
    obtain ⟨i, hi⟩ := hwell.owned r hr (direction_of_agrees hagrees)
    exact List.ne_nil_of_mem hi

theorem WellFormed.new (hwell : h.WellFormed) {m : Incoming}
    (hnew : ¬ h.table.Known (m.row x md5Hex cfg)) :
    WellFormed {
      table := h.table.append (m.row x md5Hex cfg) hnew
      announced := h.announced ++ [m.identity]
      made := h.made ++ [(h.table.lastId + 1, m.identity)] } where
  isRow e he := by
    rw [Messages.row?_append]
    split
    · rfl
    · rename_i hne
      rcases List.mem_append.mp he with he | he
      · exact hwell.isRow e he
      · exact absurd (congrArg Prod.fst (List.mem_singleton.mp he)) hne
  nodup := by
    rw [List.map_append, List.map_singleton, List.nodup_append]
    refine ⟨hwell.nodup, List.nodup_singleton _, ?_⟩
    rintro id hid _ hlast rfl
    obtain ⟨e, he, rfl⟩ := List.mem_map.mp hid
    have hle := hwell.lt he
    rw [List.mem_singleton.mp hlast] at hle
    exact Nat.not_succ_le_self _ hle
  owned r hr hincoming := by
    rcases List.mem_append.mp hr with hr | hr
    · obtain ⟨i, hi⟩ := hwell.owned r hr hincoming
      exact ⟨i, List.mem_append_left _ hi⟩
    · rw [List.mem_singleton.mp hr]
      exact ⟨m.identity, List.mem_append_right _ (List.mem_singleton_self _)⟩
  made_announced e he := by
    rcases List.mem_append.mp he with he | he
    · exact List.mem_append_left _ (hwell.made_announced e he)
    · rw [List.mem_singleton.mp he]
      exact List.mem_append_right _ (List.mem_singleton_self _)
  made_ne_nil _ := List.append_ne_nil_of_right_ne_nil _ (List.cons_ne_nil _ _)

theorem WellFormed.step (hwell : h.WellFormed) (op : Operation) :
    (h.step x md5Hex cfg op).WellFormed := by
  cases op with
  | incoming m =>
      by_cases hknown : h.table.Known (m.row x md5Hex cfg)
      · rw [step_incoming_of_known hknown]
        exact hwell.known hknown
      · rw [step_incoming_of_new hknown]
        exact hwell.new hknown
  | outgoing msg hout => exact hwell.outgoing hout
  | setStatus id status error => exact hwell.update id _ _
  | updateReceivedMms id subject text timestamp => exact hwell.update id _ _

/-- A row stays that of its message. -/
theorem HasRow.step {i : Identity} (hi : h.HasRow i) (op : Operation) :
    (h.step x md5Hex cfg op).HasRow i := by
  obtain ⟨id, hmade, hrow⟩ := hi
  cases op with
  | incoming m => exact ⟨id, List.mem_append_left _ hmade, isSome_row?_insertMessage hrow _⟩
  | outgoing msg hout => exact ⟨id, hmade, isSome_row?_insertMessage hrow msg⟩
  | setStatus k status error =>
      refine ⟨id, hmade, isSome_row?_update hrow ?_⟩
      exact fun _ ↦ ⟨rfl, rfl, rfl, rfl⟩
  | updateReceivedMms k subject text timestamp =>
      refine ⟨id, hmade, isSome_row?_update hrow ?_⟩
      exact fun _ ↦ ⟨rfl, rfl, rfl, rfl⟩

/-! ## The handlers -/

/-- What the handlers ask of the table: a message of their own is of ours, or an incoming one. -/
def Hands (x : Outside) (md5Hex : List UInt8 → Str) (cfg : Config) (c : Call) : Prop :=
  ∀ msg, c = .insertMessage msg → msg.direction = .outgoing ∨ ∃ m : Incoming, msg = m.row x md5Hex cfg

theorem hands_of_rowless {c : Call} (hc : Rowless c) : Hands x md5Hex cfg c := by
  rintro msg rfl
  have hcreated : createdRow ⟨.insertMessage msg, (.ok (some 0) : Except Str (Option Nat))⟩ = none := hc _
  cases hcreated

theorem rowless_startTasks (sms : Sms) (stored : Option Nat) :
    Prog.Only Rowless (startTasks cfg sms stored) := by
  rw [startTasks]
  cases stored.isSome && cfg.notifySip with
  | false =>
      cases cfg.deleteFromModem with
      | false => trivial
      | true => exact ⟨fun _ ↦ rfl, fun _ ↦ trivial⟩
  | true =>
      cases cfg.deleteFromModem with
      | false => exact ⟨fun _ ↦ rfl, fun _ ↦ trivial⟩
      | true => exact ⟨fun _ ↦ rfl, fun _ ↦ ⟨fun _ ↦ rfl, fun _ ↦ trivial⟩⟩

theorem hands_handleTextSms (sms : Sms) :
    Prog.Only (Hands x md5Hex cfg) (handleTextSms md5Hex cfg sms) := by
  refine Prog.Only.attempt (Prog.Only.ask ?_) fun stored ↦ ?_
  · rintro msg ⟨⟩
    exact .inr ⟨.text sms, rfl⟩
  · exact (rowless_startTasks sms stored).mono fun c ↦ hands_of_rowless

theorem hands_handlePush (sms : SmsInfo) :
    Prog.Only (Hands x md5Hex cfg) (handlePush x cfg sms) := by
  refine Prog.Only.attempt trivial fun pushed ↦ ?_
  cases pushed with
  | none => trivial
  | some pushed =>
      obtain ⟨push, notification⟩ := pushed
      refine Prog.Only.attempt (Prog.Only.ask ?_) fun stored ↦ ?_
      · rintro msg ⟨⟩
        exact .inr ⟨.push sms push notification, rfl⟩
      · cases stored with
        | none => exact (rowless_retryDuplicate notification).mono fun _ h ↦ hands_of_rowless h
        | some id => exact (rowless_acceptNotification notification).mono fun _ h ↦ hands_of_rowless h

/-- A call of a handler is an operation on the table, or nothing to it. -/
theorem world_history {c : Call} {r : c.Answer} {s s' : State} {ops : List Operation}
    (hc : Hands x md5Hex cfg c) (hW : State.world s c r s')
    (hs : (run (step x md5Hex cfg) start ops).table = s.messages) :
    ∃ ops', (run (step x md5Hex cfg) start ops').table = s'.messages := by
  have hop (op : Operation) (h : ((run (step x md5Hex cfg) start ops).step x md5Hex cfg op).table =
      s'.messages) : ∃ ops', (run (step x md5Hex cfg) start ops').table = s'.messages :=
    ⟨ops ++ [op], by rw [run_append]; exact h⟩
  have hnone (h : s'.messages = s.messages) :
      ∃ ops', (run (step x md5Hex cfg) start ops').table = s'.messages := ⟨ops, hs.trans h.symm⟩
  cases hwrites : State.writesMessages c with
  | false => exact hnone (State.world_messages hwrites hW)
  | true =>
      cases c with
      | insertMessage msg =>
          cases r with
          | error e => exact hnone (congrArg State.messages hW)
          | ok stored =>
              rcases hc msg rfl with hout | ⟨m, rfl⟩
              · refine hop (.outgoing msg hout) ?_
                rw [step, hs, hW.2]
              · refine hop (.incoming m) ?_
                rw [step, hs, hW.2]
      | setStatus id status error =>
          cases r with
          | error e => exact hnone (congrArg State.messages hW)
          | ok u =>
              refine hop (.setStatus id status error) ?_
              rw [step, hs, hW.2]
      | updateReceivedMms id subject text timestamp =>
          cases r with
          | error e => exact hnone (congrArg State.messages hW)
          | ok u =>
              refine hop (.updateReceivedMms id subject text timestamp) ?_
              rw [step, hs, hW.2]
      | _ => cases hwrites

/-- A text or a push comes in. -/
inductive Source where
  | text (sms : Sms)
  | push (sms : SmsInfo)

def Source.program (x : Outside) (md5Hex : List UInt8 → Str) (cfg : Config) : Source → Act Unit
  | text sms => Prog.bind (handleTextSms md5Hex cfg sms) fun _ ↦ .done ()
  | push sms => Prog.bind (handlePush x cfg sms) fun _ ↦ .done ()

theorem hands_program (source : Source) :
    Prog.Only (Hands x md5Hex cfg) (source.program x md5Hex cfg) := by
  cases source with
  | text sms => exact (hands_handleTextSms sms).bind fun _ ↦ trivial
  | push sms => exact (hands_handlePush sms).bind fun _ ↦ trivial

/-- However the handlers of messages are interleaved, what they make of the table is a history. -/
theorem exists_history {P : Prog.Pool Source Call Call.Answer Unit State}
    (h : Prog.Pool.Reaches (fun q _ ↦ q) () State.world (Source.program x md5Hex cfg) (fun _ _ _ ↦ True)
      ⟨[], .empty⟩ P) : ∃ ops, (run (step x md5Hex cfg) start ops).table = P.state.messages := by
  have hconforms (source : Source) : Prog.Conforms (fun q _ ↦ q) (fun _ ↦ Hands x md5Hex cfg)
      (fun _ _ ↦ True) () (source.program x md5Hex cfg) := by
    have hphase : Prog.Conforms (fun q _ ↦ q) (fun _ ↦ Hands x md5Hex cfg) (fun q _ ↦ q = ()) ()
        (source.program x md5Hex cfg) := .of_only (hands_program source) (fun _ h ↦ h) fun _ _ _ ↦ rfl
    exact hphase.mono fun _ _ _ ↦ trivial
  refine (Prog.Pool.Reaches.invariant
    (fun (_ : List Unit) s ↦ ∃ ops, (run (step x md5Hex cfg) start ops).table = s.messages)
    hconforms ?_ ?_ h nofun ⟨[], rfl⟩).2
  · exact fun _ _ hs ↦ hs
  · rintro qs q rs s c r s' ⟨ops, hs⟩ hc - hW
    exact world_history hc hW hs

/-! ## Rows of their own -/

/-- What is announced has a row afterwards just when it is not confused with anything. -/
theorem unconfused_iff_hasRow (m : Incoming) :
    h.Unconfused x md5Hex cfg (.incoming m) ↔ (h.step x md5Hex cfg (.incoming m)).HasRow m.identity := by
  constructor
  · rintro (hrow | hnone)
    · exact hrow.step (.incoming m)
    · have hnew : ¬ h.table.Known (m.row x md5Hex cfg) := by
        rintro ⟨r, hr, hsame | hsame⟩
        · exact (hnone r hr).1 hsame
        · exact (hnone r hr).2 hsame
      rw [step_incoming_of_new hnew]
      refine ⟨h.table.lastId + 1, List.mem_append_right _ (List.mem_singleton_self _), ?_⟩
      rw [Messages.row?_append, if_pos rfl]
      rfl
  · intro hrow
    by_cases hknown : h.table.Known (m.row x md5Hex cfg)
    · rw [step_incoming_of_known hknown] at hrow
      exact .inl hrow
    · exact .inr fun r hr ↦ ⟨fun hsame ↦ hknown ⟨r, hr, .inl hsame⟩,
        fun hsame ↦ hknown ⟨r, hr, .inr hsame⟩⟩

/-- Whatever was announced has a row. -/
structure Complete (h : History) : Prop extends h.WellFormed where
  hasRow : ∀ i ∈ h.announced, h.HasRow i

theorem unconfused_iff_complete {op : Operation} (hcomplete : h.Complete) :
    h.Unconfused x md5Hex cfg op ↔ (h.step x md5Hex cfg op).Complete := by
  have hold : ∀ i ∈ h.announced, (h.step x md5Hex cfg op).HasRow i :=
    fun i hi ↦ (hcomplete.hasRow i hi).step op
  cases op with
  | incoming m =>
      rw [unconfused_iff_hasRow]
      constructor
      · refine fun hrow ↦ ⟨hcomplete.toWellFormed.step _, fun i hi ↦ ?_⟩
        rcases List.mem_append.mp hi with hi | hi
        · exact hold i hi
        · rwa [List.mem_singleton.mp hi]
      · exact fun hnext ↦ hnext.hasRow _ (List.mem_append_right _ (List.mem_singleton_self _))
  | outgoing msg hout => exact iff_of_true trivial ⟨hcomplete.toWellFormed.step _, hold⟩
  | setStatus id status error => exact iff_of_true trivial ⟨hcomplete.toWellFormed.step _, hold⟩
  | updateReceivedMms id subject text timestamp =>
      exact iff_of_true trivial ⟨hcomplete.toWellFormed.step _, hold⟩

/-- Rows of their own for any two messages are a row for each. -/
theorem WellFormed.ownRows_iff (hwell : h.WellFormed) : h.OwnRows ↔ h.Complete := by
  constructor
  · refine fun hown ↦ ⟨hwell, fun i hi ↦ ?_⟩
    by_contra hnone
    -- Some message has a row, and it is another one.
    obtain ⟨e, he⟩ := List.exists_mem_of_ne_nil _ (hwell.made_ne_nil (List.ne_nil_of_mem hi))
    have hne : i ≠ e.2 := by
      rintro rfl
      exact hnone ⟨e.1, he, hwell.isRow e he⟩
    obtain ⟨k, -, -, hk, -⟩ := hown i hi e.2 (hwell.made_announced e he) hne
    exact hnone ⟨k, hk⟩
  · intro hcomplete i hi j hj hne
    obtain ⟨k, hk⟩ := hcomplete.hasRow i hi
    obtain ⟨l, hl⟩ := hcomplete.hasRow j hj
    refine ⟨k, l, ?_, hk, hl⟩
    rintro rfl
    exact hne (congrArg Prod.snd (List.inj_on_of_nodup_map hwell.nodup hk.1 hl.1 rfl))

theorem complete_start : start.Complete where
  isRow e he := by cases he
  nodup := List.nodup_nil
  owned r hr := by cases hr
  made_announced e he := by cases he
  made_ne_nil hne := absurd rfl hne
  hasRow i hi := by cases hi

/-- Different messages have rows of their own all along a history just when no message is announced
that another one's row is confused with. -/
theorem guarded_iff_ownRows (ops : List Operation) :
    Guarded (step x md5Hex cfg) (Unconfused x md5Hex cfg) start ops ↔
      ∀ before, before <+: ops → (run (step x md5Hex cfg) start before).OwnRows := by
  rw [guarded_iff (fun h op hcomplete ↦ unconfused_iff_complete hcomplete) complete_start]
  refine forall_congr' fun before ↦ imp_congr_right fun _ ↦ ?_
  have hwell : (run (step x md5Hex cfg) start before).WellFormed :=
    invariant (fun _ op hwell ↦ hwell.step op) before complete_start.toWellFormed
  exact hwell.ownRows_iff.symm

end History

namespace Sample

/-- A binary message of that second, from the same sender. -/
def binary (data : List UInt8) : Incoming :=
  .text { hello "/SMS/4" with info := { (hello "/SMS/4").info with text := [], data := data } }

end Sample

/-- Two binary messages of one second: the second one has no row. -/
theorem second_binary_lost :
    ¬ (run (History.step Sample.outside Sample.digest Sample.config) History.start
      [.incoming (Sample.binary [1]), .incoming (Sample.binary [1, 2])]).OwnRows := by
  have hne : (Sample.binary [1]).identity ≠ (Sample.binary [1, 2]).identity := by decide
  have hannounced : (run (History.step Sample.outside Sample.digest Sample.config) History.start
      [.incoming (Sample.binary [1]), .incoming (Sample.binary [1, 2])]).announced =
        [(Sample.binary [1]).identity, (Sample.binary [1, 2]).identity] := by decide
  have hmade : (run (History.step Sample.outside Sample.digest Sample.config) History.start
      [.incoming (Sample.binary [1]), .incoming (Sample.binary [1, 2])]).made =
        [(1, (Sample.binary [1]).identity)] := by decide
  intro hown
  obtain ⟨k, l, -, -, hl, -⟩ := hown (Sample.binary [1]).identity (by rw [hannounced]; simp)
    (Sample.binary [1, 2]).identity (by rw [hannounced]; simp) hne
  rw [hmade, List.mem_singleton] at hl
  exact hne (congrArg Prod.snd hl).symm

end Modem2Sip.Messages
