import Modem2Sip.Lib.Map
import Modem2Sip.Lib.Text

/-!
# The tables

`db.rs`: the rows of `messages` and `attachments`, and what each statement does to them.  A
statement that fails changes nothing; whether it fails is not decided here.  `received_at` and the
table of calls are left out: nothing below reads them.
-/

namespace Modem2Sip.Store

open Text

inductive Kind where
  | sms
  | mms
deriving DecidableEq, Repr

inductive Direction where
  | incoming
  | outgoing
deriving DecidableEq, Repr

structure NewMessage where
  kind : Kind
  direction : Direction
  peer : Str
  ownNumber : Option Str
  subject : Option Str
  text : Option Str
  /-- What the network says. -/
  timestamp : Option Str
  status : Str
  externalId : Option Str
  raw : Option (List UInt8)
deriving DecidableEq, Repr

/-- A row of `messages`. -/
structure MessageRow extends NewMessage where
  id : Nat
  error : Option Str
deriving DecidableEq, Repr

/-- A row of `attachments`, without its key. -/
structure AttachmentRow where
  contentType : Str
  name : Option Str
  contentId : Option Str
  size : Nat
  path : Str
deriving DecidableEq, Repr

/-! ## Messages -/

/-- Two rows that the index over kind, direction and external id does not allow together. -/
def SameExternal (m n : NewMessage) : Prop :=
  m.kind = n.kind ∧ m.direction = n.direction ∧ m.externalId = n.externalId ∧ m.externalId ≠ none

instance (m n : NewMessage) : Decidable (SameExternal m n) := inferInstanceAs (Decidable (_ ∧ _))

/-- The second test of `insert_message`: an incoming message with a timestamp is one that is stored
if kind, direction, sender, timestamp and text agree.  No text is the empty text. -/
def SameContent (stored msg : NewMessage) : Prop :=
  msg.direction = .incoming ∧ msg.timestamp ≠ none ∧ msg.timestamp ≠ some [] ∧
    stored.kind = msg.kind ∧ stored.direction = msg.direction ∧ stored.peer = msg.peer ∧
      stored.timestamp = msg.timestamp ∧ stored.text.getD [] = msg.text.getD []

instance (m n : NewMessage) : Decidable (SameContent m n) := inferInstanceAs (Decidable (_ ∧ _))

/-- The table of messages, oldest first.  `lastId` is what AUTOINCREMENT goes on from. -/
structure Messages where
  rows : List MessageRow
  lastId : Nat
  id_le : ∀ r ∈ rows, r.id ≤ lastId
  id_nodup : (rows.map MessageRow.id).Nodup
  external_unique : rows.Pairwise fun r r' ↦ ¬ SameExternal r.toNewMessage r'.toNewMessage

namespace Messages

def empty : Messages := ⟨[], 0, nofun, List.nodup_nil, List.Pairwise.nil⟩

def row? (t : Messages) (id : Nat) : Option MessageRow := t.rows.find? (·.id == id)

/-- Is the message a duplicate of a stored one? -/
def Known (t : Messages) (msg : NewMessage) : Prop :=
  ∃ r ∈ t.rows, SameExternal r.toNewMessage msg ∨ SameContent r.toNewMessage msg

instance (t : Messages) (msg : NewMessage) : Decidable (t.Known msg) :=
  inferInstanceAs (Decidable (∃ r ∈ t.rows, _))

/-- The `INSERT`, behind the two tests. -/
def append (t : Messages) (msg : NewMessage) (h : ¬ t.Known msg) : Messages where
  rows := t.rows ++ [{ msg with id := t.lastId + 1, error := none }]
  lastId := t.lastId + 1
  id_le := by
    intro r hr
    rcases List.mem_append.mp hr with hr | hr
    · exact Nat.le_succ_of_le (t.id_le r hr)
    · rw [List.mem_singleton.mp hr]
  id_nodup := by
    rw [List.map_append, List.map_singleton, List.nodup_append]
    refine ⟨t.id_nodup, List.nodup_singleton _, ?_⟩
    rintro id hid _ hnew rfl
    obtain ⟨r, hr, rfl⟩ := List.mem_map.mp hid
    have hle := t.id_le r hr
    rw [List.mem_singleton.mp hnew] at hle
    exact Nat.not_succ_le_self _ hle
  external_unique := by
    rw [List.pairwise_append]
    refine ⟨t.external_unique, List.pairwise_singleton _ _, fun r hr r' hr' hsame ↦ ?_⟩
    rw [List.mem_singleton.mp hr'] at hsame
    exact h ⟨r, hr, .inl hsame⟩

/-- `insert_message`: the id of the new row, unless the message is known. -/
def insertMessage (t : Messages) (msg : NewMessage) : Option Nat × Messages :=
  if h : t.Known msg then (none, t) else (some (t.lastId + 1), t.append msg h)

/-- `find_by_external_id`. -/
def findByExternalId (t : Messages) (kind : Kind) (direction : Direction) (externalId : Str) :
    Option (Nat × Str) :=
  (t.rows.find? fun r ↦
    r.kind == kind && r.direction == direction && r.externalId == some externalId).map fun r ↦
      (r.id, r.status)

/-- `message_raw`. -/
def messageRaw (t : Messages) (id : Nat) : Option (List UInt8) := (t.row? id).bind (·.raw)

/-- An `UPDATE` of one row that leaves its key and its external id as they are. -/
def update (t : Messages) (id : Nat) (f : MessageRow → MessageRow)
    (hf : ∀ r, (f r).id = r.id ∧ (f r).kind = r.kind ∧ (f r).direction = r.direction ∧
      (f r).externalId = r.externalId) : Messages where
  rows := t.rows.map fun r ↦ if r.id = id then f r else r
  lastId := t.lastId
  id_le := by
    intro r' hr'
    obtain ⟨r, hr, rfl⟩ := List.mem_map.mp hr'
    split
    · rw [(hf r).1]
      exact t.id_le r hr
    · exact t.id_le r hr
  id_nodup := by
    have hids : (t.rows.map fun r ↦ if r.id = id then f r else r).map MessageRow.id =
        t.rows.map MessageRow.id := by
      rw [List.map_map]
      refine List.map_congr_left fun r _ ↦ ?_
      rw [Function.comp_apply]
      split
      · exact (hf r).1
      · rfl
    rw [hids]
    exact t.id_nodup
  external_unique := by
    have hsame : ∀ r : MessageRow, (if r.id = id then f r else r).kind = r.kind ∧
        (if r.id = id then f r else r).direction = r.direction ∧
          (if r.id = id then f r else r).externalId = r.externalId := by
      intro r
      split
      · exact (hf r).2
      · exact ⟨rfl, rfl, rfl⟩
    rw [List.pairwise_map]
    refine t.external_unique.imp fun {r r'} h hsame' ↦ h ?_
    unfold SameExternal at hsame' ⊢
    obtain ⟨h₁, h₂, h₃⟩ := hsame r
    obtain ⟨h₁', h₂', h₃'⟩ := hsame r'
    rwa [h₁, h₂, h₃, h₁', h₂', h₃'] at hsame'

/-- `set_status`. -/
def setStatus (t : Messages) (id : Nat) (status : Str) (error : Option Str) : Messages :=
  t.update id (fun r ↦ { r with status := status, error := error }) fun _ ↦ ⟨rfl, rfl, rfl, rfl⟩

/-- `update_received_mms`: what is absent stays as it was. -/
def updateReceivedMms (t : Messages) (id : Nat) (subject text timestamp : Option Str) : Messages :=
  t.update id
    (fun r ↦ { r with
      subject := subject.or r.subject, text := text.or r.text, timestamp := timestamp.or r.timestamp })
    fun _ ↦ ⟨rfl, rfl, rfl, rfl⟩

/-! ### What the rows are afterwards -/

variable {t : Messages} {id k : Nat}

theorem row?_eq_some_iff {r : MessageRow} : t.row? id = some r ↔ r ∈ t.rows ∧ r.id = id := by
  constructor
  · intro h
    have hid := List.find?_some (p := fun r : MessageRow ↦ r.id == id) h
    exact ⟨List.mem_of_find?_eq_some h, beq_iff_eq.mp hid⟩
  · rintro ⟨hr, rfl⟩
    have hsome : (t.rows.find? (·.id == r.id)).isSome := List.find?_isSome.mpr ⟨r, hr, beq_self_eq_true _⟩
    obtain ⟨r', hr'⟩ := Option.isSome_iff_exists.mp hsome
    have hid : r'.id = r.id := beq_iff_eq.mp (List.find?_some (p := fun r' : MessageRow ↦ r'.id == r.id) hr')
    have heq : r' = r := List.inj_on_of_nodup_map t.id_nodup (List.mem_of_find?_eq_some hr') hr hid
    rw [row?, hr', heq]

theorem row?_update {f : MessageRow → MessageRow} {hf} :
    (t.update id f hf).row? k = if k = id then (t.row? k).map f else t.row? k := by
  have hkeep : ∀ r : MessageRow, (if r.id = id then f r else r).id = r.id := by
    intro r
    split
    · exact (hf r).1
    · rfl
  have hmap : (t.update id f hf).row? k = (t.row? k).map fun r ↦ if r.id = id then f r else r := by
    rw [row?, update, List.find?_map, row?]
    refine congrArg (Option.map _) (congrArg (List.find? · _) ?_)
    funext r
    rw [Function.comp_apply, hkeep]
  rw [hmap]
  cases hrow : t.row? k with
  | none => simp
  | some r =>
      rw [Option.map_some, (row?_eq_some_iff.mp hrow).2]
      split
      · rfl
      · rfl

theorem row?_setStatus {status : Str} {error : Option Str} :
    (t.setStatus id status error).row? k =
      if k = id then (t.row? k).map fun r ↦ { r with status := status, error := error } else t.row? k :=
  row?_update

theorem row?_updateReceivedMms {subject text timestamp : Option Str} :
    (t.updateReceivedMms id subject text timestamp).row? k =
      if k = id then (t.row? k).map fun r ↦ { r with
        subject := subject.or r.subject, text := text.or r.text, timestamp := timestamp.or r.timestamp }
      else t.row? k :=
  row?_update

theorem row?_of_lt (h : t.lastId < id) : t.row? id = none := by
  refine Option.eq_none_iff_forall_ne_some.mpr fun r hr ↦ ?_
  obtain ⟨hmem, rfl⟩ := row?_eq_some_iff.mp hr
  exact absurd (t.id_le r hmem) (Nat.not_le.mpr h)

theorem row?_append {msg : NewMessage} {h : ¬ t.Known msg} :
    (t.append msg h).row? k =
      if k = t.lastId + 1 then some { msg with id := t.lastId + 1, error := none } else t.row? k := by
  rw [row?, append, List.find?_append]
  split
  · rename_i hk
    have hnone : t.rows.find? (·.id == k) = none := row?_of_lt (hk ▸ Nat.lt_succ_self _)
    rw [hnone, hk, Option.none_or, List.find?_singleton]
    simp
  · rename_i hk
    rw [List.find?_singleton]
    have hne : (t.lastId + 1 == k) = false := beq_false_of_ne (Ne.symm hk)
    simp only [hne, Bool.false_eq_true, if_false, Option.or_none]
    rfl

/-! ### What is known -/

variable {msg msg' : NewMessage}

theorem insertMessage_of_known (h : t.Known msg) : t.insertMessage msg = (none, t) := dif_pos h

theorem insertMessage_of_not_known (h : ¬ t.Known msg) :
    t.insertMessage msg = (some (t.lastId + 1), t.append msg h) := dif_neg h

/-- The row of a message that is inserted. -/
theorem row?_insertMessage (h : (t.insertMessage msg).1 = some id) :
    (t.insertMessage msg).2.row? id = some { msg with id := id, error := none } := by
  by_cases hknown : t.Known msg
  · rw [insertMessage_of_known hknown] at h
    cases h
  · rw [insertMessage_of_not_known hknown] at h ⊢
    cases h
    rw [row?_append, if_pos rfl]

/-- A row stays where it is. -/
theorem mem_insertMessage {r : MessageRow} (h : r ∈ t.rows) : r ∈ (t.insertMessage msg).2.rows := by
  by_cases hknown : t.Known msg
  · rwa [insertMessage_of_known hknown]
  · rw [insertMessage_of_not_known hknown]
    exact List.mem_append_left _ h

/-- A row that is there stays as it is. -/
theorem row?_insertMessage_of_row {r : MessageRow} (h : t.row? id = some r) :
    (t.insertMessage msg).2.row? id = some r := by
  obtain ⟨hmem, hid⟩ := row?_eq_some_iff.mp h
  exact row?_eq_some_iff.mpr ⟨mem_insertMessage hmem, hid⟩

theorem Known.insertMessage (h : t.Known msg) (msg' : NewMessage) :
    (t.insertMessage msg').2.Known msg := by
  obtain ⟨r, hr, hsame⟩ := h
  exact ⟨r, mem_insertMessage hr, hsame⟩

/-- A message with an external id is known from then on. -/
theorem known_insertMessage (hext : msg.externalId ≠ none) : (t.insertMessage msg).2.Known msg := by
  by_cases hknown : t.Known msg
  · rwa [insertMessage_of_known hknown]
  · rw [insertMessage_of_not_known hknown]
    exact ⟨_, List.mem_append_right _ (List.mem_singleton_self _), .inl ⟨rfl, rfl, rfl, hext⟩⟩

/-- Two messages that agree in what is compared are known together. -/
theorem known_congr (hkind : msg.kind = msg'.kind) (hdirection : msg.direction = msg'.direction)
    (hpeer : msg.peer = msg'.peer) (htext : msg.text = msg'.text)
    (htimestamp : msg.timestamp = msg'.timestamp) (hexternal : msg.externalId = msg'.externalId) :
    t.Known msg ↔ t.Known msg' := by
  simp only [Known, SameExternal, SameContent, hkind, hdirection, hpeer, htext, htimestamp, hexternal]

/-- There is one row with an external id. -/
theorem eq_of_sameExternal {r r' : MessageRow} (hr : r ∈ t.rows) (hr' : r' ∈ t.rows)
    (h : SameExternal r'.toNewMessage r.toNewMessage) : r' = r := by
  by_contra hne
  have hsymm : Std.Symm fun r r' : MessageRow ↦ ¬ SameExternal r.toNewMessage r'.toNewMessage :=
    ⟨fun _ _ h h' ↦ h ⟨h'.1.symm, h'.2.1.symm, h'.2.2.1.symm, h'.2.2.1 ▸ h'.2.2.2⟩⟩
  exact t.external_unique.forall hr' hr hne h

/-- The rows that agree with a row in what is found by its external id are this row. -/
theorem filter_sameExternal {r : MessageRow} (hr : r ∈ t.rows) (hext : r.externalId ≠ none) :
    t.rows.filter (fun r' ↦ SameExternal r'.toNewMessage r.toNewMessage) = [r] := by
  have hmem : r ∈ t.rows.filter (fun r' ↦ SameExternal r'.toNewMessage r.toNewMessage) :=
    List.mem_filter.mpr ⟨hr, decide_eq_true ⟨rfl, rfl, rfl, hext⟩⟩
  have hall : ∀ r' ∈ t.rows.filter (fun r' ↦ SameExternal r'.toNewMessage r.toNewMessage), r' = r := by
    intro r' hr'
    obtain ⟨hr', hsame⟩ := List.mem_filter.mp hr'
    exact eq_of_sameExternal hr hr' (of_decide_eq_true hsame)
  have hnodup := (List.Nodup.of_map _ t.id_nodup).filter
    (fun r' ↦ decide (SameExternal r'.toNewMessage r.toNewMessage))
  by_contra hne
  rcases (hnodup.ne_singleton_iff r).mp hne with hnil | ⟨r', hr', hne'⟩
  · rw [hnil] at hmem
    cases hmem
  · exact hne' (hall r' hr')

/-- A row with an external id is found by it. -/
theorem findByExternalId_of_row {r : MessageRow} {externalId : Str} (hr : t.row? r.id = some r)
    (hext : r.externalId = some externalId) :
    t.findByExternalId r.kind r.direction externalId = some (r.id, r.status) := by
  obtain ⟨hmem, -⟩ := row?_eq_some_iff.mp hr
  have hsome : (t.rows.find? fun r' ↦ r'.kind == r.kind && r'.direction == r.direction &&
      r'.externalId == some externalId).isSome :=
    List.find?_isSome.mpr ⟨r, hmem, by simp [hext]⟩
  obtain ⟨r', hr'⟩ := Option.isSome_iff_exists.mp hsome
  have hsame : SameExternal r'.toNewMessage r.toNewMessage := by
    have hfound := List.find?_some hr'
    simp only [Bool.and_eq_true, beq_iff_eq] at hfound
    exact ⟨hfound.1.1, hfound.1.2, hfound.2.trans hext.symm, hfound.2 ▸ Option.some_ne_none _⟩
  have heq : r' = r := eq_of_sameExternal hmem (List.mem_of_find?_eq_some hr') hsame
  rw [findByExternalId, hr', heq, Option.map_some]

end Messages

end Modem2Sip.Store
