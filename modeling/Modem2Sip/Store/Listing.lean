import Mathlib.Data.List.Nodup
import Mathlib.Data.List.Sort
import Modem2Sip.Lib.Paging
import Modem2Sip.Store.World

/-!
# Looking at what is stored

`db.rs`: `get_message`, `list_messages` and `attachment_path`, the three ways in which the API looks at
the tables.  They agree with one another, and what goes on in the store between two looks only ever
puts messages on top.
-/

namespace Modem2Sip.Store

open Text

structure Attachment where
  index : Nat
  contentType : Str
  name : Option Str
  contentId : Option Str
  size : Nat
  path : Str
deriving DecidableEq, Repr

structure StoredMessage where
  id : Nat
  kind : Kind
  direction : Direction
  peer : Str
  ownNumber : Option Str
  subject : Option Str
  text : Option Str
  timestamp : Option Str
  status : Str
  externalId : Option Str
  attachments : List Attachment
deriving DecidableEq, Repr

/-- `row_to_message`. -/
def rowToMessage (r : MessageRow) : StoredMessage where
  id := r.id
  kind := r.kind
  direction := r.direction
  peer := r.peer
  ownNumber := r.ownNumber
  subject := r.subject
  text := r.text
  timestamp := r.timestamp
  status := r.status
  externalId := r.externalId
  attachments := []

def toAttachment (index : Nat) (row : AttachmentRow) : Attachment where
  index := index
  contentType := row.contentType
  name := row.name
  contentId := row.contentId
  size := row.size
  path := row.path

namespace State

/-- `load_attachments`, in the order of their indices. -/
def loadAttachments (s : State) (messageId : Nat) : List Attachment :=
  ((s.attachments.entries.filter fun e ↦ e.1.1 == messageId).map fun e ↦
    toAttachment e.1.2 e.2).mergeSort fun a b ↦ decide (a.index ≤ b.index)

/-- A row with its attachments. -/
def stored (s : State) (r : MessageRow) : StoredMessage :=
  { rowToMessage r with attachments := s.loadAttachments r.id }

/-- `get_message`. -/
def getMessage (s : State) (id : Int) : Option StoredMessage :=
  (s.messages.rows.find? fun r ↦ (r.id : Int) == id).map s.stored

/-- `list_messages`; a negative `LIMIT` is none. -/
def listMessages (s : State) (limit : Int) (beforeId : Option Int) : List StoredMessage :=
  let rows := (s.messages.rows.filter fun r ↦ Paging.Below beforeId (r.id : Int)).mergeSort fun r r' ↦
    decide ((r'.id : Int) ≤ r.id)
  ((if limit < 0 then rows else rows.take limit.toNat).map s.stored)

/-- `attachment_path`: where it is, and its type. -/
def attachmentPath (s : State) (messageId index : Int) : Option (Str × Str) :=
  (s.attachments.entries.find? fun e ↦ (e.1.1 : Int) == messageId && (e.1.2 : Int) == index).map
    fun e ↦ (e.2.path, e.2.contentType)

/-- The ids of the messages. -/
def ids (s : State) : List Int := s.messages.rows.map fun r ↦ (r.id : Int)

variable {s s' : State}

/-! ## What is seen of a message -/

theorem nodup_ids (s : State) : s.ids.Nodup := by
  have h := s.messages.id_nodup.map (f := fun n : Nat ↦ (n : Int)) fun _ _ h ↦ Int.ofNat_inj.mp h
  rwa [List.map_map] at h

theorem mem_loadAttachments {messageId : Nat} {a : Attachment} :
    a ∈ s.loadAttachments messageId ↔
      ∃ row, s.attachments.get? (messageId, a.index) = some row ∧ a = toAttachment a.index row := by
  rw [loadAttachments, List.mem_mergeSort, List.mem_map]
  constructor
  · rintro ⟨⟨⟨id, index⟩, row⟩, he, rfl⟩
    obtain ⟨hmem, hid⟩ := List.mem_filter.mp he
    obtain rfl : id = messageId := beq_iff_eq.mp hid
    exact ⟨row, AList.mem_lookup_iff.mpr hmem, rfl⟩
  · rintro ⟨row, hrow, ha⟩
    refine ⟨⟨(messageId, a.index), row⟩, List.mem_filter.mpr ⟨?_, beq_self_eq_true _⟩, ha.symm⟩
    exact AList.mem_lookup_iff.mp hrow

theorem attachmentPath_of_get? {messageId index : Nat} {row : AttachmentRow}
    (h : s.attachments.get? (messageId, index) = some row) :
    s.attachmentPath messageId index = some (row.path, row.contentType) := by
  have hmem : (⟨(messageId, index), row⟩ : Sigma fun _ : Nat × Nat ↦ AttachmentRow) ∈
      s.attachments.entries := AList.mem_lookup_iff.mp h
  have hsome : (s.attachments.entries.find? fun e ↦
      (e.1.1 : Int) == (messageId : Int) && (e.1.2 : Int) == (index : Int)).isSome :=
    List.find?_isSome.mpr ⟨_, hmem, by simp⟩
  obtain ⟨⟨⟨id, index'⟩, row'⟩, hfound⟩ := Option.isSome_iff_exists.mp hsome
  have hkey := List.find?_some hfound
  simp only [Bool.and_eq_true, beq_iff_eq, Int.ofNat_inj] at hkey
  obtain ⟨rfl, rfl⟩ := hkey
  have hrow : s.attachments.get? (id, index') = some row' :=
    AList.mem_lookup_iff.mpr (List.mem_of_find?_eq_some hfound)
  rw [h] at hrow
  rw [attachmentPath, hfound, Option.some.inj hrow]
  rfl

/-- Every attachment of a message is found under its index. -/
theorem attachmentPath_of_mem {messageId : Nat} {a : Attachment}
    (h : a ∈ s.loadAttachments messageId) :
    s.attachmentPath messageId a.index = some (a.path, a.contentType) := by
  obtain ⟨row, hrow, ha⟩ := mem_loadAttachments.mp h
  rw [attachmentPath_of_get? hrow, ha]
  rfl

theorem getMessage_of_mem {r : MessageRow} (h : r ∈ s.messages.rows) :
    s.getMessage r.id = some (s.stored r) := by
  have hfind := Messages.row?_eq_some_iff.mpr ⟨h, rfl⟩
  have hsame : (fun r' : MessageRow ↦ (r'.id : Int) == (r.id : Int)) = fun r' ↦ r'.id == r.id := by
    funext r'
    rw [Bool.eq_iff_iff, beq_iff_eq, beq_iff_eq]
    exact Int.ofNat_inj
  rw [getMessage, hsame, show s.messages.rows.find? (fun r' ↦ r'.id == r.id) = some r from hfind]
  rfl

/-- A list of messages is a page of their ids. -/
theorem map_id_listMessages (s : State) {limit : Int} (hlimit : 0 ≤ limit) (beforeId : Option Int) :
    (s.listMessages limit beforeId).map (fun m ↦ (m.id : Int)) =
      Paging.page limit.toNat beforeId s.ids := by
  have hids : ((s.messages.rows.filter fun r ↦ Paging.Below beforeId (r.id : Int)).mergeSort
      fun r r' ↦ decide ((r'.id : Int) ≤ r.id)).map (fun r ↦ (r.id : Int)) =
        Paging.desc (s.ids.filter fun k ↦ Paging.Below beforeId k) := by
    have hfilter : s.ids.filter (fun k ↦ Paging.Below beforeId k) =
        (s.messages.rows.filter fun r ↦ Paging.Below beforeId (r.id : Int)).map
          fun r ↦ (r.id : Int) := List.filter_map
    rw [hfilter]
    refine Paging.eq_desc ((List.mergeSort_perm _ _).map _) (List.pairwise_map.mpr ?_)
    have hsorted := @List.pairwise_mergeSort _ (fun r r' : MessageRow ↦ decide ((r'.id : Int) ≤ r.id))
      (fun a b c hab hbc ↦ decide_eq_true ((of_decide_eq_true hbc).trans (of_decide_eq_true hab)))
      (fun a b ↦ by simpa using Nat.le_total b.id a.id)
      (s.messages.rows.filter fun r ↦ Paging.Below beforeId (r.id : Int))
    exact hsorted.imp of_decide_eq_true
  have hstored : ((fun m : StoredMessage ↦ (m.id : Int)) ∘ s.stored) = fun r ↦ (r.id : Int) := rfl
  rw [listMessages, if_neg (not_lt.mpr hlimit), List.map_map, hstored, List.map_take, hids]
  rfl

/-! ## What happens between two looks -/

theorem grows_insertMessage (t : Messages) (msg : NewMessage) :
    Paging.Grows (t.rows.map fun r ↦ (r.id : Int))
      ((t.insertMessage msg).2.rows.map fun r ↦ (r.id : Int)) := by
  by_cases h : t.Known msg
  · rw [Messages.insertMessage_of_known h]
    exact .refl _
  · rw [Messages.insertMessage_of_not_known h]
    refine ⟨[(t.lastId + 1 : Nat)], List.map_append, fun k hk k' hk' ↦ ?_⟩
    obtain ⟨r, hr, rfl⟩ := List.mem_map.mp hk
    rw [List.mem_singleton.mp hk']
    exact Int.ofNat_lt.mpr (Nat.lt_succ_of_le (t.id_le r hr))

theorem ids_of_update {id : Nat} {f : MessageRow → MessageRow} {hf}
    (h : s'.messages = s.messages.update id f hf) : s'.ids = s.ids := by
  rw [ids, h, Messages.update, List.map_map]
  refine List.map_congr_left fun r _ ↦ ?_
  rw [Function.comp_apply]
  split
  · rw [(hf r).1]
  · rfl

/-- No call takes a message away, and a new one is above all that are there. -/
theorem grows_world {c : Call} {r : c.Answer} (h : world s c r s') : Paging.Grows s.ids s'.ids := by
  by_cases hc : writesMessages c
  · cases c with
    | insertMessage msg =>
        cases r with
        | error e => exact (h : s' = s) ▸ .refl _
        | ok id => exact h.2 ▸ grows_insertMessage s.messages msg
    | updateReceivedMms id subject text timestamp =>
        cases r with
        | error e => exact (h : s' = s) ▸ .refl _
        | ok u =>
            have hupdate : s'.messages = s.messages.updateReceivedMms id subject text timestamp :=
              congrArg messages h.2
            exact ids_of_update hupdate ▸ .refl _
    | setStatus id status error =>
        cases r with
        | error e => exact (h : s' = s) ▸ .refl _
        | ok u =>
            have hupdate : s'.messages = s.messages.setStatus id status error :=
              congrArg messages h.2
            exact ids_of_update hupdate ▸ .refl _
    | _ => cases hc
  · have hids : s'.ids = s.ids := by
      rw [ids, ids, world_messages (Bool.eq_false_iff.mpr hc) h]
    exact hids ▸ .refl _

/-- Any number of calls, of whichever task. -/
def Goes : State → State → Prop := Relation.ReflTransGen fun s s' ↦ ∃ c r, world s c r s'

theorem Goes.grows (h : Goes s s') : Paging.Grows s.ids s'.ids := by
  induction h with
  | refl => exact .refl _
  | tail _ hstep ih =>
      obtain ⟨c, r, hW⟩ := hstep
      exact ih.trans (grows_world hW)

end State

end Modem2Sip.Store
