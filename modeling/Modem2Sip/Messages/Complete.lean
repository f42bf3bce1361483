import Modem2Sip.Messages.Received
import Modem2Sip.Mms.Framing
import Modem2Sip.Mms.Multipart

/-!
# Messages that are acknowledged

A message that the MMSC is told of is gone there.  `retrieve` says so, and that the message is received,
once it has stored what was decoded of the reply; whether that is all of the message depends on the
framing of the reply and on how many parts there are.
-/

namespace Modem2Sip.Messages

open Text Store Mms

variable {x : Outside} {cfg : Config} {id : Nat} {s s₀ s' : State}

/-! ## What is stored when the message is acknowledged -/

/-- The parts of all messages are where `add_attachment` puts them. -/
def PartsPlaced (dir : Str) (s : State) : Prop :=
  ∀ m index row, s.attachments.get? (m, index) = some row → 0 < index ∧ PartPath dir m index row.path

theorem PartsPlaced.apart (h : PartsPlaced cfg.attachmentsDir s) (id : Nat) :
    Apart cfg.attachmentsDir id s s where
  placed index row hrow := h id index row hrow
  messages _ _ := rfl
  attachments _ _ _ := rfl
  files _ _ _ := rfl

/-- They stay there, whatever the tasks do. -/
theorem partsPlaced_reaches {P P' : Prog.Pool Job Call Call.Answer Unit State}
    (h : Prog.Pool.Reaches Phase.next .idle State.world (Job.program x cfg) (fun _ _ _ ↦ True) P P')
    (hP : P.Conforming Phase.next .idle (Phase.Legal cfg)) (hplaced : PartsPlaced cfg.attachmentsDir P.state) :
    PartsPlaced cfg.attachmentsDir P'.state := by
  refine (Prog.Pool.Reaches.invariant (fun (_ : List Phase) s ↦ PartsPlaced cfg.attachmentsDir s)
    keeps_program (fun _ _ hs ↦ hs) ?_ h hP hplaced).2
  rintro qs q rs s c r s' hs hlegal - hW
  refine attachments_step hs ?_ hW
  rintro m index row rfl
  cases q with
  | working id stale =>
      obtain ⟨rfl, hindex, hpath⟩ : m = id ∧ 0 < index ∧ PartPath cfg.attachmentsDir id index row.path := hlegal
      exact ⟨hindex, hpath⟩
  | idle | fresh | stored | failed => cases hlegal

/-- The message is said to be received, or the MMSC is told. -/
def Commits (id : Nat) : Call → Prop
  | .setStatus m status _ => m = id ∧ status = "received"
  | .httpPost .. => True
  | _ => False

theorem Adds.not_commits {c : Call} (h : Adds cfg.attachmentsDir id c) : ¬ Commits id c := by
  cases c with
  | createDir | writeFile | upsertAttachment => exact not_false
  | _ => cases h

theorem only_pruneAttachments (keep : Nat) :
    Prog.Only (fun c ↦ ¬ Commits id c) (Attempt.pruneAttachments id keep) := by
  refine Prog.Only.attempt (Prog.Only.ask nofun) fun paths ↦ ?_
  induction paths with
  | nil => trivial
  | cons path paths ih => exact ⟨nofun, fun _ ↦ ih⟩

/-- A program that does not say so. -/
theorem atCalls_of_not_commits {α : Type} {p : Act α}
    {Q : List (Prog.Event Call Call.Answer) → State → Prop} (h : p.Only fun c ↦ ¬ Commits id c) :
    p.AtCalls State.world (fun es c s' ↦ Commits id c → Q es s') s :=
  .of_only h fun _ _ _ hc hcommits ↦ absurd hcommits hc

/-- All parts of the message are stored before it is said to be received. -/
theorem atCalls_storeRetrieved (h : Apart cfg.attachmentsDir id s₀ s) (message : MmsMessage) :
    Prog.AtCalls State.world (fun _ c s' ↦ Commits id c → Holds x cfg id (contentParts message.parts) s')
      (storeRetrieved x cfg id message) s := by
  refine Prog.AtCalls.attempt (atCalls_of_not_commits (Prog.Only.ask nofun)) ?_
  rintro r s₁ hupdate _ rfl
  have h₁ := h.step (c := .updateReceivedMms id _ _ _) rfl hupdate
  refine Prog.AtCalls.attempt (atCalls_of_not_commits
    ((adds_storeParts message.parts 0).mono fun _ hc ↦ hc.not_commits)) ?_
  refine Prog.wp_mono (wp_storeParts_stored h₁ message.parts) ?_
  rintro es r s₂ hparts k rfl
  obtain ⟨h₂, rfl, hstored⟩ := hparts k rfl
  refine Prog.AtCalls.attempt (atCalls_of_not_commits (only_pruneAttachments _)) ?_
  refine Prog.wp_mono (wp_pruneAttachments_holds h₂ hstored) ?_
  rintro es' r s₃ hholds _ rfl
  exact .call (fun _ ↦ hholds rfl) fun _ _ _ ↦ .done

/-- The parts of a message in a reply of the MMSC are stored, and nothing else is. -/
def StoredReply (x : Outside) (cfg : Config) (id : Nat) (es : List (Prog.Event Call Call.Answer))
    (s : State) : Prop :=
  ∃ url r message, ⟨.httpGet url, (.ok r : Except Str HttpResponse)⟩ ∈ es ∧
    readReply x r = .ok message ∧ Holds x cfg id (contentParts message.parts) s

theorem StoredReply.mono {es es' : List (Prog.Event Call Call.Answer)} (h : StoredReply x cfg id es s)
    (hsub : ∀ e ∈ es, e ∈ es') : StoredReply x cfg id es' s := by
  obtain ⟨url, r, message, hmem, hmessage, hholds⟩ := h
  exact ⟨url, r, message, hsub _ hmem, hmessage, hholds⟩

theorem wp_runSetupCommand (cfg : Config) (s : State) :
    Prog.wp State.world (runSetupCommand cfg) (fun _ _ s' ↦ s' = s) s := by
  rw [runSetupCommand]
  split
  · exact rfl
  · exact fun _ _ hW ↦ hW

theorem atCalls_acknowledge {Q : List (Prog.Event Call Call.Answer) → State → Prop} (h : ∀ es, Q es s)
    (notification message : MmsMessage) :
    Prog.AtCalls State.world (fun es c s' ↦ Commits id c → Q es s')
      (acknowledge cfg notification message) s := by
  rw [acknowledge]
  split
  · exact .call (fun _ ↦ h []) fun _ _ _ ↦ .done
  · exact .done

theorem atCalls_download (h : PartsPlaced cfg.attachmentsDir s) (notification : MmsMessage) :
    Prog.AtCalls State.world (fun es c s' ↦ Commits id c → StoredReply x cfg id es s')
      (download x cfg notification id) s := by
  have hlocation : Prog.Only (fun c ↦ ¬ Commits id c)
      (Attempt.ofExcept (location cfg notification) : Act (Except Str Str)) := trivial
  refine Prog.AtCalls.attempt (atCalls_of_not_commits hlocation) ?_
  rintro url -
  have hsetup : Prog.Only (fun c ↦ ¬ Commits id c) (runSetupCommand cfg) := by
    rw [runSetupCommand]
    split
    · trivial
    · exact Prog.Only.ask not_false
  refine Prog.AtCalls.attempt (atCalls_of_not_commits hsetup) (Prog.wp_mono (wp_runSetupCommand cfg s) ?_)
  rintro es₁ _ s₁ rfl _ -
  refine Prog.AtCalls.attempt
    (atCalls_of_not_commits (Prog.Only.bind (Prog.Only.ask not_false) fun _ ↦ trivial)) ?_
  refine Prog.wp_outcome.mpr ?_
  rintro reply s₂ rfl _ ⟨⟩
  cases reply with
  | error e => exact .done
  | ok r =>
      have hread : Prog.Only (fun c ↦ ¬ Commits id c)
          (Attempt.ofExcept (readReply x r) : Act (Except Str MmsMessage)) := trivial
      refine Prog.AtCalls.attempt (atCalls_of_not_commits hread) ?_
      rintro message hmessage
      have hreply {es : List (Prog.Event Call Call.Answer)} {s' : State}
          (hmem : ⟨.httpGet url, (.ok r : Except Str HttpResponse)⟩ ∈ es)
          (hholds : Holds x cfg id (contentParts message.parts) s') : StoredReply x cfg id es s' :=
        ⟨url, r, message, hmem, hmessage, hholds⟩
      refine Prog.AtCalls.attempt ((atCalls_storeRetrieved (h.apart id) message).mono
        fun es c s' hc hcommits ↦ hreply (by simp) (hc hcommits)) ?_
      refine Prog.wp_mono (wp_storeRetrieved (h.apart id) message) ?_
      rintro es₂ _ s₃ hholds _ rfl
      exact atCalls_acknowledge (fun es ↦ hreply (by simp) (hholds rfl)) notification message

/-- Whenever `retrieve` says that the message is received, or tells the MMSC, it has stored the parts of
the reply. -/
theorem atCalls_retrieve (h : PartsPlaced cfg.attachmentsDir s) (notification : MmsMessage) :
    Prog.AtCalls State.world (fun es c s' ↦ Commits id c → StoredReply x cfg id es s')
      (retrieve x cfg notification id) s := by
  refine .call nofun ?_
  rintro u s₁ rfl
  refine Prog.AtCalls.bind ((atCalls_download h notification).mono fun es c s' hc hcommits ↦ ?_) ?_
  · exact (hc hcommits).mono fun _ ↦ List.mem_cons_of_mem _
  · exact Prog.wp_iff.mpr fun _ _ _ _ ↦ .call nofun fun _ _ _ ↦ .done

/-! ## Whether it is all of the message -/

/-- What `http::get` makes of the bytes of a connection. -/
def Gets (c : Http.Connection) (cfg : Config) (r : HttpResponse) : Prop :=
  ∃ resp : Http.HttpResponse, Http.readResponse 64 c cfg.maxSize = .ok (.ok resp) ∧
    r = ⟨resp.status, (Http.Head.mk resp.status resp.headers).get "content-type", resp.body⟩

/-- All parts that the message declares were decoded from the reply of the MMSC, and those that are not
the presentation are its attachments. -/
def AllStored (pdu : RetrieveConf x.decodeText 64) (cfg : Config) (id : Nat)
    (es : List (Prog.Event Call Call.Answer)) (s : State) : Prop :=
  ∃ url r message, ⟨.httpGet url, (.ok r : Except Str HttpResponse)⟩ ∈ es ∧
    readReply x r = .ok message ∧ pdu.Decoded r.body message ∧ Holds x cfg id (contentParts pdu.parts) s

theorem decode_of_readReply {r : HttpResponse} {message : MmsMessage} (h : readReply x r = .ok message) :
    decode x.decodeText 64 r.body = .ok (.ok message) := by
  unfold readReply at h
  split at h
  · cases h
  unfold Outside.decode at h
  cases hdecode : decode x.decodeText 64 r.body with
  | error e =>
      rw [hdecode] at h
      cases h
  | ok result =>
      rw [hdecode] at h
      cases result with
      | error e => cases h
      | ok message' =>
          dsimp only at h
          split at h
          · cases h
          split at h
          · cases h
          · cases h
            rfl

/-- A message is said to be received, or the MMSC is told, with all parts that it declares stored if and
only if there are no more than 256 of them, the MMSC sent all of it, and the length of the body was
announced or the connection was not closed before the last byte of the message. -/
theorem allStored_iff {pdu : RetrieveConf x.decodeText 64} {sent : List UInt8} (hsent : sent <+: pdu.bytes)
    {carrier : Http.Carrier 64 sent} {p : List UInt8} (hp : p <+: carrier.bytes)
    (hfits : p.length < 2 ^ 64) {c : Http.Cut p} (hplaced : PartsPlaced cfg.attachmentsDir s)
    {notification : MmsMessage} {es : List (Prog.Event Call Call.Answer)} {call : Call}
    {k : call.Answer → Act (Except Str Unit)}
    (hrun : Prog.Runs State.world s (retrieve x cfg notification id) es s' (.call call k))
    (hcommits : Commits id call)
    (hget : ∀ url r, ⟨.httpGet url, (.ok r : Except Str HttpResponse)⟩ ∈ es → Gets c.connection cfg r) :
    AllStored pdu cfg id es s' ↔ pdu.entries.length ≤ 256 ∧ sent = pdu.bytes ∧
      (carrier.framing.announced = true ∨ carrier.needed <+: p) := by
  obtain ⟨url, r, message, hmem, hread, hholds⟩ :=
    atCalls_retrieve hplaced notification es s' call k hrun hcommits
  obtain ⟨resp, hresp, rfl⟩ := hget url r hmem
  have hbytes : Http.responseOf 64 cfg.maxSize p = .ok (.ok resp) := by
    have hof := Http.responseOf_of_readResponse c.reads_ne hresp
    rwa [c.flatten_eq] at hof
  obtain ⟨hstart, hwhole⟩ := Http.Carrier.body_of_responseOf hp hfits hbytes
  have hbody : resp.body.length < 2 ^ 64 :=
    Nat.lt_of_le_of_lt (Http.length_le_of_responseOf hfits hbytes) hfits
  have hdecoded := RetrieveConf.decoded_iff (hstart.trans hsent) hbody (decode_of_readReply hread)
  have hstored : AllStored pdu cfg id es s' ↔ pdu.Decoded resp.body message := by
    constructor
    · rintro ⟨url', r', message', hmem', hread', hdecoded', -⟩
      -- The reply is the same, as it is that of the same connection.
      obtain ⟨resp', hresp', rfl⟩ := hget url' r' hmem'
      cases hresp.symm.trans hresp'
      cases hread.symm.trans hread'
      exact hdecoded'
    · exact fun h ↦ ⟨url, _, message, hmem, hread, h, h.2 ▸ hholds⟩
  rw [hstored, hdecoded, ← hwhole]
  refine and_congr_right fun _ ↦ ?_
  constructor
  · intro heq
    have hall : sent = resp.body := (hsent.eq_of_length_le (heq ▸ hstart.length_le)).trans heq.symm
    exact ⟨hall.trans heq, hall.symm⟩
  · rintro ⟨hall, heq⟩
    exact heq.trans hall

namespace Sample

open Cursor Reader

theorem reads_mixed (t : List UInt8) :
    Reads 64 (contentType outside.decodeText 64) [0xA3] t
      (some ("application/vnd.wap.multipart.mixed", [])) := by
  refine Reads.peek_bind ?_
  exact (reads_advance [0xA3] t).bind_left (Reads.pure _ _)

/-- A number that needs one group. -/
def oneGroup (b : UInt8) (hb : b < 0x80) : Uintvar :=
  ⟨[b], List.cons_ne_nil _ _, List.forall_mem_singleton.mpr hb, by simp⟩

/-- A message with one part, a text. -/
def onePart : RetrieveConf outside.decodeText 64 where
  head := [Field.messageType, retrieveConf] ++ [Field.contentType, 0xA3]
  message := { messageType := retrieveConf, contentType := some "application/vnd.wap.multipart.mixed" }
  reads body := .cont (List.cons_ne_nil _ _) (reads_messageType {} retrieveConf _)
    (headerRun_contentType (reads_mixed body) _)
  messageType_eq := rfl
  isMultipart := by decide
  count := oneGroup 1 (by decide)
  entries := [⟨oneGroup 1 (by decide), oneGroup 2 (by decide), [0x83], utf8 "hi", by decide, by decide⟩]
  count_eq := rfl

/-- The head of a response that does not say how long the body is. -/
def okHead : List UInt8 :=
  [0x48, 0x54, 0x54, 0x50, 0x2F, 0x31, 0x2E, 0x31, 0x20, 0x32, 0x30, 0x30, 0x20, 0x4F, 0x4B, 13, 10, 13, 10]

def untilClose : Http.Carrier 64 onePart.bytes where
  head := okHead
  headersEnd := 15
  ends := by decide +kernel
  fields := ⟨200, []⟩
  parses := by decide +kernel
  framing := .close rfl rfl

/-- The connection is closed behind the number of the parts. -/
def cutOff : Http.Cut (okHead ++ onePart.declaration) where
  reads := [okHead ++ onePart.declaration]
  reads_ne := by decide
  flatten_eq := List.append_nil _

def cutReply : HttpResponse := ⟨200, none, onePart.declaration⟩

theorem readResponse_cutOff :
    Http.readResponse 64 cutOff.connection config.maxSize = .ok (.ok ⟨200, [], onePart.declaration⟩) := by
  decide +kernel

theorem readReply_cutReply : readReply outside cutReply = .ok onePart.message := rfl

/-- The message is asked for, and is about to be received without its part. -/
def cutRetrieval : List (Prog.Event Call Call.Answer) :=
  [⟨.retrieving 1, ()⟩,
    ⟨.httpGet "u", (.ok cutReply : Except Str HttpResponse)⟩,
    ⟨.updateReceivedMms 1 none none none, (.ok () : Except Str Unit)⟩,
    ⟨.deleteAttachments 1 0, (.ok [] : Except Str (List Str))⟩]

theorem runs_cutRetrieval :
    ∃ k, Prog.Runs State.world withNotification (retrieve outside config notification 1) cutRetrieval
      withNotification (.call (.setStatus 1 "received" none) k) := by
  have hupdate : State.world withNotification (.updateReceivedMms 1 none none none)
      (.ok () : Except Str Unit) withNotification := ⟨rfl, rfl⟩
  have hprune : State.world withNotification (.deleteAttachments 1 0) (.ok [] : Except Str (List Str))
      withNotification := ⟨rfl, rfl⟩
  exact ⟨_, .call rfl (.call rfl (.call hupdate (.call hprune (.refl _ _))))⟩

theorem gets_cutRetrieval (url : Str) (r : HttpResponse)
    (h : ⟨.httpGet url, (.ok r : Except Str HttpResponse)⟩ ∈ cutRetrieval) :
    r = cutReply ∧ Gets cutOff.connection config r := by
  simp only [cutRetrieval, List.mem_cons, List.not_mem_nil, or_false] at h
  rcases h with h | h | h | h
  · cases h
  · cases h
    exact ⟨rfl, _, readResponse_cutOff, rfl⟩
  · cases h
  · cases h

theorem partsPlaced_withNotification : PartsPlaced config.attachmentsDir withNotification := by
  intro m index row hrow
  have hnone : withNotification.attachments.get? (m, index) = none := Map.get?_empty _
  rw [hnone] at hrow
  cases hrow

end Sample

theorem allStored_iff_cutOff :
    AllStored Sample.onePart Sample.config 1 Sample.cutRetrieval Sample.withNotification ↔
      Sample.onePart.entries.length ≤ 256 ∧ Sample.onePart.bytes = Sample.onePart.bytes ∧
        (Sample.untilClose.framing.announced = true ∨
          Sample.untilClose.needed <+: Sample.okHead ++ Sample.onePart.declaration) := by
  obtain ⟨k, hrun⟩ := Sample.runs_cutRetrieval
  have hp : Sample.okHead ++ Sample.onePart.declaration <+: Sample.untilClose.bytes := by decide
  have hfits : (Sample.okHead ++ Sample.onePart.declaration).length < 2 ^ 64 := by decide
  exact allStored_iff List.prefix_rfl hp hfits Sample.partsPlaced_withNotification hrun ⟨rfl, rfl⟩
    fun url r h ↦ (Sample.gets_cutRetrieval url r h).2

/-- The response to a retrieval is cut off in front of the part, and the message is received without it. -/
theorem cut_off_received :
    (∃ k, Prog.Runs State.world Sample.withNotification
      (retrieve Sample.outside Sample.config Sample.notification 1) Sample.cutRetrieval
        Sample.withNotification (.call (.setStatus 1 "received" none) k)) ∧
    Sample.okHead ++ Sample.onePart.declaration <+: Sample.untilClose.bytes ∧
    (∀ url r, ⟨.httpGet url, (.ok r : Except Str HttpResponse)⟩ ∈ Sample.cutRetrieval →
      Gets Sample.cutOff.connection Sample.config r) ∧
    ¬ AllStored Sample.onePart Sample.config 1 Sample.cutRetrieval Sample.withNotification := by
  refine ⟨Sample.runs_cutRetrieval, by decide, fun url r h ↦ (Sample.gets_cutRetrieval url r h).2, ?_⟩
  rintro ⟨url, r, message, hmem, hread, ⟨-, hparts⟩, -⟩
  obtain ⟨rfl, -⟩ := Sample.gets_cutRetrieval url r hmem
  cases hread.symm.trans Sample.readReply_cutReply
  have hlength : Sample.onePart.message.parts.length = Sample.onePart.parts.length := congrArg _ hparts
  exact absurd hlength (by decide)

end Modem2Sip.Messages
