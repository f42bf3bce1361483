import Modem2Sip.Gateway.Config
import Modem2Sip.Store.World

/-!
# Text messages

The messaging part of `gateway.rs`: what identifies a received SMS, and how it is stored, passed on
and removed from the modem.
-/

namespace Modem2Sip.Messages

open Text Store

/-- The settings under `sms`, `mms` and `modem` that messages are handled by. -/
structure Config where
  notifySip : Bool
  deleteFromModem : Bool
  deliveryReport : Bool
  countryCode : Option Str
  nationalPrefix : Str
  mmsEnabled : Bool
  autoRetrieve : Bool
  mmsc : Option Str
  maxSize : Nat
  setupCommand : Option Str
  attachmentsDir : Str

def Config.localNumber (cfg : Config) (number : Str) : Str :=
  Gateway.toNational number cfg.countryCode cfg.nationalPrefix

/-- The properties of an SMS object; a timestamp is not empty. -/
structure SmsInfo where
  state : Nat
  pduType : Nat
  number : Str
  text : Str
  data : List UInt8
  timestamp : Option Str
deriving DecidableEq, Repr

/-- An SMS object, and the number of the line it is on. -/
structure Sms where
  path : Str
  info : SmsInfo
  ownNumber : Option Str
deriving DecidableEq, Repr

variable (md5Hex : List UInt8 → Str) (cfg : Config)

/-- Whom it is from, as numbers are written here. -/
def SmsInfo.peer (info : SmsInfo) : Str := cfg.localNumber (Gateway.sanitizeNumber info.number)

/-- `incoming_sms_id`: what the network says of a message, or else the path of its object. -/
def incomingSmsId (path : Str) (info : SmsInfo) (peer : Str) : Str :=
  let digest := md5Hex (utf8 info.text ++ info.data)
  match (info.timestamp.map trim).filter (· != []) with
  | some ts => ts ++ '|' :: peer ++ '|' :: digest
  | none => path ++ '|' :: peer ++ '|' :: digest

/-- The row of a received text. -/
def textMessage (sms : Sms) : NewMessage where
  kind := .sms
  direction := .incoming
  peer := sms.info.peer cfg
  ownNumber := sms.ownNumber
  subject := none
  text := some sms.info.text
  timestamp := sms.info.timestamp
  status := "received"
  externalId := some (incomingSmsId md5Hex sms.path sms.info (sms.info.peer cfg))
  raw := if sms.info.data = [] then none else some sms.info.data

/-- What `handle_text_sms` does once the row is written. -/
def startTasks (sms : Sms) (stored : Option Nat) : Attempt Unit := do
  if stored.isSome && cfg.notifySip then
    Attempt.notifySip (sms.info.peer cfg) sms.info.text
  if cfg.deleteFromModem then
    Attempt.deleteFromModem sms.path

/-- `handle_text_sms`. -/
def handleTextSms (sms : Sms) : Attempt Unit := do
  let stored ← Attempt.insertMessage (textMessage md5Hex cfg sms)
  startTasks cfg sms stored

/-- The tasks that are started. -/
def textTasks (sms : Sms) (stored : Option Nat) : List (Prog.Event Call Call.Answer) :=
  (if stored.isSome && cfg.notifySip then [⟨.notifySip (sms.info.peer cfg) sms.info.text, ()⟩] else []) ++
    if cfg.deleteFromModem then [⟨.deleteFromModem sms.path, ()⟩] else []

variable {md5Hex cfg}

theorem wp_startTasks {sms : Sms} {stored : Option Nat} {s : State}
    {Q : List (Prog.Event Call Call.Answer) → Except Str Unit → State → Prop} :
    Prog.wp State.world (startTasks cfg sms stored) Q s ↔ Q (textTasks cfg sms stored) (.ok ()) s := by
  rw [startTasks, textTasks]
  cases stored.isSome && cfg.notifySip with
  | false =>
      cases cfg.deleteFromModem with
      | false => exact Iff.rfl
      | true => exact ⟨fun h ↦ h () s rfl, by rintro h ⟨⟩ _ rfl; exact h⟩
  | true =>
      cases cfg.deleteFromModem with
      | false => exact ⟨fun h ↦ h () s rfl, by rintro h ⟨⟩ _ rfl; exact h⟩
      | true => exact ⟨fun h ↦ h () s rfl () s rfl, by rintro h ⟨⟩ _ rfl ⟨⟩ _ rfl; exact h⟩

/-- A text is handled: its row could not be written, or it is known or has one and the tasks are
started. -/
def TextHandled (md5Hex : List UInt8 → Str) (cfg : Config) (sms : Sms) (s : State)
    (es : List (Prog.Event Call Call.Answer)) (r : Except Str Unit) (s' : State) : Prop :=
  (∃ e, es = [⟨.insertMessage (textMessage md5Hex cfg sms), .error e⟩] ∧ s' = s ∧ r = .error e) ∨
    ∃ stored messages, s.messages.insertMessage (textMessage md5Hex cfg sms) = (stored, messages) ∧
      es = ⟨.insertMessage (textMessage md5Hex cfg sms), .ok stored⟩ :: textTasks cfg sms stored ∧
        s' = { s with messages := messages } ∧ r = .ok ()

theorem wp_handleTextSms (sms : Sms) (s : State) :
    Prog.wp State.world (handleTextSms md5Hex cfg sms) (TextHandled md5Hex cfg sms s) s := by
  refine Prog.wp_attempt.mpr ?_
  rintro (e | stored) s₁ hW
  · exact .inl ⟨e, rfl, hW, rfl⟩
  · obtain ⟨hstored, rfl⟩ := hW
    exact wp_startTasks.mpr (.inr ⟨stored, _, Prod.ext hstored.symm rfl, rfl, rfl, rfl⟩)

/-! ## Announced again -/

/-- What the network says of a message. -/
def Sms.key (sms : Sms) : Option Str × Str × Str × List UInt8 :=
  (sms.info.timestamp, sms.info.number, sms.info.text, sms.info.data)

/-- The network has given it a time. -/
def Sms.Stamped (sms : Sms) : Prop := ∃ ts, sms.info.timestamp = some ts ∧ trim ts ≠ []

theorem textMessage_externalId_ne_none (md5Hex : List UInt8 → Str) (cfg : Config) (sms : Sms) :
    (textMessage md5Hex cfg sms).externalId ≠ none :=
  Option.some_ne_none _

/-- The path of its object does not matter to a message with a time. -/
theorem known_textMessage_congr {a b : Sms} (ha : a.Stamped) (hkey : a.key = b.key) (t : Messages) :
    t.Known (textMessage md5Hex cfg a) ↔ t.Known (textMessage md5Hex cfg b) := by
  obtain ⟨ts, hts, hne⟩ := ha
  have htimestamp : a.info.timestamp = b.info.timestamp := congrArg Prod.fst hkey
  have hnumber : a.info.number = b.info.number := congrArg (·.2.1) hkey
  have htext : a.info.text = b.info.text := congrArg (·.2.2.1) hkey
  have hdata : a.info.data = b.info.data := congrArg (·.2.2.2) hkey
  have hpeer : a.info.peer cfg = b.info.peer cfg := by rw [SmsInfo.peer, SmsInfo.peer, hnumber]
  have hstamp : (b.info.timestamp.map trim).filter (· != []) = some (trim ts) := by
    rw [← htimestamp, hts, Option.map_some]
    exact Option.filter_some_pos (p := (· != [])) (bne_iff_ne.mpr hne)
  refine Messages.known_congr rfl rfl hpeer (congrArg some htext) htimestamp (congrArg some ?_)
  rw [hpeer, incomingSmsId, incomingSmsId, htimestamp, hstamp, htext, hdata]

theorem TextHandled.known_mono {sms : Sms} {s s' : State} {es : List (Prog.Event Call Call.Answer)}
    {r : Except Str Unit} (h : TextHandled md5Hex cfg sms s es r s') {msg : NewMessage}
    (hknown : s.messages.Known msg) : s'.messages.Known msg := by
  rcases h with ⟨e, -, rfl, -⟩ | ⟨stored, messages, hinsert, -, rfl, -⟩
  · exact hknown
  · have hmono := hknown.insertMessage (textMessage md5Hex cfg sms)
    rwa [hinsert] at hmono

/-- What is handled is known. -/
theorem TextHandled.known {sms : Sms} {s s' : State} {es : List (Prog.Event Call Call.Answer)}
    (h : TextHandled md5Hex cfg sms s es (.ok ()) s') :
    s'.messages.Known (textMessage md5Hex cfg sms) := by
  rcases h with ⟨e, -, -, hr⟩ | ⟨stored, messages, hinsert, -, rfl, -⟩
  · cases hr
  · have hknown := Messages.known_insertMessage (t := s.messages)
      (textMessage_externalId_ne_none md5Hex cfg sms)
    rwa [hinsert] at hknown

/-- A row is written. -/
def storesRow : Prog.Event Call Call.Answer → Bool
  | ⟨.insertMessage _, (.ok (some _) : Except Str (Option Nat))⟩ => true
  | _ => false

/-- The SIP side is told. -/
def notifies : Prog.Event Call Call.Answer → Bool
  | ⟨.notifySip .., _⟩ => true
  | _ => false

/-- A kind of event that comes with a row, if at all. -/
structure WithRow (p : Prog.Event Call Call.Answer → Bool) : Prop where
  failed : ∀ msg e, p ⟨.insertMessage msg, (.error e : Except Str (Option Nat))⟩ = false
  known : ∀ (cfg : Config) sms msg,
    (⟨.insertMessage msg, (.ok none : Except Str (Option Nat))⟩ :: textTasks cfg sms none).countP p = 0
  stored : ∀ (cfg : Config) sms msg id,
    (⟨.insertMessage msg, (.ok (some id) : Except Str (Option Nat))⟩ ::
      textTasks cfg sms (some id)).countP p ≤ 1

theorem withRow_storesRow : WithRow storesRow where
  failed msg e := rfl
  known cfg sms msg := by
    rw [textTasks]
    cases cfg.deleteFromModem with
    | false => rfl
    | true => rfl
  stored cfg sms msg id := by
    rw [textTasks, Option.isSome_some, Bool.true_and]
    cases cfg.notifySip with
    | false => cases cfg.deleteFromModem <;> exact Nat.le_refl 1
    | true => cases cfg.deleteFromModem <;> exact Nat.le_refl 1

theorem withRow_notifies : WithRow notifies where
  failed msg e := rfl
  known cfg sms msg := by
    rw [textTasks]
    cases cfg.deleteFromModem with
    | false => rfl
    | true => rfl
  stored cfg sms msg id := by
    rw [textTasks, Option.isSome_some, Bool.true_and]
    cases cfg.notifySip with
    | false => cases cfg.deleteFromModem <;> exact Nat.zero_le 1
    | true => cases cfg.deleteFromModem <;> exact Nat.le_refl 1

/-- One announcement: a message that is known brings none of these events, one that is not brings
one at most and is known from then on. -/
theorem TextHandled.countP_le {p : Prog.Event Call Call.Answer → Bool} (hp : WithRow p) {sms : Sms}
    {s s' : State} {es : List (Prog.Event Call Call.Answer)} {r : Except Str Unit}
    (h : TextHandled md5Hex cfg sms s es r s') :
    es.countP p = 0 ∨ (¬ s.messages.Known (textMessage md5Hex cfg sms) ∧
      s'.messages.Known (textMessage md5Hex cfg sms) ∧ es.countP p ≤ 1) := by
  rcases h with ⟨e, rfl, rfl, rfl⟩ | ⟨stored, messages, hinsert, rfl, rfl, rfl⟩
  · left
    rw [List.countP_singleton, hp.failed]
    rfl
  · by_cases hknown : s.messages.Known (textMessage md5Hex cfg sms)
    · left
      rw [Messages.insertMessage_of_known hknown] at hinsert
      cases hinsert
      exact hp.known cfg sms _
    · right
      have hnow := Messages.known_insertMessage (t := s.messages)
        (textMessage_externalId_ne_none md5Hex cfg sms)
      rw [hinsert] at hnow
      rw [Messages.insertMessage_of_not_known hknown] at hinsert
      cases hinsert
      exact ⟨hknown, hnow, hp.stored cfg sms _ _⟩

/-- The announcements of a message bring one of these events at most, and none if it is known. -/
theorem countP_announced_le {p : Prog.Event Call Call.Answer → Bool} (hp : WithRow p) {s s' : State}
    {runs : List (Sms × List (Prog.Event Call Call.Answer) × Except Str Unit)}
    (h : Prog.Series State.world (handleTextSms md5Hex cfg) s runs s')
    (hstamped : ∀ run ∈ runs, run.1.Stamped) (key : Option Str × Str × Str × List UInt8) :
    ((runs.filter fun run ↦ run.1.key = key).flatMap (·.2.1)).countP p ≤ 1 ∧
      ∀ sms : Sms, sms.Stamped → sms.key = key → s.messages.Known (textMessage md5Hex cfg sms) →
        ((runs.filter fun run ↦ run.1.key = key).flatMap (·.2.1)).countP p = 0 := by
  induction h with
  | nil s => exact ⟨Nat.zero_le 1, fun _ _ _ _ ↦ rfl⟩
  | @cons s s₁ s₂ sms es r runs hrun _ ih =>
      have hhandled := Prog.wp_iff.mp (wp_handleTextSms sms s) es r s₁ hrun
      obtain ⟨hsms, hrest⟩ := List.forall_mem_cons.mp hstamped
      obtain ⟨hone, hnone⟩ := ih hrest
      by_cases hkey : sms.key = key
      · rw [List.filter_cons_of_pos (by simpa using hkey), List.flatMap_cons, List.countP_append]
        rcases hhandled.countP_le hp with hzero | ⟨hnew, hknown, hle⟩
        · rw [hzero, Nat.zero_add]
          exact ⟨hone, fun sms' hsms' hkey' hknown ↦
            hnone sms' hsms' hkey' (hhandled.known_mono hknown)⟩
        · rw [hnone sms hsms hkey hknown, Nat.add_zero]
          refine ⟨hle, fun sms' hsms' hkey' hknown' ↦ absurd hknown' ?_⟩
          rwa [known_textMessage_congr hsms' (hkey'.trans hkey.symm)]
      · rw [List.filter_cons_of_neg (by simpa using hkey)]
        refine ⟨hone, fun sms' hsms' hkey' hknown ↦ hnone sms' hsms' hkey' (hhandled.known_mono hknown)⟩

/-- What has been handled is known at the end. -/
theorem known_of_series {s s' : State}
    {runs : List (Sms × List (Prog.Event Call Call.Answer) × Except Str Unit)}
    (h : Prog.Series State.world (handleTextSms md5Hex cfg) s runs s') :
    (∀ msg, s.messages.Known msg → s'.messages.Known msg) ∧
      ∀ run ∈ runs, run.2.2 = .ok () → s'.messages.Known (textMessage md5Hex cfg run.1) := by
  induction h with
  | nil s => exact ⟨fun _ h ↦ h, nofun⟩
  | @cons s s₁ s₂ sms es r runs hrun _ ih =>
      have hhandled := Prog.wp_iff.mp (wp_handleTextSms sms s) es r s₁ hrun
      refine ⟨fun msg hknown ↦ ih.1 msg (hhandled.known_mono hknown),
        List.forall_mem_cons.mpr ⟨?_, ih.2⟩⟩
      rintro rfl
      exact ih.1 _ hhandled.known

/-- What is known is not stored again. -/
theorem messages_of_known {s s' : State}
    {runs : List (Sms × List (Prog.Event Call Call.Answer) × Except Str Unit)}
    (h : Prog.Series State.world (handleTextSms md5Hex cfg) s runs s')
    (hknown : ∀ run ∈ runs, s.messages.Known (textMessage md5Hex cfg run.1)) :
    s'.messages = s.messages := by
  induction h with
  | nil s => rfl
  | @cons s s₁ s₂ sms es r runs hrun _ ih =>
      obtain ⟨hsms, hrest⟩ := List.forall_mem_cons.mp hknown
      have hfirst : s₁.messages = s.messages := by
        rcases Prog.wp_iff.mp (wp_handleTextSms sms s) es r s₁ hrun with
          ⟨e, -, rfl, -⟩ | ⟨stored, messages, hinsert, -, rfl, -⟩
        · rfl
        · rw [Messages.insertMessage_of_known hsms] at hinsert
          exact (congrArg Prod.snd hinsert).symm
      rw [ih (hfirst ▸ hrest), hfirst]

/-- Received texts may be announced again: in any order, any number of times and under any object
paths, a message has one row and one notification at most, and once it has been handled it changes the
table no more. -/
theorem reannounced_texts {s s' : State}
    {runs : List (Sms × List (Prog.Event Call Call.Answer) × Except Str Unit)}
    (h : Prog.Series State.world (handleTextSms md5Hex cfg) s runs s')
    (hstamped : ∀ run ∈ runs, run.1.Stamped) :
    (∀ key, ((runs.filter fun run ↦ run.1.key = key).flatMap (·.2.1)).countP storesRow ≤ 1 ∧
      ((runs.filter fun run ↦ run.1.key = key).flatMap (·.2.1)).countP notifies ≤ 1) ∧
    ∀ again s'', Prog.Series State.world (handleTextSms md5Hex cfg) s' again s'' →
      (∀ run ∈ again, ∃ run' ∈ runs, run'.1.key = run.1.key ∧ run'.2.2 = .ok ()) →
        s''.messages = s'.messages := by
  refine ⟨fun key ↦ ⟨(countP_announced_le withRow_storesRow h hstamped key).1,
    (countP_announced_le withRow_notifies h hstamped key).1⟩, fun again s'' hagain hhandled ↦ ?_⟩
  refine messages_of_known hagain fun run hrun ↦ ?_
  obtain ⟨run', hrun', hkey, hok⟩ := hhandled run hrun
  have hknown := (known_of_series h).2 run' hrun' hok
  rwa [known_textMessage_congr (hstamped run' hrun') hkey] at hknown

namespace Sample

def config : Config where
  notifySip := true
  deleteFromModem := false
  deliveryReport := false
  countryCode := some "82"
  nationalPrefix := "0"
  mmsEnabled := true
  autoRetrieve := true
  mmsc := some "http://mmsc"
  maxSize := 300000
  setupCommand := none
  attachmentsDir := "attachments"

/-- A text under the path that its object has at the moment. -/
def hello (path : Str) : Sms where
  path := path
  info :=
    { state := 3, pduType := 1, number := "+821012345678", text := "hello", data := [],
      timestamp := some "2026-07-31T15:24:46+09" }
  ownNumber := none

/-- Some function in the place of the digest. -/
def digest (bytes : List UInt8) : Str := dec bytes.length

/-- The store once the text is in it. -/
def withHello : State :=
  { State.empty with
    messages := (Messages.empty.insertMessage (textMessage digest config (hello "/SMS/4"))).2 }

/-- It is announced, and once more under another path after a restart. -/
def announcements : List (Sms × List (Prog.Event Call Call.Answer) × Except Str Unit) :=
  [(hello "/SMS/4",
      [⟨.insertMessage (textMessage digest config (hello "/SMS/4")), (.ok (some 1) : Except Str (Option Nat))⟩,
        ⟨.notifySip "01012345678" "hello", ()⟩], .ok ()),
    (hello "/SMS/11",
      [⟨.insertMessage (textMessage digest config (hello "/SMS/11")), (.ok none : Except Str (Option Nat))⟩],
      .ok ())]

theorem announcements_series :
    Prog.Series State.world (handleTextSms digest config) .empty announcements withHello := by
  have hrow : (Messages.empty.insertMessage (textMessage digest config (hello "/SMS/4"))).1 = some 1 := by
    decide
  have hknown : withHello.messages.Known (textMessage digest config (hello "/SMS/11")) := by
    decide
  have hfirst : State.world .empty (.insertMessage (textMessage digest config (hello "/SMS/4")))
      (.ok (some 1) : Except Str (Option Nat)) withHello := ⟨hrow.symm, rfl⟩
  have hagain := State.world_insertMessage_known hknown
  have htasks : startTasks config (hello "/SMS/4") (some 1) =
      .call (.notifySip "01012345678" "hello") fun _ ↦ .done (.ok ()) := rfl
  refine .cons (.call hfirst ?_) (.cons (.call hagain ?_) (.nil withHello))
  · change Prog.Runs _ _ (startTasks config (hello "/SMS/4") (some 1)) _ _ _
    rw [htasks]
    exact .call rfl (.refl _ _)
  · exact .refl _ _

end Sample

theorem reannounced_texts_hello :
    (∀ key,
      ((Sample.announcements.filter fun run ↦ run.1.key = key).flatMap (·.2.1)).countP storesRow ≤ 1 ∧
      ((Sample.announcements.filter fun run ↦ run.1.key = key).flatMap (·.2.1)).countP notifies ≤ 1) ∧
    ∀ again s'',
      Prog.Series State.world (handleTextSms Sample.digest Sample.config) Sample.withHello again s'' →
        (∀ run ∈ again, ∃ run' ∈ Sample.announcements, run'.1.key = run.1.key ∧ run'.2.2 = .ok ()) →
          s''.messages = Sample.withHello.messages := by
  have hstamped : ∀ run ∈ Sample.announcements, run.1.Stamped := by
    rw [Sample.announcements]
    simp only [List.forall_mem_cons]
    exact ⟨⟨_, rfl, by decide⟩, ⟨_, rfl, by decide⟩, List.forall_mem_nil _⟩
  exact reannounced_texts Sample.announcements_series hstamped

end Modem2Sip.Messages
