import Modem2Sip.Messages.Manager

/-!
# What a retrieval leaves

`store_retrieved` overwrites the parts of a message in place and drops the tail of a longer run
afterwards.  However often it was cut, the run that comes to its end leaves the parts of its own message
and nothing else.
-/

namespace Modem2Sip.Messages

open Text Store Mms

/-! ## Beside the message -/

section Own

variable (dir : Str) (id : Nat)

/-- The file is in the directory of the message. -/
def InDir (path : Str) : Prop := ∃ name, path = joinPath (attachmentDir dir id) name

/-- The file is that of the part with the index. -/
def PartPath (index : Nat) (path : Str) : Prop :=
  ∃ base, path = joinPath (attachmentDir dir id) (dec index ++ '_' :: base)

/-- A call that only reaches what belongs to the message. -/
def Own : Call → Prop
  | .updateReceivedMms m .. | .setStatus m .. | .deleteAttachments m _ => m = id
  | .upsertAttachment m index row => m = id ∧ 0 < index ∧ PartPath dir id index row.path
  | .writeFile path _ | .removeFile path => InDir dir id path
  | .createDir _ => True
  | _ => False

/-- A call that puts a part of the message where it belongs. -/
def Adds : Call → Prop
  | .createDir _ => True
  | .writeFile path _ => InDir dir id path
  | .upsertAttachment m index row => m = id ∧ 0 < index ∧ PartPath dir id index row.path
  | _ => False

/-- The parts of the message are where they belong, and all that is not of the message is as it was. -/
structure Apart (s₀ s : State) : Prop where
  placed : ∀ index row, s.attachments.get? (id, index) = some row → 0 < index ∧ PartPath dir id index row.path
  messages : ∀ m, m ≠ id → s.messages.row? m = s₀.messages.row? m
  attachments : ∀ m, m ≠ id → ∀ index, s.attachments.get? (m, index) = s₀.attachments.get? (m, index)
  files : ∀ m, m ≠ id → ∀ name, s.files.get? (joinPath (attachmentDir dir m) name) =
    s₀.files.get? (joinPath (attachmentDir dir m) name)

end Own

variable {dir : Str} {id : Nat} {s₀ s s' : State}

theorem PartPath.inDir {index : Nat} {path : Str} (h : PartPath dir id index path) : InDir dir id path := by
  obtain ⟨base, rfl⟩ := h
  exact ⟨_, rfl⟩

theorem InDir.ne {path : Str} (h : InDir dir id path) {m : Nat} (hm : m ≠ id) (name : Str) :
    joinPath (attachmentDir dir m) name ≠ path := by
  rintro rfl
  obtain ⟨name', h⟩ := h
  exact hm (eq_of_joinPath_attachmentDir h)

/-- Without parts of the message, all is where it belongs. -/
theorem Apart.refl (h : ∀ index, s.attachments.get? (id, index) = none) : Apart dir id s s where
  placed index row hrow := by
    rw [h index] at hrow
    cases hrow
  messages _ _ := rfl
  attachments _ _ _ := rfl
  files _ _ _ := rfl

/-- Only the messages change, and only this one of them. -/
theorem Apart.withMessages (h : Apart dir id s₀ s) {messages : Messages}
    (hmessages : ∀ m, m ≠ id → messages.row? m = s.messages.row? m) :
    Apart dir id s₀ { s with messages := messages } where
  placed := h.placed
  messages m hm := (hmessages m hm).trans (h.messages m hm)
  attachments := h.attachments
  files := h.files

/-- Only the files change, and only in the directory of the message. -/
theorem Apart.withFiles (h : Apart dir id s₀ s) {path : Str} (hpath : InDir dir id path)
    (hmessages : s'.messages = s.messages) (hattachments : s'.attachments = s.attachments)
    (hfiles : ∀ p, p ≠ path → s'.files.get? p = s.files.get? p) : Apart dir id s₀ s' where
  placed := by
    rw [hattachments]
    exact h.placed
  messages m hm := by
    rw [hmessages]
    exact h.messages m hm
  attachments m hm index := by
    rw [hattachments]
    exact h.attachments m hm index
  files m hm name := (hfiles _ (hpath.ne hm name)).trans (h.files m hm name)

theorem Apart.step {c : Call} {r : c.Answer} (h : Apart dir id s₀ s) (hc : Own dir id c)
    (hW : State.world s c r s') : Apart dir id s₀ s' := by
  cases c with
  | updateReceivedMms m subject text timestamp =>
      cases hc
      cases r with
      | error e => exact hW ▸ h
      | ok u =>
          rw [hW.2]
          refine h.withMessages fun m hm ↦ ?_
          rw [Messages.row?_updateReceivedMms, if_neg hm]
  | setStatus m status error =>
      cases hc
      cases r with
      | error e => exact hW ▸ h
      | ok u =>
          rw [hW.2]
          refine h.withMessages fun m hm ↦ ?_
          rw [Messages.row?_setStatus, if_neg hm]
  | upsertAttachment m index row =>
      obtain ⟨rfl, hindex, hpath⟩ := hc
      cases r with
      | error e => exact hW.1 ▸ h
      | ok u =>
          rw [hW.1.2]
          refine ⟨fun index' row' hrow ↦ ?_, h.messages, fun m' hm' index' ↦ ?_, h.files⟩
          · rw [Map.get?_insert] at hrow
            split at hrow
            · rename_i heq
              cases heq
              cases hrow
              exact ⟨hindex, hpath⟩
            · exact h.placed index' row' hrow
          · rw [Map.get?_insert, if_neg fun heq ↦ hm' (congrArg Prod.fst heq)]
            exact h.attachments m' hm' index'
  | deleteAttachments m keep =>
      cases hc
      cases r with
      | error e => exact hW ▸ h
      | ok paths =>
          rw [hW.2]
          refine ⟨fun index row hrow ↦ ?_, h.messages, fun m' hm' index ↦ ?_, h.files⟩
          · rw [State.pruned, Map.get?_retain] at hrow
            exact h.placed index row (Option.filter_eq_some_iff.mp hrow).1
          · rw [← h.attachments m' hm' index, State.pruned, Map.get?_retain]
            cases s.attachments.get? (m', index) with
            | none => rfl
            | some row => exact Option.filter_some_pos (by simp [hm'])
  | writeFile path data =>
      cases r with
      | error e => exact h.withFiles hc hW.1 hW.2.1 hW.2.2
      | ok u =>
          change s' = _ at hW
          rw [hW]
          exact h.withFiles hc rfl rfl fun p hp ↦ by rw [Map.get?_insert, if_neg hp]
  | removeFile path =>
      cases r with
      | error e => exact hW ▸ h
      | ok u =>
          rw [hW.2]
          exact h.withFiles hc rfl rfl fun p hp ↦ by rw [Map.get?_erase, if_neg hp]
  | createDir path =>
      change s' = s at hW
      exact hW ▸ h
  | _ => cases hc

/-! ## Every point of a retrieval -/

variable {x : Outside} {cfg : Config}

/-- The row of a part. -/
def partRow (x : Outside) (cfg : Config) (id index : Nat) (part : MmsPart) : AttachmentRow where
  contentType := part.contentType
  name := part.name
  contentId := part.contentId
  size := part.data.length
  path := joinPath (attachmentDir cfg.attachmentsDir id)
    (sanitizeName x.isAlphanumeric part.name index part.contentType)

theorem partPath_partRow (x : Outside) (cfg : Config) (id index : Nat) (part : MmsPart) :
    PartPath cfg.attachmentsDir id index (partRow x cfg id index part).path := ⟨_, rfl⟩

/-- A part of the message is stored. -/
def addPart (x : Outside) (cfg : Config) (id index : Nat) (part : MmsPart) : Attempt Unit :=
  Attempt.addAttachment x.isAlphanumeric cfg.attachmentsDir id index part.contentType part.name
    part.contentId part.data

theorem Adds.own {c : Call} (h : Adds dir id c) : Own dir id c := by
  cases c with
  | createDir | writeFile | upsertAttachment => exact h
  | _ => cases h

theorem adds_addPart {index : Nat} (hindex : 0 < index) (part : MmsPart) :
    Prog.Only (Adds cfg.attachmentsDir id) (addPart x cfg id index part) := by
  refine Prog.Only.attempt (Prog.Only.ask trivial) fun _ ↦ ?_
  refine Prog.Only.attempt (Prog.Only.ask ⟨_, rfl⟩) fun _ ↦ ?_
  exact Prog.Only.ask ⟨rfl, hindex, partPath_partRow x cfg id index part⟩

theorem adds_storeParts (parts : List MmsPart) (index : Nat) :
    Prog.Only (Adds cfg.attachmentsDir id) (storeParts x cfg id index parts) := by
  induction parts generalizing index with
  | nil => trivial
  | cons part parts ih =>
      rw [storeParts]
      split
      · exact ih index
      · exact (adds_addPart (Nat.succ_pos index) part).attempt fun _ ↦ ih (index + 1)

theorem only_storeParts (parts : List MmsPart) (index : Nat) :
    Prog.Only (Own cfg.attachmentsDir id) (storeParts x cfg id index parts) :=
  (adds_storeParts parts index).mono fun _ h ↦ h.own

theorem only_removeFiles {paths : List Str} (h : ∀ path ∈ paths, InDir dir id path) :
    Prog.Only (Own dir id) (Attempt.removeFiles paths) := by
  induction paths with
  | nil => trivial
  | cons path paths ih =>
      obtain ⟨hpath, hpaths⟩ := List.forall_mem_cons.mp h
      exact ⟨hpath, fun _ ↦ ih hpaths⟩

theorem Apart.always {α : Type} {p : Act α} (h : Apart dir id s₀ s) (hp : p.Only (Own dir id)) :
    p.Always State.world (Apart dir id s₀) s :=
  Prog.Always.of_only hp (fun _ _ _ _ hs hc hW ↦ hs.step hc hW) h

/-- The files that are removed are those of the parts that were dropped. -/
theorem Apart.inDir_stalePaths (h : Apart dir id s₀ s) (keep : Nat) :
    ∀ path ∈ s.stalePaths id keep, ∃ index, keep < index ∧ PartPath dir id index path := by
  intro path hpath
  obtain ⟨⟨⟨m, index⟩, row⟩, hmem, rfl⟩ := List.mem_map.mp hpath
  obtain ⟨hentry, hkeep⟩ := List.mem_filter.mp hmem
  rw [Bool.and_eq_true, beq_iff_eq, decide_eq_true_eq] at hkeep
  obtain ⟨rfl, hkeep⟩ := hkeep
  have hget : s.attachments.get? (m, index) = some row := AList.mem_lookup_iff.mpr hentry
  exact ⟨index, hkeep, (h.placed index row hget).2⟩

theorem Apart.always_pruneAttachments (h : Apart dir id s₀ s) (keep : Nat) :
    Prog.Always State.world (Apart dir id s₀) (Attempt.pruneAttachments id keep) s := by
  refine Prog.Always.attempt (h.always (Prog.Only.ask rfl)) ?_
  rintro r s' hW paths rfl
  refine (h.step (c := .deleteAttachments id keep) rfl hW).always (only_removeFiles fun path hpath ↦ ?_)
  rw [hW.1] at hpath
  obtain ⟨index, -, hindex⟩ := h.inDir_stalePaths keep path hpath
  exact hindex.inDir

/-- However a retrieval is cut, nothing but the message has changed. -/
theorem Apart.always_storeRetrieved (h : Apart cfg.attachmentsDir id s₀ s) (message : MmsMessage) :
    Prog.Always State.world (Apart cfg.attachmentsDir id s₀) (storeRetrieved x cfg id message) s := by
  refine Prog.Always.attempt (h.always (Prog.Only.ask rfl)) ?_
  rintro r s₁ hW _ rfl
  have h₁ := h.step (c := .updateReceivedMms id _ _ _) rfl hW
  have hparts := h₁.always (only_storeParts (x := x) message.parts 0)
  refine Prog.Always.attempt hparts (Prog.wp_mono hparts.wp fun _ _ s₂ h₂ index _ ↦ ?_)
  have hprune := h₂.always_pruneAttachments index
  refine Prog.Always.attempt hprune (Prog.wp_mono hprune.wp fun _ _ s₃ h₃ _ _ ↦ ?_)
  exact h₃.always (Prog.Only.ask rfl)

/-! ## What the run stores that comes to its end -/

/-- The parts that are stored. -/
def contentParts (parts : List MmsPart) : List MmsPart := parts.filter fun part ↦ !part.isSmil

/-- The part is stored under the index, with its bytes. -/
def Stored (x : Outside) (cfg : Config) (id : Nat) (s : State) (index : Nat) (part : MmsPart) : Prop :=
  s.attachments.get? (id, index) = some (partRow x cfg id index part) ∧
    s.files.get? (partRow x cfg id index part).path = some part.data

/-- Whatever the parts are called, a file belongs to one index. -/
theorem PartPath.ne_partRow {index index' : Nat} {path : Str} (h : PartPath cfg.attachmentsDir id index path)
    (hne : index' ≠ index) (part : MmsPart) : (partRow x cfg id index' part).path ≠ path := by
  rintro rfl
  obtain ⟨base, h⟩ := h
  exact hne (eq_of_joinPath_sanitizeName h)

theorem wp_addPart (index : Nat) (part : MmsPart) :
    Prog.wp State.world (addPart x cfg id index part)
      (fun _ r s' ↦ r = .ok () → Stored x cfg id s' index part ∧
        ∀ i, i ≠ index → ∀ part', Stored x cfg id s i part' → Stored x cfg id s' i part') s := by
  refine Prog.wp_attempt_call.mpr ?_
  rintro (e | _) s₁ hdir
  · exact nofun
  cases hdir
  refine Prog.wp_attempt_call.mpr ?_
  rintro (e | _) s₂ hfile
  · exact nofun
  cases hfile
  rintro (e | _) s₃ hrow
  · exact nofun
  rw [hrow.1.2]
  have hpath := partPath_partRow x cfg id index part
  refine fun _ ↦ ⟨⟨Map.get?_insert_self _ _ _, Map.get?_insert_self _ _ _⟩, fun i hi part' hstored ↦ ⟨?_, ?_⟩⟩
  · rw [Map.get?_insert, if_neg fun heq ↦ hi (congrArg Prod.snd heq)]
    exact hstored.1
  · exact (Map.get?_insert _ _ _ _).trans ((if_neg (hpath.ne_partRow hi part')).trans hstored.2)

/-- The parts are stored in their order, and what was stored before them stays. -/
theorem wp_storeParts (parts : List MmsPart) (index : Nat) :
    Prog.wp State.world (storeParts x cfg id index parts)
      (fun _ r s' ↦ ∀ k, r = .ok k → k = index + (contentParts parts).length ∧
        (∀ j part, (contentParts parts)[j]? = some part → Stored x cfg id s' (index + j + 1) part) ∧
          ∀ i, i ≤ index → ∀ part, Stored x cfg id s i part → Stored x cfg id s' i part) s := by
  induction parts generalizing index s with
  | nil =>
      rintro k ⟨⟩
      exact ⟨rfl, nofun, fun _ _ _ h ↦ h⟩
  | cons part parts ih =>
      rw [storeParts]
      split
      · rename_i hsmil
        have hparts : contentParts (part :: parts) = contentParts parts :=
          List.filter_cons_of_neg (by simp [hsmil])
        rw [hparts]
        exact ih index
      · rename_i hsmil
        have hparts : contentParts (part :: parts) = part :: contentParts parts :=
          List.filter_cons_of_pos (by simp [hsmil])
        refine Prog.wp_attempt.mpr (Prog.wp_mono (wp_addPart (index + 1) part) ?_)
        rintro es (e | _) s₁ hfirst
        · exact nofun
        obtain ⟨hstored, hkeep⟩ := hfirst rfl
        refine Prog.wp_mono (ih (index + 1)) fun es' r s' hrest k hk ↦ ?_
        obtain ⟨hlength, hall, hbefore⟩ := hrest k hk
        rw [hparts]
        refine ⟨?_, fun j part' hj ↦ ?_, fun i hi part' h ↦ ?_⟩
        · rw [hlength, List.length_cons, Nat.add_assoc, Nat.add_comm 1]
        · cases j with
          | zero =>
              cases hj
              exact hbefore (index + 1) (Nat.le_refl _) part hstored
          | succ j =>
              have hrest := hall j part' hj
              rwa [Nat.add_right_comm index 1 j] at hrest
        · refine hbefore i (Nat.le_succ_of_le hi) part' (hkeep i ?_ part' h)
          exact Nat.ne_of_lt (Nat.lt_succ_of_le hi)

theorem wp_removeFiles {paths : List Str} {keep : Nat}
    (h : ∀ path ∈ paths, ∃ index, keep < index ∧ PartPath cfg.attachmentsDir id index path) :
    Prog.wp State.world (Attempt.removeFiles paths)
      (fun _ _ s' ↦ s'.attachments = s.attachments ∧
        ∀ i, i ≤ keep → ∀ part, Stored x cfg id s i part → Stored x cfg id s' i part) s := by
  induction paths generalizing s with
  | nil => exact ⟨rfl, fun _ _ _ h ↦ h⟩
  | cons path paths ih =>
      obtain ⟨⟨index, hindex, hpath⟩, hpaths⟩ := List.forall_mem_cons.mp h
      rintro (e | _) s₁ hW
      · cases hW
        exact ih hpaths
      · cases hW.2
        refine Prog.wp_mono (ih hpaths) fun es r s' ⟨hattachments, hkeep⟩ ↦ ⟨hattachments, ?_⟩
        refine fun i hi part hstored ↦ hkeep i hi part ⟨hstored.1, ?_⟩
        have hne : (partRow x cfg id i part).path ≠ path :=
          hpath.ne_partRow (Nat.ne_of_lt (Nat.lt_of_le_of_lt hi hindex)) part
        exact (Map.get?_erase _ _ _).trans ((if_neg hne).trans hstored.2)

/-- The tail is dropped, and the parts before it stay. -/
theorem wp_pruneAttachments (h : Apart cfg.attachmentsDir id s₀ s) (keep : Nat) :
    Prog.wp State.world (Attempt.pruneAttachments id keep)
      (fun _ r s' ↦ r = .ok () → (∀ i, keep < i → s'.attachments.get? (id, i) = none) ∧
        ∀ i, i ≤ keep → ∀ part, Stored x cfg id s i part → Stored x cfg id s' i part) s := by
  refine Prog.wp_attempt_call.mpr ?_
  rintro (e | paths) s₁ hW
  · exact nofun
  cases hW.2
  have hpaths := h.inDir_stalePaths keep
  rw [← hW.1] at hpaths
  refine Prog.wp_mono (wp_removeFiles (x := x) hpaths) fun es r s' ⟨hattachments, hkeep⟩ _ ↦ ⟨fun i hi ↦ ?_, ?_⟩
  · rw [hattachments, State.pruned, Map.get?_retain]
    exact Option.filter_eq_none_iff.mpr fun _ _ ↦ by simp [hi]
  · refine fun i hi part hstored ↦ hkeep i hi part ⟨?_, hstored.2⟩
    rw [State.pruned, Map.get?_retain, hstored.1]
    exact Option.filter_some_pos (by simp [hi])

/-- The attachments of the message are these parts, numbered from one on. -/
structure Holds (x : Outside) (cfg : Config) (id : Nat) (parts : List MmsPart) (s : State) : Prop where
  zero : s.attachments.get? (id, 0) = none
  rows : ∀ i, s.attachments.get? (id, i + 1) = parts[i]?.map (partRow x cfg id (i + 1))
  files : ∀ i part, parts[i]? = some part → s.files.get? (partRow x cfg id (i + 1) part).path = some part.data

/-- Once the parts are stored and the tail is dropped, there is nothing else. -/
theorem wp_pruneAttachments_holds (h : Apart cfg.attachmentsDir id s₀ s) {parts : List MmsPart}
    (hstored : ∀ j part, (contentParts parts)[j]? = some part → Stored x cfg id s (j + 1) part) :
    Prog.wp State.world (Attempt.pruneAttachments id (contentParts parts).length)
      (fun _ r s' ↦ r = .ok () → Holds x cfg id (contentParts parts) s') s := by
  have hprune := (h.always_pruneAttachments (contentParts parts).length).wp
  refine Prog.wp_mono (Prog.wp_and hprune (wp_pruneAttachments (x := x) h (contentParts parts).length)) ?_
  rintro es r s' ⟨h', hpruned⟩ hr
  obtain ⟨hdropped, hkeep⟩ := hpruned hr
  have hpart : ∀ i part, (contentParts parts)[i]? = some part → Stored x cfg id s' (i + 1) part :=
    fun i part hi ↦ hkeep (i + 1) (List.getElem?_eq_some_iff.mp hi).1 part (hstored i part hi)
  refine ⟨?_, fun i ↦ ?_, fun i part hi ↦ (hpart i part hi).2⟩
  · refine Option.eq_none_iff_forall_ne_some.mpr fun row hrow ↦ ?_
    exact absurd (h'.placed 0 row hrow).1 (Nat.lt_irrefl 0)
  · cases hi : (contentParts parts)[i]? with
    | none => exact hdropped (i + 1) (Nat.lt_succ_of_le (List.getElem?_eq_none_iff.mp hi))
    | some part => exact (hpart i part hi).1

/-- The parts of a message are where they belong once all of them are stored. -/
theorem wp_storeParts_stored (h : Apart cfg.attachmentsDir id s₀ s) (parts : List MmsPart) :
    Prog.wp State.world (storeParts x cfg id 0 parts)
      (fun _ r s' ↦ ∀ k, r = .ok k → Apart cfg.attachmentsDir id s₀ s' ∧ k = (contentParts parts).length ∧
        ∀ j part, (contentParts parts)[j]? = some part → Stored x cfg id s' (j + 1) part) s := by
  have hparts := (h.always (only_storeParts (x := x) parts 0)).wp
  refine Prog.wp_mono (Prog.wp_and hparts (wp_storeParts parts 0)) ?_
  rintro es r s' ⟨h', hstored⟩ k hr
  obtain ⟨hk, hall, -⟩ := hstored k hr
  rw [Nat.zero_add] at hk
  refine ⟨h', hk, fun j part hj ↦ ?_⟩
  have hat := hall j part hj
  rwa [Nat.zero_add] at hat

theorem wp_storeRetrieved (h : Apart cfg.attachmentsDir id s₀ s) (message : MmsMessage) :
    Prog.wp State.world (storeRetrieved x cfg id message)
      (fun _ r s' ↦ r = .ok () → Holds x cfg id (contentParts message.parts) s') s := by
  refine Prog.wp_attempt_call.mpr ?_
  rintro (e | _) s₁ hupdate
  · exact nofun
  have h₁ := h.step (c := .updateReceivedMms id _ _ _) rfl hupdate
  refine Prog.wp_attempt.mpr (Prog.wp_mono (wp_storeParts_stored h₁ message.parts) ?_)
  rintro es (e | k) s₂ hparts
  · exact nofun
  obtain ⟨h₂, rfl, hstored⟩ := hparts k rfl
  refine Prog.wp_attempt.mpr (Prog.wp_mono (wp_pruneAttachments_holds h₂ hstored) ?_)
  rintro es' (e | _) s₃ hholds
  · exact nofun
  rintro (e | _) s₄ hstatus
  · exact nofun
  cases hstatus.2
  exact fun _ ↦ ⟨(hholds rfl).zero, (hholds rfl).rows, (hholds rfl).files⟩

/-- After any retrievals of a message, complete or cut anywhere, one that comes to its end leaves the
parts of its message and their files, and all that is not of the message has stayed as it was. -/
theorem holds_of_storeRetrieved {es : List (Prog.Event Call Call.Answer)} {message : MmsMessage} {s₁ s₂ : State}
    (hnone : ∀ index, s₀.attachments.get? (id, index) = none)
    (htries : Prog.Tries State.world (storeRetrieved x cfg id) s₀ s₁)
    (hrun : Prog.Runs State.world s₁ (storeRetrieved x cfg id message) es s₂ (.done (.ok ()))) :
    Holds x cfg id (contentParts message.parts) s₂ ∧
      ∀ m, m ≠ id → s₂.messages.row? m = s₀.messages.row? m ∧
        (∀ index, s₂.attachments.get? (m, index) = s₀.attachments.get? (m, index)) ∧
        ∀ name, s₂.files.get? (joinPath (attachmentDir cfg.attachmentsDir m) name) =
          s₀.files.get? (joinPath (attachmentDir cfg.attachmentsDir m) name) := by
  have h₁ : Apart cfg.attachmentsDir id s₀ s₁ :=
    htries.invariant (fun message' s h ↦ h.always_storeRetrieved message') (Apart.refl hnone)
  have h₂ := h₁.always_storeRetrieved (x := x) message es s₂ _ hrun
  refine ⟨Prog.wp_iff.mp (wp_storeRetrieved h₁ message) es _ s₂ hrun rfl, fun m hm ↦ ?_⟩
  exact ⟨h₂.messages m hm, h₂.attachments m hm, h₂.files m hm⟩

namespace Sample

/-- A notification as it is stored. -/
def notified : NewMessage where
  kind := .mms
  direction := .incoming
  peer := "01012345678"
  ownNumber := none
  subject := none
  text := none
  timestamp := none
  status := "notified"
  externalId := some "T1"
  raw := none

def withNotification : State :=
  { State.empty with messages := (Messages.empty.insertMessage notified).2 }

/-- The text of a message, under a name of its own. -/
def named (name : Str) : MmsPart :=
  { contentType := "text/plain", params := [("name", name)], data := utf8 name }

/-- A message of one text. -/
def oneText (name : Str) : MmsMessage := { parts := [named name] }

/-- The store once that text is in it. -/
def withText (s : State) (name : Str) : State where
  messages := s.messages.updateReceivedMms 1 none (some name) none
  attachments := s.attachments.insert (1, 1) (partRow outside config 1 1 (named name))
  files := s.files.insert (partRow outside config 1 1 (named name)).path (utf8 name)

/-- The events of a retrieval up to the text. -/
def textEvents (name : Str) : List (Prog.Event Call Call.Answer) :=
  [⟨.updateReceivedMms 1 none (some name) none, (.ok () : Except Str Unit)⟩,
    ⟨.createDir "attachments/1", (.ok () : Except Str Unit)⟩,
    ⟨.writeFile (partRow outside config 1 1 (named name)).path (utf8 name), (.ok () : Except Str Unit)⟩,
    ⟨.upsertAttachment 1 1 (partRow outside config 1 1 (named name)), (.ok () : Except Str Unit)⟩]

/-- What comes after the text. -/
def afterText : Attempt Unit := do
  Attempt.pruneAttachments 1 1
  Attempt.setStatus 1 "received" none

theorem runs_textEvents {s : State} {name : Str} (hname : fromUtf8Lossy (utf8 name) = name)
    (hrow : (s.messages.row? 1).isSome) :
    Prog.Runs State.world s (storeRetrieved outside config 1 (oneText name)) (textEvents name)
      (withText s name) afterText := by
  have hbody : (oneText name).bodyText outside.decoderFor (outside.decodeText .utf8) = some name := by
    change some (['\n'].intercalate [fromUtf8Lossy (utf8 name)]) = some name
    rw [hname]
    exact congrArg some (List.append_nil name)
  have hrow' : ((withText s name).messages.row? 1).isSome := by
    rw [withText, Messages.row?_updateReceivedMms, if_pos rfl, Option.isSome_map]
    exact hrow
  rw [storeRetrieved, hbody]
  have hupdate : State.world s (.updateReceivedMms 1 none (some name) none) (.ok () : Except Str Unit)
      { s with messages := s.messages.updateReceivedMms 1 none (some name) none } := ⟨rfl, rfl⟩
  have hupsert : State.world
      { withText s name with attachments := s.attachments }
      (.upsertAttachment 1 1 (partRow outside config 1 1 (named name))) (.ok () : Except Str Unit)
      (withText s name) := ⟨⟨rfl, rfl⟩, fun _ ↦ hrow'⟩
  exact .call hupdate (.call rfl (.call rfl (.call hupsert (.refl _ _))))

/-- The first retrieval is cut once its text is stored. -/
theorem cut_retrieval : Prog.Tries State.world (storeRetrieved outside config 1) withNotification
    (withText withNotification "a.txt") :=
  Relation.ReflTransGen.single ⟨_, _, _, runs_textEvents (fromUtf8Lossy_utf8 _) rfl⟩

/-- The next one, of a message whose text has another name, comes to its end. -/
theorem full_retrieval :
    Prog.Runs State.world (withText withNotification "a.txt")
      (storeRetrieved outside config 1 (oneText "b.txt"))
      (textEvents "b.txt" ++
        [⟨.deleteAttachments 1 1, (.ok [] : Except Str (List Str))⟩,
          ⟨.setStatus 1 "received" none, (.ok () : Except Str Unit)⟩])
      { withText (withText withNotification "a.txt") "b.txt" with
        messages := (withText (withText withNotification "a.txt") "b.txt").messages.setStatus 1 "received" none }
      (.done (.ok ())) := by
  have hdelete : State.world (withText (withText withNotification "a.txt") "b.txt")
      (.deleteAttachments 1 1) (.ok [] : Except Str (List Str))
      (withText (withText withNotification "a.txt") "b.txt") := ⟨rfl, rfl⟩
  exact (runs_textEvents (fromUtf8Lossy_utf8 _) rfl).trans (.call hdelete (.call ⟨rfl, rfl⟩ (.refl _ _)))

end Sample

theorem holds_of_storeRetrieved_renamed :
    Holds Sample.outside Sample.config 1 [Sample.named "b.txt"]
      { Sample.withText (Sample.withText Sample.withNotification "a.txt") "b.txt" with
        messages := (Sample.withText (Sample.withText Sample.withNotification "a.txt") "b.txt").messages.setStatus
          1 "received" none } :=
  (holds_of_storeRetrieved (fun index ↦ Map.get?_empty (1, index)) Sample.cut_retrieval Sample.full_retrieval).1

end Modem2Sip.Messages
