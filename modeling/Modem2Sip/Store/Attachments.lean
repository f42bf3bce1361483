import Modem2Sip.Store.World

/-!
# Attachments

`db.rs`: where the parts of a message are put, `add_attachment` and `prune_attachments`.  What is a
letter or a digit is decided outside of the repository, by Unicode.
-/

namespace Modem2Sip.Store

open Text

/-- `Path::join` with a relative path. -/
def joinPath (dir name : Str) : Str :=
  if dir = [] ∨ dir.getLast? = some '/' then dir ++ name else dir ++ '/' :: name

/-- `ext_for`. -/
def extFor (contentType : Str) : Str :=
  let ct := trim (before ';' contentType)
  if ct = "text/plain" then ".txt"
  else if ct = "text/html" then ".html"
  else if ct = "image/jpeg" then ".jpg"
  else if ct = "image/png" then ".png"
  else if ct = "image/gif" then ".gif"
  else if ct = "audio/amr" then ".amr"
  else if ct = "video/3gpp" then ".3gp"
  else if ct = "application/smil" then ".smil"
  else ".bin"

section Names

variable (isAlphanumeric : Char → Bool)

/-- A name with everything in it replaced that is not plain. -/
def plainName (name : Str) : Str :=
  name.map fun c ↦ if isAlphanumeric c || c == '.' || c == '_' || c == '-' then c else '_'

/-- `sanitize_name`. -/
def sanitizeName (name : Option Str) (index : Nat) (contentType : Str) : Str :=
  let base := ((name.map (plainName isAlphanumeric)).filter fun n ↦
    n != [] && n != ['.'] && n != ['.', '.']).getD ("part" ++ dec index ++ extFor contentType)
  dec index ++ '_' :: base

end Names

/-- The directory of the attachments of a message. -/
def attachmentDir (attachmentsDir : Str) (messageId : Nat) : Str := joinPath attachmentsDir (dec messageId)

/-! ## Where the files are -/

theorem eq_of_append_cons {c : Char} {a b x y : Str} (ha : c ∉ a) (hb : c ∉ b)
    (h : a ++ c :: x = b ++ c :: y) : a = b := by
  have hsplit := congrArg (splitAt c) h
  rw [splitAt_append_cons ha, splitAt_append_cons hb] at hsplit
  exact congrArg Prod.fst (Option.some.inj hsplit)

theorem joinPath_eq (dir name : Str) : joinPath dir name = joinPath dir [] ++ name := by
  rw [joinPath, joinPath]
  split
  · rw [List.append_nil]
  · rw [List.append_assoc, List.singleton_append]

/-- The directory of a message does not end in a separator. -/
theorem joinPath_attachmentDir (dir : Str) (messageId : Nat) (name : Str) :
    joinPath (attachmentDir dir messageId) name = joinPath dir [] ++ (dec messageId ++ '/' :: name) := by
  have hdir : attachmentDir dir messageId = joinPath dir [] ++ dec messageId := joinPath_eq dir _
  have hne : attachmentDir dir messageId ≠ [] := by
    rw [hdir]
    exact List.append_ne_nil_of_right_ne_nil _ (dec_ne_nil messageId)
  have hlast : (attachmentDir dir messageId).getLast? ≠ some '/' := by
    rw [hdir, List.getLast?_append_of_ne_nil _ (dec_ne_nil messageId)]
    exact fun h ↦ not_mem_dec (by decide) _ (List.mem_of_getLast? h)
  rw [joinPath, if_neg (not_or.mpr ⟨hne, hlast⟩), hdir, List.append_assoc]

/-- No two messages have a file together. -/
theorem eq_of_joinPath_attachmentDir {dir name name' : Str} {m m' : Nat}
    (h : joinPath (attachmentDir dir m) name = joinPath (attachmentDir dir m') name') : m = m' := by
  rw [joinPath_attachmentDir, joinPath_attachmentDir, List.append_cancel_left_eq] at h
  exact dec_injective (eq_of_append_cons (not_mem_dec (by decide) _) (not_mem_dec (by decide) _) h)

/-- No two parts have the same name, whatever they are called. -/
theorem eq_of_sanitizeName {isAlphanumeric : Char → Bool} {base : Str} {index index' : Nat}
    {name : Option Str} {contentType : Str}
    (h : sanitizeName isAlphanumeric name index contentType = dec index' ++ '_' :: base) : index = index' :=
  dec_injective (eq_of_append_cons (not_mem_dec (by decide) _) (not_mem_dec (by decide) _) h)

/-- No two parts of a message have a file together. -/
theorem eq_of_joinPath_sanitizeName {isAlphanumeric : Char → Bool} {dir base : Str} {index index' messageId : Nat}
    {name : Option Str} {contentType : Str}
    (h : joinPath (attachmentDir dir messageId) (sanitizeName isAlphanumeric name index contentType) =
      joinPath (attachmentDir dir messageId) (dec index' ++ '_' :: base)) : index = index' := by
  rw [joinPath_attachmentDir, joinPath_attachmentDir, List.append_cancel_left_eq,
    List.append_cancel_left_eq, List.cons.injEq] at h
  exact eq_of_sanitizeName h.2

/-! ## What is done with them -/

namespace Attempt

def createDir (path : Str) : Attempt Unit := ExceptT.mk (Prog.ask (Call.createDir path))

def writeFile (path : Str) (data : List UInt8) : Attempt Unit :=
  ExceptT.mk (Prog.ask (Call.writeFile path data))

def upsertAttachment (messageId index : Nat) (row : AttachmentRow) : Attempt Unit :=
  ExceptT.mk (Prog.ask (Call.upsertAttachment messageId index row))

def deleteAttachments (messageId keep : Nat) : Attempt (List Str) :=
  ExceptT.mk (Prog.ask (Call.deleteAttachments messageId keep))

/-- Files are removed, whether that works or not. -/
def removeFiles : List Str → Attempt Unit
  | [] => pure ()
  | path :: paths => ExceptT.mk (.call (Call.removeFile path) fun _ ↦ removeFiles paths)

/-- `Db::add_attachment`. -/
def addAttachment (isAlphanumeric : Char → Bool) (attachmentsDir : Str) (messageId index : Nat)
    (contentType : Str) (name contentId : Option Str) (data : List UInt8) : Attempt Unit := do
  let dir := attachmentDir attachmentsDir messageId
  createDir dir
  let path := joinPath dir (sanitizeName isAlphanumeric name index contentType)
  writeFile path data
  upsertAttachment messageId index
    { contentType := contentType, name := name, contentId := contentId, size := data.length, path := path }

/-- `Db::prune_attachments`. -/
def pruneAttachments (messageId keep : Nat) : Attempt Unit := do
  let stale ← deleteAttachments messageId keep
  removeFiles stale

end Attempt

end Modem2Sip.Store
