import Modem2Sip.Api.History
import Modem2Sip.Lib.Markup

/-!
# The page behind the retry link

`http_api.rs`: what a phone shows after following the link to a message that could not be fetched.  The
texts on the page come from whoever sent the message; its links lead to the attachments.
-/

namespace Modem2Sip.Api

open Text Mms.Http Store Markup

def escapeHtml (text : Str) : Str := replace '>' "&gt;" (replace '<' "&lt;" (replace '&' "&amp;" text))

/-- Where an attachment is found, behind the base of the URL. -/
def attachmentTarget (id index : Nat) : Str :=
  ("/messages/" : Str) ++ (dec id ++ (("/attachments/" : Str) ++ dec index))

/-- The link to an attachment. -/
def attachmentItem (base : Str) (id : Nat) (att : Attachment) : Str :=
  ("<li><a href=\"" : Str) ++ (base ++ (attachmentTarget id att.index ++ (("\">" : Str) ++
    (escapeHtml (att.name.getD "part") ++ (("</a> (" : Str) ++ (escapeHtml att.contentType ++
      (")</li>" : Str)))))))

/-- A text that is there and not empty. -/
def shown (text : Option Str) : Option Str := text.filter (· ≠ [])

/-- `retrieved_page`. -/
def retrievedPage (base : Str) (msg : Option StoredMessage) : Str :=
  match msg with
  | none => "<h2>Fetched</h2>"
  | some msg =>
    ("<h2>Fetched</h2>" : Str) ++ (("<p>From " : Str) ++ (escapeHtml msg.peer ++
      (((shown msg.subject).elim [] fun subject ↦ ("<br>" : Str) ++ escapeHtml subject) ++
        (("</p>" : Str) ++
          (((shown msg.text).elim [] fun text ↦ ("<p>" : Str) ++ (escapeHtml text ++ ("</p>" : Str))) ++
            (if msg.attachments = [] then []
            else ("<ul>" : Str) ++ (msg.attachments.flatMap (attachmentItem base msg.id) ++
              ("</ul>" : Str))))))))

/-- What is shown if the message cannot be fetched. -/
def failurePage (reason : Str) : Str :=
  ("<h2>Could not fetch it</h2><p>" : Str) ++ (escapeHtml reason ++ ("</p>" : Str))

/-- What every page begins with. -/
def pageHead : Str :=
  ("<!doctype html>" : Str) ++ (("<meta charset=\"utf-8\">" : Str) ++
    (("<meta name=\"viewport\" content=\"width=device-width,initial-scale=1\">" : Str) ++
      (("<title>modem2sip</title>" : Str) ++
        ("<body style=\"font:16px/1.5 system-ui,sans-serif;margin:2rem;max-width:40rem\">" : Str))))

/-- The page that `respond_html` makes of what is to be shown. -/
def htmlPage (body : Str) : Str := pageHead ++ body

/-! ## What was meant -/

/-- The beginning of every page. -/
def headPieces : List Piece :=
  [.tag "!doctype html", .tag "meta charset=\"utf-8\"",
    .tag "meta name=\"viewport\" content=\"width=device-width,initial-scale=1\"",
    .tag "title", .text "modem2sip", .tag "/title",
    .tag "body style=\"font:16px/1.5 system-ui,sans-serif;margin:2rem;max-width:40rem\""]

def linkTag (base : Str) (id index : Nat) : Str :=
  ("a href=\"" : Str) ++ (base ++ (attachmentTarget id index ++ ['"']))

def itemPieces (base : Str) (id : Nat) (att : Attachment) : List Piece :=
  [.tag "li", .tag (linkTag base id att.index), .text (att.name.getD "part"), .tag "/a", .text " (",
    .text att.contentType, .text ")", .tag "/li"]

/-- The pieces around a text that may not be there. -/
def optional (pieces : Str → List Piece) (text : Option Str) : List Piece := (shown text).elim [] pieces

def retrievedPieces (base : Str) (msg : StoredMessage) : List Piece :=
  [.tag "h2", .text "Fetched", .tag "/h2", .tag "p", .text "From ", .text msg.peer] ++
    (optional (fun subject ↦ [.tag "br", .text subject]) msg.subject ++ .tag "/p" ::
      (optional (fun text ↦ [.tag "p", .text text, .tag "/p"]) msg.text ++
        if msg.attachments = [] then []
        else .tag "ul" :: (msg.attachments.flatMap (itemPieces base msg.id) ++ [.tag "/ul"])))

def failurePieces (reason : Str) : List Piece :=
  [.tag "h2", .text "Could not fetch it", .tag "/h2", .tag "p", .text reason, .tag "/p"]

theorem escapeHtml_eq (text : Str) : escapeHtml text = escape text := replace_eq_escape text

theorem write_item (base : Str) (id : Nat) (att : Attachment) :
    write (itemPieces base id att) = attachmentItem base id att := by
  have hopen : escape " (" = " (" := by decide
  have hclose : escape ")" = ")" := by decide
  unfold attachmentItem itemPieces write linkTag
  simp only [List.flatMap_cons, List.flatMap_nil, Piece.write, escapeHtml_eq]
  rw [hopen, hclose]
  simp only [String.reduceToList]
  simp only [List.append_assoc, List.cons_append, List.nil_append, List.append_nil]

theorem write_append (ps qs : List Piece) : write (ps ++ qs) = write ps ++ write qs :=
  List.flatMap_append

theorem write_cons (p : Piece) (ps : List Piece) : write (p :: ps) = p.write ++ write ps :=
  List.flatMap_cons

theorem htmlPage_eq (ps : List Piece) : htmlPage (write ps) = write (headPieces ++ ps) := by
  have htitle : escape "modem2sip" = "modem2sip" := by decide
  have hhead : write headPieces = pageHead := by
    unfold headPieces pageHead write
    simp only [List.flatMap_cons, List.flatMap_nil, Piece.write]
    rw [htitle]
    simp only [String.reduceToList]
    simp only [List.cons_append, List.nil_append, List.append_nil]
  rw [write_append, hhead, htmlPage]

theorem write_items (base : Str) (id : Nat) (atts : List Attachment) :
    write (atts.flatMap (itemPieces base id)) = atts.flatMap (attachmentItem base id) := by
  induction atts with
  | nil => rfl
  | cons att atts ih =>
      rw [List.flatMap_cons, write_append, write_item, ih, List.flatMap_cons]

theorem write_optional {pieces : Str → List Piece} {written : Str → Str}
    (h : ∀ t, write (pieces t) = written t) (text : Option Str) :
    write (optional pieces text) = (shown text).elim [] written := by
  unfold optional
  cases shown text with
  | none => rfl
  | some t => exact h t

theorem write_subject (subject : Str) :
    write [.tag "br", .text subject] = ("<br>" : Str) ++ escapeHtml subject := by
  rw [write_cons, write_cons, escapeHtml_eq]
  exact congrArg (("<br>" : Str) ++ ·) (List.append_nil (escape subject))

theorem write_text (text : Str) : write [.tag "p", .text text, .tag "/p"] =
    ("<p>" : Str) ++ (escapeHtml text ++ ("</p>" : Str)) := by
  rw [write_cons, write_cons, escapeHtml_eq]
  rfl

/-- The page is what was meant, written. -/
theorem write_retrieved (base : Str) (msg : StoredMessage) :
    write (retrievedPieces base msg) = retrievedPage base (some msg) := by
  have hfrom (peer : Str) : write [.tag "h2", .text "Fetched", .tag "/h2", .tag "p", .text "From ",
      .text peer] = ("<h2>Fetched</h2>" : Str) ++ (("<p>From " : Str) ++ escapeHtml peer) := by
    rw [write_cons, write_cons, write_cons, write_cons, write_cons, write_cons, escapeHtml_eq]
    exact congrArg (fun t ↦ ("<h2>Fetched</h2>" : Str) ++ (("<p>From " : Str) ++ t))
      (List.append_nil (escape peer))
  have hend : (Piece.tag "/p").write = ("</p>" : Str) := rfl
  have hul : (Piece.tag "ul").write = ("<ul>" : Str) := rfl
  have hul' : write [.tag "/ul"] = ("</ul>" : Str) := rfl
  unfold retrievedPieces retrievedPage
  dsimp only
  rw [write_append, write_append, hfrom, write_cons, write_append, hend, write_optional write_subject,
    write_optional write_text, List.append_assoc, List.append_assoc]
  split
  · rfl
  · rw [write_cons, write_append, write_items, hul, hul']

/-! ## What a browser makes of it -/

/-- The tags of the page itself. -/
def ownTags : List Str :=
  ["!doctype html", "meta charset=\"utf-8\"",
    "meta name=\"viewport\" content=\"width=device-width,initial-scale=1\"", "title", "/title",
    "body style=\"font:16px/1.5 system-ui,sans-serif;margin:2rem;max-width:40rem\"",
    "h2", "/h2", "p", "/p", "br", "ul", "/ul", "li", "/li", "/a"]

theorem closed_ownTags : ∀ t ∈ ownTags, closed false t = true := by decide +kernel

theorem mem_headPieces : ∀ p ∈ headPieces, p = .text "modem2sip" ∨ ∃ t ∈ ownTags, p = .tag t := by
  have hown {t : Str} (i : Nat) (h : ownTags[i]? = some t) :
      Piece.tag t = .text "modem2sip" ∨ ∃ t' ∈ ownTags, Piece.tag t = .tag t' :=
    .inr ⟨t, List.mem_of_getElem? h, rfl⟩
  refine List.forall_mem_cons.mpr ⟨hown 0 rfl, List.forall_mem_cons.mpr ⟨hown 1 rfl,
    List.forall_mem_cons.mpr ⟨hown 2 rfl, List.forall_mem_cons.mpr ⟨hown 3 rfl,
      List.forall_mem_cons.mpr ⟨.inl rfl, List.forall_mem_cons.mpr ⟨hown 4 rfl,
        List.forall_mem_singleton.mpr (hown 5 rfl)⟩⟩⟩⟩⟩⟩

theorem write_failure (reason : Str) : write (failurePieces reason) = failurePage reason := by
  have hhead : write [.tag "h2", .text "Could not fetch it", .tag "/h2"] =
      ("<h2>Could not fetch it</h2>" : Str) := by decide
  have hopen : ("<h2>Could not fetch it</h2><p>" : Str) =
      ("<h2>Could not fetch it</h2>" : Str) ++ ("<p>" : Str) := by decide
  refine (write_append [.tag "h2", .text "Could not fetch it", .tag "/h2"] _).trans ?_
  rw [hhead, write_text, ← List.append_assoc, ← hopen]
  rfl

/-- The reason of a failure, which the MMSC may have given, is a text like any other. -/
theorem scan_failurePage (reason : Str) :
    scan (htmlPage (failurePage reason)) = some (merge [] (headPieces ++ failurePieces reason)) := by
  rw [← write_failure, htmlPage_eq]
  apply scan_write
  intro t ht
  rcases List.mem_append.mp ht with hhead | hbody
  · obtain h | ⟨t', hown, h⟩ := mem_headPieces _ hhead
    · cases h
    · exact Piece.tag.inj h ▸ closed_ownTags t' hown
  · have hclosed : ∀ t : Str, t ∈ [("h2" : Str), "/h2", "p", "/p"] → closed false t = true := by
      decide
    refine hclosed t ?_
    simpa [failurePieces] using hbody

/-- The value of an attribute without quotation marks ends where it was meant to. -/
theorem closed_value {value : Str} (h : '"' ∉ value) : closed true (value ++ ['"']) = true := by
  induction value with
  | nil => rfl
  | cons c value ih =>
      obtain ⟨hc, hvalue⟩ := Lines.ne_of_not_mem_cons h
      rw [List.cons_append, closed, if_neg hc, ih hvalue, Bool.and_true, Bool.not_true, Bool.and_false]
      rfl

theorem not_mem_attachmentTarget {c : Char} (hc : c.isDigit = false)
    (hpath : c ∉ ("/messages/" : Str) ∧ c ∉ ("/attachments/" : Str)) (id index : Nat) :
    c ∉ attachmentTarget id index := by
  have hdec (n : Nat) : c ∉ dec n := fun hmem ↦
    Bool.false_ne_true (hc.symm.trans (isDigit_of_mem_dec hmem))
  exact List.not_mem_append hpath.1 (List.not_mem_append (hdec id)
    (List.not_mem_append hpath.2 (hdec index)))

theorem closed_linkTag {base : Str} (hbase : '"' ∉ base) (id index : Nat) :
    closed false (linkTag base id index) = true := by
  have hvalue : '"' ∉ base ++ attachmentTarget id index := List.not_mem_append hbase
    (not_mem_attachmentTarget (by decide) (by decide) id index)
  have hclosed := closed_value hvalue
  rw [List.append_assoc] at hclosed
  exact hclosed

/-- What may stand on a page about a message: texts, the tags of the page, and links to the
attachments. -/
def Allowed (base : Str) (msg : StoredMessage) : Piece → Prop
  | .text _ => True
  | .tag t => t ∈ ownTags ∨ ∃ att ∈ msg.attachments, t = linkTag base msg.id att.index

theorem allowed_item {base : Str} {msg : StoredMessage} {att : Attachment} (h : att ∈ msg.attachments) :
    ∀ p ∈ itemPieces base msg.id att, Allowed base msg p := by
  have hli : ("li" : Str) ∈ ownTags ∧ ("/li" : Str) ∈ ownTags ∧ ("/a" : Str) ∈ ownTags :=
    ⟨List.mem_of_getElem? (i := 13) rfl, List.mem_of_getElem? (i := 14) rfl,
      List.mem_of_getElem? (i := 15) rfl⟩
  refine List.forall_mem_cons.mpr ⟨.inl hli.1, List.forall_mem_cons.mpr ⟨.inr ⟨att, h, rfl⟩,
    List.forall_mem_cons.mpr ⟨trivial, List.forall_mem_cons.mpr ⟨.inl hli.2.2,
      List.forall_mem_cons.mpr ⟨trivial, List.forall_mem_cons.mpr ⟨trivial,
        List.forall_mem_cons.mpr ⟨trivial, List.forall_mem_singleton.mpr (.inl hli.2.1)⟩⟩⟩⟩⟩⟩⟩

theorem allowed_optional {base : Str} {msg : StoredMessage} {pieces : Str → List Piece}
    (h : ∀ t, ∀ p ∈ pieces t, Allowed base msg p) (text : Option Str) :
    ∀ p ∈ optional pieces text, Allowed base msg p := by
  unfold optional
  cases shown text with
  | none => exact List.forall_mem_nil _
  | some t => exact h t

theorem allowed_retrieved (base : Str) (msg : StoredMessage) :
    ∀ p ∈ headPieces ++ retrievedPieces base msg, Allowed base msg p := by
  have hown : ∀ t ∈ ownTags, Allowed base msg (.tag t) := fun t ht ↦ .inl ht
  have hh : ("h2" : Str) ∈ ownTags ∧ ("/h2" : Str) ∈ ownTags :=
    ⟨List.mem_of_getElem? (i := 6) rfl, List.mem_of_getElem? (i := 7) rfl⟩
  have hp : ("p" : Str) ∈ ownTags ∧ ("/p" : Str) ∈ ownTags ∧ ("br" : Str) ∈ ownTags :=
    ⟨List.mem_of_getElem? (i := 8) rfl, List.mem_of_getElem? (i := 9) rfl,
      List.mem_of_getElem? (i := 10) rfl⟩
  have hul : ("ul" : Str) ∈ ownTags ∧ ("/ul" : Str) ∈ ownTags :=
    ⟨List.mem_of_getElem? (i := 11) rfl, List.mem_of_getElem? (i := 12) rfl⟩
  have hhead : ∀ p ∈ headPieces, Allowed base msg p := by
    intro p hp
    rcases mem_headPieces p hp with rfl | ⟨t, ht, rfl⟩
    · trivial
    · exact hown t ht
  refine List.forall_mem_append.mpr ⟨hhead, List.forall_mem_append.mpr ⟨?_, List.forall_mem_append.mpr
    ⟨allowed_optional ?_ msg.subject, List.forall_mem_cons.mpr ⟨hown _ hp.2.1,
      List.forall_mem_append.mpr ⟨allowed_optional ?_ msg.text, ?_⟩⟩⟩⟩⟩
  · exact List.forall_mem_cons.mpr ⟨hown _ hh.1, List.forall_mem_cons.mpr ⟨trivial,
      List.forall_mem_cons.mpr ⟨hown _ hh.2, List.forall_mem_cons.mpr ⟨hown _ hp.1,
        List.forall_mem_cons.mpr ⟨trivial, List.forall_mem_singleton.mpr trivial⟩⟩⟩⟩⟩
  · exact fun t ↦ List.forall_mem_cons.mpr ⟨hown _ hp.2.2, List.forall_mem_singleton.mpr trivial⟩
  · exact fun t ↦ List.forall_mem_cons.mpr ⟨hown _ hp.1, List.forall_mem_cons.mpr ⟨trivial,
      List.forall_mem_singleton.mpr (hown _ hp.2.1)⟩⟩
  · split
    · exact List.forall_mem_nil _
    · refine List.forall_mem_cons.mpr ⟨hown _ hul.1, List.forall_mem_append.mpr
        ⟨fun p hp ↦ ?_, List.forall_mem_singleton.mpr (hown _ hul.2)⟩⟩
      obtain ⟨att, hatt, hmem⟩ := List.mem_flatMap.mp hp
      exact allowed_item hatt p hmem

/-! ## Where the links lead -/

theorem target_attachmentTarget {id index : Nat} (hid : id < 2 ^ 63) (hindex : index < 2 ^ 63) :
    Target (attachmentTarget id index) where
  ne_nil := List.append_ne_nil_of_left_ne_nil (List.cons_ne_nil _ _) _
  dark := by
    have hpath : ∀ c ∈ ("/messages/" : Str), isWhitespace c = false := by decide
    have hmiddle : ∀ c ∈ ("/attachments/" : Str), isWhitespace c = false := by decide
    exact List.forall_mem_append.mpr ⟨hpath, List.forall_mem_append.mpr ⟨isWhitespace_of_mem_dec id,
      List.forall_mem_append.mpr ⟨hmiddle, isWhitespace_of_mem_dec index⟩⟩⟩
  length := by
    have hpow : 2 ^ 63 < 10 ^ 19 := by decide
    have hpath : ("/messages/" : Str).length = 10 := by decide
    have hmiddle : ("/attachments/" : Str).length = 13 := by decide
    have hid := length_dec_le (k := 19) (by decide) (hid.trans hpow)
    have hindex := length_dec_le (k := 19) (by decide) (hindex.trans hpow)
    unfold attachmentTarget
    rw [List.length_append, List.length_append, List.length_append, hpath, hmiddle]
    omega

theorem segments_attachmentTarget (id index : Nat) :
    segments (attachmentTarget id index) = [("messages" : Str), dec id, ("attachments" : Str),
      dec index] := by
  have hdec (n : Nat) : '/' ∉ dec n := not_mem_decInt (by decide) (by decide) (.ofNat n)
  have hpath : '/' ∉ ("messages" : Str) := by decide
  have hmiddle : '/' ∉ ("attachments" : Str) := by decide
  -- Only the first slash is at an end.
  have htrim : trimMatches (· == '/') (attachmentTarget id index) =
      ("messages" : Str) ++ '/' :: (dec id ++ '/' :: (("attachments" : Str) ++ '/' :: dec index)) := by
    have hstart : (attachmentTarget id index).dropWhile (· == '/') =
        ("messages" : Str) ++ '/' :: (dec id ++ '/' :: (("attachments" : Str) ++ '/' :: dec index)) := rfl
    obtain ⟨init, last, hlast⟩ := (List.eq_nil_or_concat (dec index)).resolve_left (dec_ne_nil index)
    rw [List.concat_eq_append] at hlast
    have hne : last ≠ '/' := by
      rintro rfl
      exact hdec index (hlast ▸ List.mem_append_right _ (List.mem_singleton_self _))
    have hinit : ("messages" : Str) ++ '/' :: (dec id ++ '/' :: (("attachments" : Str) ++ '/' ::
        dec index)) = (("messages" : Str) ++ '/' :: (dec id ++ '/' :: (("attachments" : Str) ++ '/' ::
          init))) ++ [last] := by
      rw [hlast]
      simp only [List.append_assoc, List.cons_append]
    rw [trimMatches, hstart, hinit]
    exact List.rdropWhile_concat_neg _ _ _ (by simpa using hne)
  rw [segments, htrim, List.splitOn_append_cons_self_of_not_mem hpath,
    List.splitOn_append_cons_self_of_not_mem (hdec id),
    List.splitOn_append_cons_self_of_not_mem hmiddle, List.splitOn_eq_singleton (hdec index)]

theorem endpoint_attachment {r : HttpRequest} {id index : Nat} (hmethod : r.method = "GET")
    (hpath : r.path = attachmentTarget id index) (hid : id < 2 ^ 63) (hindex : index < 2 ^ 63) :
    endpoint r = .attachment id index := by
  have hparse {n : Nat} (hn : n < 2 ^ 63) : parseI64 (dec n) = some (n : Int) :=
    parseI64_decInt (n := (n : Int)) (by omega) (by omega)
  unfold endpoint
  rw [hpath, segments_attachmentTarget]
  dsimp only
  rw [if_pos ⟨hmethod, rfl, rfl⟩, hparse hid, hparse hindex]
  rfl

/-- A link to an attachment is answered with the attachment. -/
theorem serve_attachmentTarget (w : Nat) {token : Option Str} (htoken : ∀ t ∈ token, Presentable t)
    {s : State} {id index : Nat} (hid : id < 2 ^ 63) (hindex : index < 2 ^ 63) {path contentType : Str}
    (hpath : s.attachmentPath id index = some (path, contentType))
    (c : Cut (getRequest token (attachmentTarget id index))) (hc : Small c) :
    serve w token s c.connection = some (.file path contentType) := by
  have htarget : (splitTarget (attachmentTarget id index)).1 = attachmentTarget id index := by
    rw [splitTarget, splitAt_eq_none (not_mem_attachmentTarget (by decide) (by decide) id index)]
    rfl
  have hauthorized : authorized token (asked token (attachmentTarget id index)) = true :=
    authorized_authFields htoken rfl
  rw [serve_getRequest w htoken (target_attachmentTarget hid hindex) s c hc, reply,
    if_pos hauthorized, endpoint_attachment rfl htarget hid hindex]
  dsimp only
  rw [hpath]
  rfl

/-- What is written for a reply that names a file, when `files` is what can be read of the files. -/
def Reply.written (files : Str → Option (List UInt8)) : Reply → Option (List UInt8)
  | .file path contentType => (files path).map (attachmentAnswer contentType)
  | _ => none

/-- Whoever asks for the target gets the file of the attachment, and reads its bytes in the answer,
under the media type of the attachment as it was sanitized. -/
def LeadsTo (w : Nat) (token : Option Str) (s : State) (target : Str) (att : Attachment) : Prop :=
  ∀ c : Cut (getRequest token target), Small c →
    serve w token s c.connection = some (.file att.path att.contentType) ∧
      ∀ (files : Str → Option (List UInt8)) (data : List UInt8) (maxSize : Nat),
        files att.path = some data → data.length < 2 ^ w → data.length ≤ effectiveLimit maxSize →
          ∃ bytes, (serve w token s c.connection).bind (Reply.written files) = some bytes ∧
            ∀ d : Cut bytes, (∀ r ∈ d.reads, r.length ≤ 8192) →
              readResponse w d.connection maxSize =
                .ok (.ok ⟨200, answerFields att.contentType attachmentFields data.length, data⟩)

theorem leadsTo_attachmentTarget {w : Nat} (hw : w ≤ 64) {token : Option Str}
    (htoken : ∀ t ∈ token, Presentable t) {s : State} {id : Nat} {att : Attachment} (hid : id < 2 ^ 63)
    (hindex : att.index < 2 ^ 63) (hpath : s.attachmentPath id att.index = some (att.path, att.contentType)) :
    LeadsTo w token s (attachmentTarget id att.index) att := by
  intro c hc
  have hserve := serve_attachmentTarget w htoken hid hindex hpath c hc
  refine ⟨hserve, fun files data maxSize hdata hlen hmax ↦
    ⟨attachmentAnswer att.contentType data, ?_, fun d hd ↦ ?_⟩⟩
  · rw [hserve, Option.bind_some, Reply.written, hdata, Option.map_some]
  · exact readResponse_attachmentAnswer hw att.contentType hlen hmax d hd

namespace Sample

def jpeg : AttachmentRow where
  contentType := "image/jpeg"
  name := some "</a><script>"
  contentId := none
  size := 3
  path := "attachments/1/1_x.jpg"

/-- A message with an attachment whose name is a tag. -/
def withAttachment : State := { first with attachments := Map.empty.insert (1, 1) jpeg }

theorem attachments_withAttachment :
    (withAttachment.stored row).attachments = [toAttachment 1 jpeg] := by
  have hentries : ((withAttachment.attachments.entries.filter fun e ↦ e.1.1 == row.id).map fun e ↦
      toAttachment e.1.2 e.2) = [toAttachment 1 jpeg] := rfl
  change withAttachment.loadAttachments row.id = _
  rw [State.loadAttachments, hentries, List.mergeSort_singleton]

theorem link_withAttachment (base : Str) :
    .tag (linkTag base 1 1) ∈ merge [] (headPieces ++ retrievedPieces base (withAttachment.stored row)) := by
  refine tag_mem_merge.mpr (List.mem_append_right _ (List.mem_append_right _ (List.mem_append_right _
    (List.mem_cons_of_mem _ (List.mem_append_right _ ?_)))))
  rw [attachments_withAttachment, if_neg (List.cons_ne_nil _ _)]
  exact List.mem_cons_of_mem _ (List.mem_append_left _ (List.mem_cons_of_mem _ List.mem_cons_self))

end Sample

end Modem2Sip.Api
