import Modem2Sip.Api.Request

/-!
# Writing an HTTP response

`http_api.rs`: what the control API writes back.  The media type of an attachment is what the sender
of an MMS wrote into it, and it goes into the head of the response.  The other end is the client of
`mms/http.rs`, which is the reader of responses that the repository has.
-/

namespace Modem2Sip.Api

open Text Mms.Http

/-! ## The head -/

/-- What may stand in a media type. -/
def mediaChar (c : Char) : Bool := c.isAlphanum || "/.+-_;= ".toList.contains c

/-- `sanitize_media_type`. -/
def sanitizeMediaType (raw : Str) : Str :=
  let cleaned := trim (((raw.takeWhile fun c ↦ c != '\r' && c != '\n').filter mediaChar).take 128)
  if cleaned = [] ∨ '/' ∉ cleaned then "application/octet-stream" else cleaned

def reason (status : Nat) : Str :=
  if status = 200 then "OK"
  else if status = 202 then "Accepted"
  else if status = 400 then "Bad Request"
  else if status = 401 then "Unauthorized"
  else if status = 404 then "Not Found"
  else if status = 500 then "Internal Server Error"
  else if status = 502 then "Bad Gateway"
  else if status = 503 then "Service Unavailable"
  else "Status"

def statusLine (status : Nat) : Str :=
  ("HTTP/1.1" : Str) ++ ' ' :: (dec status ++ ' ' :: reason status)

/-- `respond_bytes_with`: what is written to the stream. -/
def respondBytesWith (status : Nat) (contentType extraHeaders : Str) (body : List UInt8) :
    List UInt8 :=
  utf8 (statusLine status ++ Head.crlf ++
    (Head.line (Head.field "Content-Type" (sanitizeMediaType contentType)) ++ Head.crlf) ++
    extraHeaders ++
    (Head.line (Head.field "Content-Length" (dec body.length)) ++ Head.crlf) ++
    (Head.line (Head.field "Connection" "close") ++ Head.crlf) ++ Head.crlf) ++ body

/-- What goes with the bytes of an attachment. -/
def attachmentHeaders : Str :=
  "X-Content-Type-Options: nosniff\r\nContent-Disposition: attachment\r\n"

/-- The answer to a request for an attachment that could be read. -/
def attachmentAnswer (contentType : Str) (data : List UInt8) : List UInt8 :=
  respondBytesWith 200 contentType attachmentHeaders data

/-! ## Media types -/

theorem forall_sanitizeMediaType {p : Char → Prop} (raw : Str) (h : ∀ c, mediaChar c = true → p c) :
    ∀ c ∈ sanitizeMediaType raw, p c := by
  intro c hc
  unfold sanitizeMediaType at hc
  dsimp only at hc
  split at hc
  · exact h c (List.all_eq_true.mp (show (("application/octet-stream" : Str)).all mediaChar = true
      by decide) c hc)
  · exact h c (List.mem_filter.mp ((List.take_sublist 128 _).subset (mem_of_mem_trim hc))).2

theorem length_trim_le (s : Str) : (trim s).length ≤ s.length :=
  ((List.rdropWhile_prefix _ _).length_le).trans (List.dropWhile_sublist _).length_le

theorem length_sanitizeMediaType_le (raw : Str) : (sanitizeMediaType raw).length ≤ 128 := by
  unfold sanitizeMediaType
  dsimp only
  split
  · decide
  · exact (length_trim_le _).trans (List.length_take_le _ _)

/-! ## Reading a head of lines -/

section Reading

variable {w maxSize : Nat} {start : Str} {ls : List Str} {body : List UInt8}

theorem length_bytes_nil (h : ls ≠ []) :
    (Head.bytes ls []).length = (utf8 (Head.crlf.intercalate ls)).length + 4 := by
  rw [Head.bytes_eq h]
  simp

theorem find_of_headerEnd_eq_none {p : List UInt8} (h : headerEnd p = none) :
    Lines.findSub [13, 10, 13, 10] p = none := by
  cases hfind : Lines.findSub [13, 10, 13, 10] p with
  | none => rfl
  | some n =>
    unfold headerEnd find at h
    rw [hfind] at h
    cases hlf : Lines.findSub [10, 10] p with
    | none =>
      rw [hlf] at h
      cases h
    | some lf =>
      rw [hlf] at h
      dsimp only at h
      split at h <;> cases h

/-- The client finds the same end of the head as the server. -/
theorem headerEnd_bytes (hne : ls ≠ []) (h : ∀ l ∈ ls, Head.Line l) (body : List UInt8) :
    headerEnd (Head.bytes ls body) = some ((utf8 (Head.crlf.intercalate ls)).length,
      (utf8 (Head.crlf.intercalate ls)).length + 4) := by
  unfold headerEnd find
  rw [Head.findSub_bytes hne h]
  cases hlf : Lines.findSub [10, 10] (Head.bytes ls body) with
  | none => rfl
  | some lf =>
    have hle := Head.le_of_findSub_lf h hlf
    rw [length_bytes_nil hne] at hle
    exact if_neg (by omega)

/-- What the status line and the fields are read as. -/
theorem parseHead_lines (h : ∀ l ∈ start :: ls, Head.Line l) {status : Nat}
    (hstatus : (words start)[1]?.bind parseU16 = some status) :
    Mms.Http.parseHead (utf8 (Head.crlf.intercalate (start :: ls))) =
      .ok { status, headers := Head.fields ls } := by
  unfold Mms.Http.parseHead
  rw [fromUtf8Lossy_utf8, Head.trimmed_lines (List.cons_ne_nil _ _) h]
  dsimp only [List.head?_cons, Option.getD_some, List.tail_cons]
  rw [hstatus]
  rfl

/-- A response with its length announced is read back whole, however it is cut. -/
theorem readResponse_bytes (h : ∀ l ∈ start :: ls, Head.Line l) {status : Nat}
    (hstatus : (words start)[1]?.bind parseU16 = some status)
    (hplain : Mms.Http.Head.isChunked ⟨status, Head.fields ls⟩ = false)
    (hlength : Mms.Http.Head.contentLength w ⟨status, Head.fields ls⟩ = some body.length)
    (hmax : body.length ≤ effectiveLimit maxSize)
    (hfits : (utf8 (Head.crlf.intercalate (start :: ls))).length + 3 + 8192 ≤ 64 * 1024)
    (c : Cut (Head.bytes (start :: ls) body)) (hc : ∀ r ∈ c.reads, r.length ≤ 8192) :
    readResponse w c.connection maxSize =
      .ok (.ok { status, headers := Head.fields ls, body }) := by
  obtain ⟨reads, hne, hflat⟩ := c
  have hend := headerEnd_bytes (List.cons_ne_nil start ls) h body
  have hlimit : ∀ p r, headerLoop.stop p = none → r.length ≤ 8192 → p ++ r <+: [] ++ reads.flatten →
      headerLoop.limit (p ++ r) = none := by
    intro p r hstop hr hp
    rw [List.nil_append, hflat] at hp
    obtain ⟨t, ht⟩ := (List.prefix_append p r).trans hp
    have hfound := Head.findSub_bytes (List.cons_ne_nil start ls) h body
    rw [← ht] at hfound
    have hlt := Lines.lt_of_findSub_append (by simp) (find_of_headerEnd_eq_none hstop) hfound
    refine if_neg (Nat.not_lt.mpr ?_)
    rw [List.length_append]
    simp only [List.length_cons, List.length_nil] at hlt
    omega
  obtain ⟨buf, reads', hrun, hstop, hall, hreads'⟩ :=
    headerLoop.run_of_stop_within headerLoop_lasting (fun r hr ↦ ⟨hne r hr, hc r hr⟩) hlimit
      (by rw [List.nil_append, hflat]; exact hend)
  rw [List.nil_append, hflat] at hall
  have hbuf : (utf8 (Head.crlf.intercalate (start :: ls))).length + 4 ≤ buf.length :=
    (le_of_headerEnd hstop).2
  have htake : buf.take (utf8 (Head.crlf.intercalate (start :: ls))).length =
      utf8 (Head.crlf.intercalate (start :: ls)) := by
    rw [← List.take_append_of_le_length (hbuf.trans' (Nat.le_add_right _ 4)), hall,
      Head.take_bytes (List.cons_ne_nil start ls)]
  have hdrop : buf.drop ((utf8 (Head.crlf.intercalate (start :: ls))).length + 4) ++
      reads'.flatten = body := by
    rw [← List.drop_append_of_le_length hbuf, hall, Head.drop_bytes (List.cons_ne_nil start ls)]
  have hbody : readBody w (effectiveLimit maxSize) ⟨status, Head.fields ls⟩ none reads'
      (buf.drop ((utf8 (Head.crlf.intercalate (start :: ls))).length + 4)) = .ok (.ok body) := by
    obtain ⟨buf', reads'', hrun', hstop', hall', -⟩ := (lengthLoop body.length).run_of_stop
      (lengthLoop_lasting _) (fun r hr ↦ (hreads' r hr).1) (fun _ _ ↦ rfl)
      (b := ()) (if_neg (by rw [hdrop]; exact lt_irrefl _))
    have hlen : body.length ≤ buf'.length := by
      by_contra hlt
      rw [show (lengthLoop body.length).stop buf' = none from if_pos (Nat.lt_of_not_le hlt)] at hstop'
      cases hstop'
    have hwhole : buf'.take body.length = body := by
      rw [hdrop] at hall'
      rw [← List.take_append_of_le_length hlen, hall', List.take_length]
    unfold readBody
    rw [if_neg (by rw [hplain]; exact Bool.false_ne_true), hlength]
    dsimp only
    rw [if_neg (Nat.not_lt.mpr hmax), hrun']
    exact congrArg (fun b ↦ Except.ok (Except.ok b)) hwhole
  unfold readResponse Cut.connection
  dsimp only
  rw [hrun]
  dsimp only
  rw [htake, parseHead_lines h hstatus]
  dsimp only
  rw [hbody]
  rfl

end Reading

/-! ## The answers of the API -/

/-- The extra fields of the answers. -/
def attachmentFields : List (Str × Str) :=
  [Head.field "X-Content-Type-Options" "nosniff", Head.field "Content-Disposition" "attachment"]

def answerFields (contentType : Str) (extra : List (Str × Str)) (len : Nat) : List (Str × Str) :=
  Head.field "Content-Type" (sanitizeMediaType contentType) ::
    (extra ++ [Head.field "Content-Length" (dec len), Head.field "Connection" "close"])

theorem attachmentHeaders_eq :
    attachmentHeaders = attachmentFields.flatMap fun f ↦ Head.line f ++ Head.crlf := by decide

/-- The head as the lines that it consists of. -/
theorem respondBytesWith_eq (status : Nat) (contentType : Str) (extra : List (Str × Str))
    (body : List UInt8) :
    respondBytesWith status contentType (extra.flatMap fun f ↦ Head.line f ++ Head.crlf) body =
      Head.bytes (statusLine status ::
        (answerFields contentType extra body.length).map Head.line) body := by
  have hlines (fs : List (Str × Str)) : (fs.map Head.line).flatMap (· ++ Head.crlf) =
      fs.flatMap fun f ↦ Head.line f ++ Head.crlf := List.flatMap_map ..
  unfold respondBytesWith Head.bytes
  rw [List.flatMap_cons, hlines]
  simp [answerFields, List.flatMap_append, List.append_assoc]

theorem trim_sanitizeMediaType (raw : Str) :
    trim (sanitizeMediaType raw) = sanitizeMediaType raw := by
  unfold sanitizeMediaType
  dsimp only
  split
  · decide
  · exact trim_trim _

theorem words_statusLine (status : Nat) : (words (statusLine status))[1]? = some (dec status) := by
  have hblank : isWhitespace ' ' = true := by decide
  have hversion : ("HTTP/1.1" : Str) ≠ [] ∧ ∀ c ∈ ("HTTP/1.1" : Str), isWhitespace c = false := by
    decide
  have hcode := words_append_cons (dec_ne_nil status) (isWhitespace_of_mem_dec status) hblank
    (reason status)
  have hall := words_append_cons hversion.1 hversion.2 hblank (dec status ++ ' ' :: reason status)
  rw [hcode] at hall
  exact congrArg (·[1]?) hall

theorem length_utf8_le (s : Str) : (utf8 s).length ≤ 4 * s.length := by
  induction s with
  | nil => exact Nat.le_refl _
  | cons c s ih =>
    have hc : (String.utf8EncodeChar c).length ≤ 4 := by
      rw [String.length_utf8EncodeChar]
      exact Char.utf8Size_le_four c
    rw [utf8, List.flatMap_cons, List.length_append, List.length_cons]
    have ih : (s.flatMap String.utf8EncodeChar).length ≤ 4 * s.length := ih
    omega

theorem fieldNames_ok : ∀ n ∈ ([("Content-Type" : Str), "X-Content-Type-Options", "Content-Disposition",
    "Content-Length", "Connection"] : List Str), (':' ∉ n ∧ trim n = n) ∧ Head.Line n ∧
      eqIgnoreCase n "transfer-encoding" = false := by
  have hall : ∀ n ∈ ([("Content-Type" : Str), "X-Content-Type-Options", "Content-Disposition",
      "Content-Length", "Connection"] : List Str), (':' ∉ n ∧ trim n = n) ∧ (n ≠ [] ∧ '\r' ∉ n ∧ '\n' ∉ n) ∧
        eqIgnoreCase n "transfer-encoding" = false := by decide
  intro n hn
  obtain ⟨hname, hline, hother⟩ := hall n hn
  exact ⟨hname, ⟨hline.1, hline.2.1, hline.2.2⟩, hother⟩

/-- A value that is in one line and has no blanks around it. -/
def Neat (v : Str) : Prop := trim v = v ∧ '\r' ∉ v ∧ '\n' ∉ v

instance (v : Str) : Decidable (Neat v) :=
  inferInstanceAs (Decidable (trim v = v ∧ '\r' ∉ v ∧ '\n' ∉ v))

theorem reason_spec (status : Nat) :
    '\r' ∉ reason status ∧ '\n' ∉ reason status ∧ (reason status).length ≤ 21 := by
  unfold reason
  repeat' split
  all_goals decide

theorem neat_dec (n : Nat) : Neat (dec n) :=
  ⟨trim_eq_self (isWhitespace_of_mem_dec n), (plain_dec n).not_mem (by decide),
    (plain_dec n).not_mem (by decide)⟩

theorem neat_sanitizeMediaType (raw : Str) : Neat (sanitizeMediaType raw) := by
  refine ⟨trim_sanitizeMediaType raw, fun hmem ↦ ?_, fun hmem ↦ ?_⟩
  · exact forall_sanitizeMediaType (p := (· ≠ '\r')) raw (by rintro _ h rfl; cases h) _ hmem rfl
  · exact forall_sanitizeMediaType (p := (· ≠ '\n')) raw (by rintro _ h rfl; cases h) _ hmem rfl

section Answers

variable {extra : List (Str × Str)} (hextra : extra = [] ∨ extra = attachmentFields)
  (contentType : Str) (len : Nat)

include hextra in
theorem answerFields_spec : ∀ f ∈ answerFields contentType extra len,
    f.1 ∈ ([("Content-Type" : Str), "X-Content-Type-Options", "Content-Disposition",
      "Content-Length", "Connection"] : List Str) ∧ Neat f.2 := by
  have hmiddle : ∀ f ∈ extra, f.1 ∈ ([("Content-Type" : Str), "X-Content-Type-Options",
      "Content-Disposition", "Content-Length", "Connection"] : List Str) ∧ Neat f.2 := by
    rcases hextra with rfl | rfl
    · exact List.forall_mem_nil _
    · decide
  refine List.forall_mem_cons.mpr ⟨⟨List.mem_cons_self, neat_sanitizeMediaType contentType⟩, ?_⟩
  intro f hf
  rcases List.mem_append.mp hf with hf | hf
  · exact hmiddle f hf
  · rcases List.mem_cons.mp hf with rfl | hf
    · exact ⟨show ("Content-Length" : Str) ∈ _ by decide, neat_dec len⟩
    · rw [List.mem_singleton.mp hf]
      decide

include hextra in
/-- The fields are read back as they were meant. -/
theorem fields_answerFields :
    Head.fields ((answerFields contentType extra len).map Head.line) =
      answerFields contentType extra len := by
  rw [Head.fields_map_line fun f hf ↦
    (fieldNames_ok f.1 (answerFields_spec hextra contentType len f hf).1).1]
  refine (List.map_congr_left fun f hf ↦ ?_).trans (List.map_id _)
  exact Prod.ext rfl (answerFields_spec hextra contentType len f hf).2.1

include hextra in
theorem lines_answer (status : Nat) :
    ∀ l ∈ statusLine status :: (answerFields contentType extra len).map Head.line, Head.Line l := by
  refine List.forall_mem_cons.mpr ⟨?_, ?_⟩
  · obtain ⟨hcr', hlf', -⟩ := reason_spec status
    obtain ⟨-, hcr, hlf⟩ := neat_dec status
    have hversion : Head.Line ("HTTP/1.1" : Str) := ⟨by decide, by decide, by decide⟩
    refine hversion.append ?_ ?_
    · simpa using ⟨hcr, hcr'⟩
    · simpa using ⟨hlf, hlf'⟩
  · intro l hl
    obtain ⟨f, hf, rfl⟩ := List.mem_map.mp hl
    obtain ⟨hname, -, hcr, hlf⟩ := answerFields_spec hextra contentType len f hf
    exact Head.line_line (fieldNames_ok f.1 hname).2.1 hcr hlf

include hextra in
theorem isChunked_answer (status : Nat) :
    Mms.Http.Head.isChunked ⟨status, answerFields contentType extra len⟩ = false := by
  have hnone : (answerFields contentType extra len).find?
      (fun kv ↦ eqIgnoreCase kv.1 "transfer-encoding") = none := by
    rw [List.find?_eq_none]
    intro f hf
    rw [(fieldNames_ok f.1 (answerFields_spec hextra contentType len f hf).1).2.2]
    exact Bool.false_ne_true
  rw [Mms.Http.Head.isChunked, Mms.Http.Head.get, hnone]
  rfl

include hextra in
theorem contentLength_answer {w : Nat} (status : Nat) (h : len < 2 ^ w) :
    Mms.Http.Head.contentLength w ⟨status, answerFields contentType extra len⟩ = some len := by
  have hlast : (answerFields contentType extra len).find?
      (fun kv ↦ eqIgnoreCase kv.1 "content-length") = some (Head.field "Content-Length" (dec len)) := by
    have htype : eqIgnoreCase "Content-Type" "content-length" = false := by decide
    have hlength : eqIgnoreCase "Content-Length" "content-length" = true := by decide
    have hmiddle : extra.find? (fun kv ↦ eqIgnoreCase kv.1 "content-length") = none := by
      rcases hextra with rfl | rfl
      · rfl
      · decide
    rw [answerFields, List.find?_cons_of_neg (by rw [Head.field, htype]; exact Bool.false_ne_true),
      List.find?_append, hmiddle, Option.none_or]
    exact List.find?_cons_of_pos (p := fun kv : Str × Str ↦ eqIgnoreCase kv.1 "content-length") hlength
  rw [Mms.Http.Head.contentLength, Mms.Http.Head.get, hlast]
  change parseUnsigned 10 (2 ^ w) (trim (dec len)) = some len
  rw [trim_eq_self (isWhitespace_of_mem_dec len), parseUnsigned_dec h]

include hextra in
theorem length_answerFields_le {n : Nat} (hlen : (dec len).length ≤ n) :
    (answerFields contentType extra len).length ≤ 5 ∧ ∀ f ∈ answerFields contentType extra len,
      f.1.length ≤ 22 ∧ f.2.length ≤ 128 + n := by
  have hmiddle : extra.length ≤ 2 ∧ ∀ f ∈ extra, f.1.length ≤ 22 ∧ f.2.length ≤ 128 := by
    rcases hextra with rfl | rfl <;> decide
  constructor
  · simp only [answerFields, List.length_cons, List.length_append, List.length_nil]
    omega
  · refine List.forall_mem_cons.mpr ⟨⟨show ("Content-Type" : Str).length ≤ 22 by decide,
      Nat.le_add_right_of_le (length_sanitizeMediaType_le contentType)⟩, ?_⟩
    intro f hf
    rcases List.mem_append.mp hf with hf | hf
    · exact ⟨(hmiddle.2 f hf).1, Nat.le_add_right_of_le (hmiddle.2 f hf).2⟩
    · rcases List.mem_cons.mp hf with rfl | hf
      · exact ⟨show ("Content-Length" : Str).length ≤ 22 by decide, Nat.le_add_left_of_le hlen⟩
      · rw [List.mem_singleton.mp hf]
        exact ⟨show ("Connection" : Str).length ≤ 22 by decide,
          Nat.le_add_right_of_le (show ("close" : Str).length ≤ 128 by decide)⟩

theorem length_three (a b c : Str) :
    (a ++ ' ' :: (b ++ ' ' :: c)).length = a.length + b.length + c.length + 2 := by
  rw [List.length_append, List.length_cons, List.length_append, List.length_cons]
  omega

theorem length_statusLine_le {status : Nat} (h : status < 2 ^ 16) : (statusLine status).length ≤ 36 := by
  have hcode : (dec status).length ≤ 5 :=
    length_dec_le (by decide) (h.trans_le (show 2 ^ 16 ≤ 10 ^ 5 by decide))
  have hversion : ("HTTP/1.1" : Str).length = 8 := by decide
  obtain ⟨-, -, hreason⟩ := reason_spec status
  unfold statusLine
  exact (length_three _ _ _).trans_le
    (Nat.add_le_add_right (Nat.add_le_add (Nat.add_le_add hversion.le hcode) hreason) 2)

include hextra in
/-- The head of an answer is short, however long the media type was. -/
theorem length_head_le {status : Nat} (hstatus : status < 2 ^ 16) (hlen : len < 2 ^ 64) :
    (utf8 (Head.crlf.intercalate (statusLine status ::
      (answerFields contentType extra len).map Head.line))).length ≤ 4096 := by
  have hdec : (dec len).length ≤ 20 :=
    length_dec_le (by decide) (hlen.trans_le (show 2 ^ 64 ≤ 10 ^ 20 by decide))
  obtain ⟨hcount, hfields⟩ := length_answerFields_le hextra contentType len hdec
  have hline := length_statusLine_le hstatus
  have hlines := Head.length_flatMap_line_le hfields
  have hbytes := length_bytes_nil (List.cons_ne_nil (statusLine status)
    ((answerFields contentType extra len).map Head.line))
  have htext := length_utf8_le ((statusLine status ::
    (answerFields contentType extra len).map Head.line).flatMap (· ++ Head.crlf) ++ Head.crlf)
  have hcrlf : Head.crlf.length = 2 := rfl
  rw [Head.bytes, List.append_nil] at hbytes
  rw [hbytes, List.flatMap_cons, List.length_append, List.length_append, List.length_append,
    hcrlf] at htext
  have hmul := Nat.mul_le_mul_right (22 + (128 + 20) + 4) hcount
  omega

end Answers

/-- The lines of an answer are read as the one response that was meant. -/
theorem readResponse_lines {w status maxSize : Nat} (hw : w ≤ 64) (hstatus : status < 2 ^ 16)
    (contentType : Str) {extra : List (Str × Str)} (hextra : extra = [] ∨ extra = attachmentFields)
    {body : List UInt8} (hlen : body.length < 2 ^ w) (hmax : body.length ≤ effectiveLimit maxSize)
    (c : Cut (Head.bytes (statusLine status ::
      (answerFields contentType extra body.length).map Head.line) body))
    (hc : ∀ r ∈ c.reads, r.length ≤ 8192) :
    readResponse w c.connection maxSize =
      .ok (.ok { status, headers := answerFields contentType extra body.length, body }) := by
  have hlines := lines_answer hextra contentType body.length status
  have hfields := fields_answerFields hextra contentType body.length
  have hcode : (words (statusLine status))[1]?.bind parseU16 = some status := by
    rw [words_statusLine, Option.bind_some]
    exact parseUnsigned_dec hstatus
  have hpow : body.length < 2 ^ 64 := hlen.trans_le (Nat.pow_le_pow_right (by decide) hw)
  have hhead := length_head_le hextra contentType body.length hstatus hpow
  have hread : readResponse w c.connection maxSize = _ := readResponse_bytes hlines hcode
    (by rw [hfields]; exact isChunked_answer hextra contentType body.length status)
    (by rw [hfields]; exact contentLength_answer hextra contentType body.length status hlen)
    hmax (by omega) c hc
  rw [hfields] at hread
  exact hread

theorem readResponse_attachmentAnswer {w maxSize : Nat} (hw : w ≤ 64) (contentType : Str)
    {data : List UInt8} (hlen : data.length < 2 ^ w) (hmax : data.length ≤ effectiveLimit maxSize)
    (c : Cut (attachmentAnswer contentType data)) (hc : ∀ r ∈ c.reads, r.length ≤ 8192) :
    readResponse w c.connection maxSize =
      .ok (.ok ⟨200, answerFields contentType attachmentFields data.length, data⟩) := by
  revert c
  rw [attachmentAnswer, attachmentHeaders_eq, respondBytesWith_eq]
  intro c hc
  exact readResponse_lines hw (by decide) contentType (.inr rfl) hlen hmax c hc

/-- Whatever media type the sender of an attachment declares, the answer is read as the one response
that was meant, with its own fields and the whole body, however it is cut. -/
theorem readResponse_respondBytesWith {w status maxSize : Nat} (hw : w ≤ 64) (hstatus : status < 2 ^ 16)
    (contentType : Str) {extra : List (Str × Str)} (hextra : extra = [] ∨ extra = attachmentFields)
    {body : List UInt8} (hlen : body.length < 2 ^ w) (hmax : body.length ≤ effectiveLimit maxSize)
    (c : Cut (respondBytesWith status contentType
      (extra.flatMap fun f ↦ Head.line f ++ Head.crlf) body))
    (hc : ∀ r ∈ c.reads, r.length ≤ 8192) :
    readResponse w c.connection maxSize =
      .ok (.ok { status, headers := answerFields contentType extra body.length, body }) := by
  revert c
  rw [respondBytesWith_eq]
  intro c hc
  exact readResponse_lines hw hstatus contentType hextra hlen hmax c hc

/-- A media type that tries to end the head. -/
theorem readResponse_respondBytesWith_ok :
    readResponse 64 ⟨[attachmentAnswer "image/jpeg\r\nX-Evil: 1" [1, 2]], none⟩ 0 =
      .ok (.ok ⟨200, answerFields "image/jpeg\r\nX-Evil: 1" attachmentFields 2, [1, 2]⟩) := by
  have hne : attachmentAnswer "image/jpeg\r\nX-Evil: 1" [1, 2] ≠ [] :=
    List.append_ne_nil_of_right_ne_nil _ (List.cons_ne_nil _ _)
  have hlen : (attachmentAnswer "image/jpeg\r\nX-Evil: 1" [1, 2]).length ≤ 8192 := by
    decide +kernel
  unfold attachmentAnswer at hne hlen ⊢
  rw [attachmentHeaders_eq] at hne hlen ⊢
  exact readResponse_respondBytesWith (by decide) (by decide) _ (.inr rfl) (by decide) (by decide)
    ⟨_, List.forall_mem_singleton.mpr hne, List.append_nil _⟩ (List.forall_mem_singleton.mpr hlen)

end Modem2Sip.Api
