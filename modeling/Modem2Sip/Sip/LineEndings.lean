import Modem2Sip.Sip.Wire

/-!
# Line feeds for line endings

A message may end its lines with line feeds alone.  The end of its head is then an empty
line of that kind, but an empty line of the other kind is looked for first, all over the
datagram.  The head has none, so that it is the body that decides: where the body has
one, the head is taken to go on until there.
-/

namespace Modem2Sip.Sip

open Text

/-! ## Heads -/

/-- The lines of a head.  None is empty, since an empty line would end the head. -/
structure HeadLines where
  lines : List (List UInt8)
  ne_nil : lines ≠ []
  line_ne_nil : ∀ l ∈ lines, l ≠ []
  no_cr : ∀ l ∈ lines, 13 ∉ l
  no_lf : ∀ l ∈ lines, 10 ∉ l

namespace HeadLines

variable (head : HeadLines) (body : List UInt8)

/-- The datagram with line feeds throughout the head. -/
def lf : List UInt8 := [10].intercalate head.lines ++ 10 :: 10 :: body

/-- And with carriage returns before them. -/
def crlf : List UInt8 := [13, 10].intercalate head.lines ++ 13 :: 10 :: 13 :: 10 :: body

theorem findBodyStart_crlf : findBodyStart (head.crlf body) =
    (([13, 10].intercalate head.lines).length, ([13, 10].intercalate head.lines).length + 4) := by
  have hfind := Lines.findSub_intercalate (a := (13 : UInt8)) (b := 10) (by decide) head.ne_nil
    (fun l hl ↦ ⟨head.line_ne_nil l hl, head.no_cr l hl⟩) body
  rw [findBodyStart, crlf, hfind]

/-- There is no carriage return before the body. -/
theorem findSub_lf : Lines.findSub [13, 10, 13, 10] (head.lf body) =
    (Lines.findSub [13, 10, 13, 10] body).map (([10].intercalate head.lines).length + 2 + ·) := by
  have hno : 13 ∉ [10].intercalate head.lines ++ [10, 10] := by
    intro h
    rcases List.mem_append.mp h with h | h
    · have hline : ∀ l ∈ head.lines, ∀ b ∈ l, b ≠ (13 : UInt8) :=
        fun l hl b hb heq ↦ head.no_cr l hl (heq ▸ hb)
      exact forall_mem_intercalate (List.forall_mem_singleton.mpr (by decide)) hline 13 h rfl
    · exact absurd h (by decide)
  have hsplit : head.lf body = ([10].intercalate head.lines ++ [10, 10]) ++ body := by
    rw [lf, List.append_assoc]
    rfl
  rw [hsplit, Lines.findSub_append hno, List.length_append]
  rfl

/-- Without an empty line in the body the head ends where its lines do. -/
theorem findBodyStart_lf (hbody : ¬ [13, 10, 13, 10] <:+: body) : findBodyStart (head.lf body) =
    (([10].intercalate head.lines).length, ([10].intercalate head.lines).length + 2) := by
  have hcrlf : Lines.findSub [13, 10, 13, 10] (head.lf body) = none := by
    rw [findSub_lf, (Lines.findSub_eq_none_iff_infix (by simp)).mpr hbody, Option.map_none]
  have hlf := Lines.findSub_intercalate_single (a := (10 : UInt8)) head.ne_nil
    (fun l hl ↦ ⟨head.line_ne_nil l hl, head.no_lf l hl⟩) body
  rw [findBodyStart, hcrlf]
  dsimp only
  rw [lf, hlf]

end HeadLines

/-! ## The head as a text -/

/-- What `Message::parse` does once it has the text of the head. -/
def Message.parseHead (head : Str) (body : List UInt8) : Option Message :=
  match (Lines.splitPair '\r' '\n' (unfold head)).filter (· != []) with
  | [] => none
  | start :: lines => Message.ofLines start lines body

theorem Message.parse_eq (buf : List UInt8) : Message.parse buf =
    (fromUtf8 (buf.take (findBodyStart buf).1)).bind
      (Message.parseHead · (buf.drop (findBodyStart buf).2)) := rfl

/-- The lines are unfolded alike, whatever ends them. -/
theorem unfold_lf {lines : List Str} (h : ∀ l ∈ lines, '\r' ∉ l) :
    unfold (['\n'].intercalate lines) = unfold (['\r', '\n'].intercalate lines) := by
  have hno : '\r' ∉ ['\n'].intercalate lines := by
    intro hmem
    have hline : ∀ l ∈ lines, ∀ c ∈ l, c ≠ '\r' := fun l hl c hc heq ↦ h l hl (heq ▸ hc)
    exact forall_mem_intercalate (by decide) hline '\r' hmem rfl
  unfold Sip.unfold
  rw [Lines.replacePair_intercalate '\n' h, Lines.replacePair_of_not_mem '\n' '\n' hno]

/-- A head is a text with the one ending if it is with the other, and is read alike. -/
theorem HeadLines.parseHead_lf (head : HeadLines) (body : List UInt8) :
    (fromUtf8 ([10].intercalate head.lines)).bind (Message.parseHead · body) =
      (fromUtf8 ([13, 10].intercalate head.lines)).bind (Message.parseHead · body) := by
  by_cases htexts : ∃ texts : List Str, head.lines = texts.map utf8
  · obtain ⟨texts, htexts⟩ := htexts
    have hcr : ∀ t ∈ texts, '\r' ∉ t := by
      intro t ht hmem
      refine head.no_cr (utf8 t) ?_ ((mem_utf8_of_ascii (c := '\r') (by decide)).mpr hmem)
      rw [htexts]
      exact List.mem_map_of_mem ht
    have hlf : fromUtf8 ([10].intercalate head.lines) = some (['\n'].intercalate texts) := by
      refine fromUtf8_eq_some.mpr ?_
      rw [htexts, utf8_intercalate]
      rfl
    have hcrlf : fromUtf8 ([13, 10].intercalate head.lines) =
        some (['\r', '\n'].intercalate texts) := by
      refine fromUtf8_eq_some.mpr ?_
      rw [htexts, utf8_intercalate]
      rfl
    rw [hlf, hcrlf, Option.bind_some, Option.bind_some, Message.parseHead, Message.parseHead,
      unfold_lf hcr]
  · have hlf : fromUtf8 ([10].intercalate head.lines) = none := by
      cases h : fromUtf8 ([10].intercalate head.lines) with
      | none => rfl
      | some t =>
          exact absurd (exists_map_utf8_of_intercalate (c := '\n') (by decide) [] head.no_lf
            (fromUtf8_eq_some.mp h)) htexts
    have hcrlf : fromUtf8 ([13, 10].intercalate head.lines) = none := by
      cases h : fromUtf8 ([13, 10].intercalate head.lines) with
      | none => rfl
      | some t =>
          exact absurd (exists_map_utf8_of_intercalate (c := '\r') (by decide) ['\n'] head.no_cr
            (fromUtf8_eq_some.mp h)) htexts
    rw [hlf, hcrlf]

/-! ## Where the endings make no difference -/

def Message.body : Message → List UInt8
  | .request r => r.body
  | .response r => r.body

theorem length_trimBody_le (headers : Headers) (body : List UInt8) :
    (trimBody headers body).length ≤ body.length := by
  unfold trimBody
  split
  · split
    · exact (List.length_take_le _ _).trans (by omega)
    · exact Nat.le_refl _
  · exact Nat.le_refl _

theorem Message.body_of_parseStart {start : Str} {headers : Headers} {body : List UInt8}
    {m : Message} (h : Message.parseStart start headers body = some m) : m.body = body := by
  unfold Message.parseStart at h
  split at h
  · simp only [Option.bind_eq_bind, Option.bind_eq_some_iff, Option.some.injEq] at h
    obtain ⟨-, -, -, -, rfl⟩ := h
    rfl
  · split at h
    · simp only [Option.bind_eq_bind, Option.bind_eq_some_iff, Option.some.injEq] at h
      obtain ⟨-, -, -, -, rfl⟩ := h
      rfl
    · cases h

/-- The body of a message is no longer than what stands behind the head. -/
theorem Message.length_body_le {buf : List UInt8} {m : Message} (h : Message.parse buf = some m) :
    m.body.length ≤ (buf.drop (findBodyStart buf).2).length := by
  rw [Message.parse_eq, Option.bind_eq_some_iff] at h
  obtain ⟨head, -, h⟩ := h
  unfold Message.parseHead at h
  split at h
  · cases h
  · rw [Message.body_of_parseStart h]
    exact length_trimBody_le _ _

/-- A head that says nothing about the body. -/
def okHead : HeadLines where
  lines := [utf8 "SIP/2.0 200 OK"]
  ne_nil := by decide
  line_ne_nil := by decide
  no_cr := by decide
  no_lf := by decide

theorem parse_okHead_crlf (body : List UInt8) : Message.parse (okHead.crlf body) =
    some (.response { code := 200, reason := "OK", headers := ⟨[]⟩, body }) := by
  have hfrom : fromUtf8 ([13, 10].intercalate okHead.lines) = some "SIP/2.0 200 OK".toList :=
    fromUtf8_eq_some.mpr (by decide)
  rw [Message.parse_eq, HeadLines.findBodyStart_crlf, HeadLines.crlf, List.take_left]
  dsimp only
  rw [hfrom, ← List.drop_drop, List.drop_left]
  rfl

/-- An empty line in the body takes away what stands before it. -/
theorem parse_okHead_lf_ne {body : List UInt8} (hbody : [13, 10, 13, 10] <:+: body) :
    Message.parse (okHead.lf body) ≠ Message.parse (okHead.crlf body) := by
  obtain ⟨n, hn⟩ : ∃ n, Lines.findSub [13, 10, 13, 10] body = some n := by
    refine Option.ne_none_iff_exists'.mp fun hnone ↦ ?_
    exact (Lines.findSub_eq_none_iff_infix (by simp)).mp hnone hbody
  have hstart : (findBodyStart (okHead.lf body)).2 =
      ([10].intercalate okHead.lines).length + 2 + n + 4 := by
    rw [findBodyStart, HeadLines.findSub_lf, hn]
    rfl
  intro heq
  have hle := Message.length_body_le (heq.trans (parse_okHead_crlf body))
  rw [hstart, HeadLines.lf, List.length_drop, List.length_append] at hle
  have hlen := Lines.le_length_of_findSub (by simp) hn
  simp only [Message.body, List.length_cons, List.length_nil] at hle hlen
  omega

/-- The endings make no difference exactly for the bodies without an empty line. -/
theorem parse_lf_eq_crlf_iff (body : List UInt8) :
    (∀ head : HeadLines, Message.parse (head.lf body) = Message.parse (head.crlf body)) ↔
      ¬ [13, 10, 13, 10] <:+: body := by
  constructor
  · intro h hbody
    exact parse_okHead_lf_ne hbody (h okHead)
  · intro hbody head
    have hlf : head.lf body = [10].intercalate head.lines ++ ([10, 10] ++ body) := rfl
    have hcrlf : head.crlf body =
        [13, 10].intercalate head.lines ++ ([13, 10, 13, 10] ++ body) := rfl
    rw [Message.parse_eq, Message.parse_eq, HeadLines.findBodyStart_crlf,
      HeadLines.findBodyStart_lf head body hbody, hlf, hcrlf, List.take_left, List.take_left,
      ← List.drop_drop, List.drop_left, ← List.drop_drop, List.drop_left]
    exact head.parseHead_lf body

/-- A line of the body has become a header. -/
theorem parse_lf_bodyAsHeader :
    Message.parse (okHead.lf (utf8 "to: a\r\n\r\nb")) =
        some (.response
          { code := 200, reason := "OK", headers := ⟨[("to", "a")]⟩, body := utf8 "b" }) ∧
      Message.parse (okHead.crlf (utf8 "to: a\r\n\r\nb")) =
        some (.response
          { code := 200, reason := "OK", headers := ⟨[]⟩, body := utf8 "to: a\r\n\r\nb" }) := by
  refine ⟨?_, parse_okHead_crlf _⟩
  have hstart : findBodyStart (okHead.lf (utf8 "to: a\r\n\r\nb")) = (21, 25) := by decide
  have hbody : (okHead.lf (utf8 "to: a\r\n\r\nb")).drop 25 = utf8 "b" := by decide
  have hfrom : fromUtf8 ((okHead.lf (utf8 "to: a\r\n\r\nb")).take 21) =
      some "SIP/2.0 200 OK\n\nto: a".toList := fromUtf8_eq_some.mpr (by decide)
  have hlines : (Lines.splitPair '\r' '\n' (unfold "SIP/2.0 200 OK\n\nto: a".toList)).filter
      (· != []) = ["SIP/2.0 200 OK".toList, "to: a".toList] := by decide
  have hfields : ["to: a".toList].filterMap parseHeaderLine = [("to".toList, "a".toList)] := by
    decide
  rw [Message.parse_eq, hstart]
  dsimp only
  rw [hbody, hfrom, Option.bind_some, Message.parseHead, hlines]
  dsimp only
  rw [Message.ofLines, hfields]
  rfl

theorem exists_parse_lf_ne_crlf : ∃ (head : HeadLines) (body : List UInt8),
    Message.parse (head.lf body) ≠ Message.parse (head.crlf body) := by
  refine ⟨okHead, utf8 "to: a\r\n\r\nb", ?_⟩
  rw [parse_lf_bodyAsHeader.1, parse_lf_bodyAsHeader.2]
  intro h
  simp only [Option.some.injEq, Message.response.injEq, Response.mk.injEq, Headers.mk.injEq] at h
  cases h.2.2.1

end Modem2Sip.Sip
