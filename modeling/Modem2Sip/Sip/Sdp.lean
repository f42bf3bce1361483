import Modem2Sip.Lib.Net

/-!
# Session descriptions

`sip/sdp.rs`: what the gateway reads from an offer or an answer, and what it
writes.  The reader goes through the text line by line; `ParseState` is what it
remembers between two lines.
-/

namespace Modem2Sip.Sip

open Text Net

inductive Codec where
  | pcmu
  | pcma
deriving DecidableEq, Repr

namespace Codec

def payloadType : Codec → Nat
  | pcmu => 0
  | pcma => 8

def rtpmap : Codec → Str
  | pcmu => "PCMU/8000"
  | pcma => "PCMA/8000"

def fromPayloadType : Nat → Option Codec
  | 0 => some pcmu
  | 8 => some pcma
  | _ => none

@[simp] theorem fromPayloadType_payloadType (c : Codec) :
    fromPayloadType c.payloadType = some c := by
  cases c <;> rfl

end Codec

inductive Direction where
  | sendRecv
  | sendOnly
  | recvOnly
  | inactive
deriving DecidableEq, Repr

namespace Direction

def asStr : Direction → Str
  | sendRecv => "sendrecv"
  | sendOnly => "sendonly"
  | recvOnly => "recvonly"
  | inactive => "inactive"

/-- The direction an answer takes to this offer: the two ends see the same stream from
opposite sides. -/
def reversed : Direction → Direction
  | sendOnly => recvOnly
  | recvOnly => sendOnly
  | same => same

/-- Is the peer that offered this going to send us anything? -/
def peerSends : Direction → Bool
  | sendRecv => true
  | sendOnly => true
  | _ => false

@[simp] theorem reversed_reversed (d : Direction) : d.reversed.reversed = d := by
  cases d <;> rfl

theorem reversed_injective : Function.Injective reversed :=
  Function.Involutive.injective reversed_reversed

end Direction

structure Sdp where
  originUser : Str
  sessionId : Nat
  sessionVersion : Nat
  address : IpAddr
  port : Nat
  /-- Payload types offered, in preference order. -/
  payloadTypes : List Nat
  /-- The payload type of RFC 2833 events, if offered. -/
  telephoneEvent : Option Nat
  ptime : Option Nat
  sendrecv : Direction
deriving DecidableEq, Repr

namespace Sdp

/-- Our own offer.  `now` is the wall clock in seconds. -/
def offer (now : Nat) (address : IpAddr) (port : Nat) (telephoneEvent : Option Nat)
    (ptime : Nat) : Sdp where
  originUser := "modem2sip"
  sessionId := now
  sessionVersion := now
  address := address
  port := port
  payloadTypes := [Codec.pcmu.payloadType, Codec.pcma.payloadType]
  telephoneEvent := telephoneEvent
  ptime := some ptime
  sendrecv := .sendRecv

/-! ## Reading -/

/-- An address, without the suffix of a multicast one. -/
def parseIp (s : Str) : Option IpAddr := IpAddr.parse (before '/' s)

/-- The local variables of `Sdp::parse`. -/
structure ParseState where
  address : Option IpAddr
  mediaAddress : Option IpAddr
  port : Nat
  payloadTypes : List Nat
  telephoneEvent : Option Nat
  ptime : Option Nat
  direction : Direction
  inAudio : Bool
  seenMedia : Bool

def ParseState.init : ParseState where
  address := none
  mediaAddress := none
  port := 0
  payloadTypes := []
  telephoneEvent := none
  ptime := none
  direction := .sendRecv
  inAudio := false
  seenMedia := false

/-- A `c=` line. -/
def parseConnection (st : ParseState) (value : Str) : ParseState :=
  let ip := (words value)[2]?.bind parseIp
  if st.seenMedia then
    if st.inAudio then { st with mediaAddress := ip } else st
  else { st with address := ip }

/-- An `m=` line.  Only the first audio section with payload types counts. -/
def parseMedia (st : ParseState) (value : Str) : ParseState :=
  let ws := words value
  let inAudio := ws.head? == some "audio" && st.payloadTypes.isEmpty
  let st := { st with seenMedia := true, inAudio }
  if inAudio then
    { st with
      port := (ws[1]?.bind parseU16).getD 0
      payloadTypes := st.payloadTypes ++ (ws.drop 3).filterMap parseU8 }
  else st

/-- An `a=` line that applies: at session level, or inside the audio section. -/
def parseAttribute (st : ParseState) (value : Str) : ParseState :=
  let attr := trim value
  match stripPrefix "rtpmap:" attr with
  | some rest =>
    match words rest with
    | pt :: enc :: _ =>
      if ("telephone-event" : Str).isPrefixOf (lower enc) then
        { st with telephoneEvent := parseU8 pt }
      else st
    | _ => st
  | none =>
    match stripPrefix "ptime:" attr with
    | some rest => { st with ptime := parseU32 (trim rest) }
    | none =>
      if eqIgnoreCase attr "sendonly" then { st with direction := .sendOnly }
      else if eqIgnoreCase attr "recvonly" then { st with direction := .recvOnly }
      else if eqIgnoreCase attr "inactive" then { st with direction := .inactive }
      else if eqIgnoreCase attr "sendrecv" then { st with direction := .sendRecv }
      else st

def parseLine (st : ParseState) (line : Str) : ParseState :=
  match splitAt '=' (trimEndMatches '\r' line) with
  | none => st
  | some (key, value) =>
    if key = "c" then parseConnection st value
    else if key = "m" then parseMedia st value
    else if key = "a" && (st.inAudio || !st.seenMedia) then parseAttribute st value
    else st

/-- What the text says once all lines are read; nothing without a payload type. -/
def ParseState.finish (st : ParseState) : Option Sdp :=
  if st.payloadTypes = [] then none
  else
    some
      { originUser := "-"
        sessionId := 0
        sessionVersion := 0
        address := (st.mediaAddress <|> st.address).getD (.v4 0)
        port := st.port
        payloadTypes := st.payloadTypes
        telephoneEvent := st.telephoneEvent
        ptime := st.ptime
        sendrecv := st.direction }

def parse (text : Str) : Option Sdp := ((lines text).foldl parseLine .init).finish

/-- The first codec of the list that we have too. -/
def negotiate (sdp : Sdp) : Option Codec := sdp.payloadTypes.findSome? Codec.fromPayloadType

/-- Is there somewhere to send RTP to? -/
def hasMedia (sdp : Sdp) : Bool := sdp.port != 0 && !sdp.address.isUnspecified

/-! ## Writing -/

/-- The answer to an offer, with our own transport. -/
def answer (sdp : Sdp) (now : Nat) (address : IpAddr) (port : Nat) (codec : Codec)
    (dtmfPt : Option Nat) (ptime : Nat) : Sdp where
  originUser := "modem2sip"
  sessionId := now
  sessionVersion := now
  address := address
  port := port
  payloadTypes := [codec.payloadType]
  telephoneEvent := dtmfPt.bind fun _ ↦ sdp.telephoneEvent
  ptime := some ptime
  sendrecv := sdp.sendrecv.reversed

def sessionLines (sdp : Sdp) : List Str :=
  let ipver : Str := if sdp.address.isV6 then "IP6" else "IP4"
  [ "v=0",
    "o=" ++ [' '].intercalate
      [sdp.originUser, dec sdp.sessionId, dec sdp.sessionVersion, "IN", ipver, sdp.address.show],
    "s=modem2sip",
    "c=IN " ++ ipver ++ ' ' :: sdp.address.show,
    "t=0 0" ]

/-- The payload types of the `m=` line. -/
def mediaTypes (sdp : Sdp) : List Nat := sdp.payloadTypes ++ sdp.telephoneEvent.toList

def mediaLine (sdp : Sdp) : Str :=
  "m=audio " ++ dec sdp.port ++ " RTP/AVP " ++ [' '].intercalate (sdp.mediaTypes.map dec)

def attributeLines (sdp : Sdp) : List Str :=
  let codecs : List Str := sdp.payloadTypes.filterMap fun pt ↦
    (Codec.fromPayloadType pt).map fun c ↦ "a=rtpmap:" ++ dec pt ++ ' ' :: c.rtpmap
  let events : List Str :=
    match sdp.telephoneEvent with
    | some te => ["a=rtpmap:" ++ dec te ++ " telephone-event/8000", "a=fmtp:" ++ dec te ++ " 0-16"]
    | none => []
  let packets : List Str := (sdp.ptime.map fun pt ↦ "a=ptime:" ++ dec pt).toList
  codecs ++ events ++ packets

/-- The lines of a description, without their ends. -/
def renderLines (sdp : Sdp) : List Str :=
  sdp.sessionLines ++ sdp.mediaLine :: sdp.attributeLines ++ ["a=" ++ sdp.sendrecv.asStr]

def render (sdp : Sdp) : Str := sdp.renderLines.flatMap fun l ↦ l ++ ['\r', '\n']

@[simp] theorem answer_sendrecv (sdp : Sdp) (now : Nat) (address : IpAddr) (port : Nat)
    (codec : Codec) (dtmfPt : Option Nat) (ptime : Nat) :
    (sdp.answer now address port codec dtmfPt ptime).sendrecv = sdp.sendrecv.reversed := rfl

/-! ## Reading what was written -/

/-- Beside the `m=` line, every line starts with another letter, and all are printable text. -/
theorem sessionLines_head (sdp : Sdp) : ∀ l ∈ sdp.sessionLines, l.head? ≠ some 'm' := by
  simp [sessionLines]

theorem attributeLines_head (sdp : Sdp) : ∀ l ∈ sdp.attributeLines, l.head? ≠ some 'm' := by
  intro l hl
  simp only [attributeLines, List.mem_append, List.mem_filterMap] at hl
  rcases hl with (⟨pt, -, hpt⟩ | hl) | hl
  · obtain ⟨c, -, rfl⟩ := Option.map_eq_some_iff.mp hpt
    simp
  · split at hl
    · rcases List.mem_pair.mp hl with rfl | rfl <;> simp
    · simp at hl
  · obtain ⟨pt, -, rfl⟩ : ∃ pt, sdp.ptime = some pt ∧ "a=ptime:" ++ dec pt = l := by
      simpa using hl
    simp

theorem plain_sessionLines {sdp : Sdp} (huser : Plain sdp.originUser) :
    ∀ l ∈ sdp.sessionLines, Plain l := by
  have hip : Plain (if sdp.address.isV6 then ("IP6" : Str) else "IP4") := by split <;> decide
  have horigin : Plain ([' '].intercalate
      [sdp.originUser, dec sdp.sessionId, dec sdp.sessionVersion, "IN",
        if sdp.address.isV6 then ("IP6" : Str) else "IP4", sdp.address.show]) := by
    refine plain_intercalate (by decide) ?_
    simp only [List.forall_mem_cons]
    exact ⟨huser, plain_dec _, plain_dec _, by decide, hip, IpAddr.plain_show _, by simp⟩
  simp only [sessionLines, List.forall_mem_cons, plain_append, plain_cons]
  exact ⟨by decide, ⟨by decide, horigin⟩, by decide, ⟨⟨by decide, hip⟩, by decide, IpAddr.plain_show _⟩,
    by decide, by simp⟩

theorem plain_mediaLine (sdp : Sdp) : Plain sdp.mediaLine := by
  have hpts : Plain ([' '].intercalate (sdp.mediaTypes.map dec)) := by
    refine plain_intercalate (by decide) fun s hs ↦ ?_
    obtain ⟨n, -, rfl⟩ := List.mem_map.mp hs
    exact plain_dec n
  unfold mediaLine
  rw [plain_append, plain_append, plain_append]
  exact ⟨⟨⟨by decide, plain_dec _⟩, by decide⟩, hpts⟩

theorem plain_attributeLines (sdp : Sdp) : ∀ l ∈ sdp.attributeLines, Plain l := by
  intro l hl
  simp only [attributeLines, List.mem_append, List.mem_filterMap] at hl
  rcases hl with (⟨pt, -, hpt⟩ | hl) | hl
  · obtain ⟨c, -, rfl⟩ := Option.map_eq_some_iff.mp hpt
    simp only [plain_append, plain_cons]
    exact ⟨⟨by decide, plain_dec _⟩, by decide, by cases c <;> decide⟩
  · split at hl
    · rcases List.mem_pair.mp hl with rfl | rfl <;> simp only [plain_append]
      · exact ⟨⟨by decide, plain_dec _⟩, by decide⟩
      · exact ⟨⟨by decide, plain_dec _⟩, by decide⟩
    · simp at hl
  · obtain ⟨pt, -, rfl⟩ : ∃ pt, sdp.ptime = some pt ∧ "a=ptime:" ++ dec pt = l := by
      simpa using hl
    exact plain_append.mpr ⟨by decide, plain_dec _⟩

theorem plain_renderLines {sdp : Sdp} (huser : Plain sdp.originUser) :
    ∀ l ∈ sdp.renderLines, Plain l := by
  intro l hl
  simp only [renderLines, List.mem_append, List.mem_cons, List.not_mem_nil, or_false] at hl
  rcases hl with (hl | rfl | hl) | rfl
  · exact plain_sessionLines huser l hl
  · exact plain_mediaLine sdp
  · exact plain_attributeLines sdp l hl
  · exact plain_append.mpr ⟨by decide, by cases sdp.sendrecv <;> decide⟩

/-- The reader sees the lines that were written. -/
theorem lines_render {sdp : Sdp} (huser : Plain sdp.originUser) :
    lines (fromUtf8Lossy (utf8 sdp.render)) = sdp.renderLines := by
  have hplain := plain_renderLines huser
  rw [fromUtf8Lossy_utf8, render,
    lines_crlf fun l hl ↦ (hplain l hl).not_mem (by decide)]

/-- The origin of an answer tells its second: two answers with all else alike read the same only
within one second. -/
theorem render_answer_inj {sdp : Sdp} {now now' : Nat} {address : IpAddr} {port : Nat}
    {codec : Codec} {dtmfPt : Option Nat} {ptime : Nat} :
    (sdp.answer now address port codec dtmfPt ptime).render =
      (sdp.answer now' address port codec dtmfPt ptime).render ↔ now = now' := by
  constructor
  · intro h
    have hlines := congrArg (fun s ↦ lines (fromUtf8Lossy (utf8 s))) h
    have huser : Plain ("modem2sip" : Str) := by decide
    rw [lines_render huser, lines_render huser] at hlines
    obtain ⟨-, horigin⟩ := List.cons.inj hlines
    obtain ⟨horigin, -⟩ := List.cons.inj horigin
    have hid (n : Nat) : ' ' ∉ dec n := fun hmem ↦
      absurd (isWhitespace_of_mem_dec n _ hmem) (by decide)
    have hsplit := congrArg (splitAt ' ') (List.append_cancel_left
      (List.append_cancel_left horigin : ("modem2sip " : Str) ++ (dec now ++ ' ' :: _) =
        ("modem2sip " : Str) ++ (dec now' ++ ' ' :: _)))
    rw [splitAt_append_cons (hid now), splitAt_append_cons (hid now')] at hsplit
    exact dec_inj.mp (Prod.mk.inj (Option.some.inj hsplit)).1
  · rintro rfl
    rfl

/-- A line that is no `m=` line leaves the payload types and the section alone. -/
theorem parseLine_of_head (st : ParseState) {line : Str} (h : line.head? ≠ some 'm') :
    (parseLine st line).payloadTypes = st.payloadTypes ∧
      (parseLine st line).inAudio = st.inAudio := by
  unfold parseLine
  split
  · exact ⟨rfl, rfl⟩
  · rename_i key value hsplit
    have hkey : key ≠ "m" := by
      rintro rfl
      obtain ⟨c, -, heq, -⟩ := eq_of_splitOnce hsplit
      obtain ⟨rest, hrest⟩ := List.rdropWhile_prefix (· == '\r') (l := line)
      rw [show line.rdropWhile (· == '\r') = _ from heq] at hrest
      exact h (by rw [← hrest]; rfl)
    rw [if_neg hkey]
    split
    · unfold parseConnection
      dsimp only
      split
      · split <;> exact ⟨rfl, rfl⟩
      · exact ⟨rfl, rfl⟩
    · split
      · unfold parseAttribute
        dsimp only
        repeat' split
        all_goals exact ⟨rfl, rfl⟩
      · exact ⟨rfl, rfl⟩

theorem foldl_parseLine_of_head {ls : List Str} (h : ∀ l ∈ ls, l.head? ≠ some 'm')
    (st : ParseState) :
    (ls.foldl parseLine st).payloadTypes = st.payloadTypes ∧
      (ls.foldl parseLine st).inAudio = st.inAudio := by
  induction ls generalizing st with
  | nil => exact ⟨rfl, rfl⟩
  | cons l ls ih =>
      obtain ⟨hp, ha⟩ := parseLine_of_head st (h l List.mem_cons_self)
      obtain ⟨hp', ha'⟩ := ih (fun l' hl' ↦ h l' (List.mem_cons_of_mem l hl')) (parseLine st l)
      exact ⟨hp'.trans hp, ha'.trans ha⟩

/-- What follows the `m=`. -/
def mediaValue (sdp : Sdp) : Str :=
  "audio" ++ ' ' :: (dec sdp.port ++ ' ' :: ("RTP/AVP" ++ ' ' ::
    [' '].intercalate (sdp.mediaTypes.map dec)))

theorem mediaLine_eq (sdp : Sdp) : sdp.mediaLine = "m" ++ '=' :: sdp.mediaValue := by
  unfold mediaLine mediaValue
  generalize dec sdp.port = port
  generalize [' '].intercalate (sdp.mediaTypes.map dec) = pts
  simp

theorem words_mediaValue (sdp : Sdp) : words sdp.mediaValue =
    ("audio" : Str) :: dec sdp.port :: ("RTP/AVP" : Str) :: sdp.mediaTypes.map dec := by
  unfold mediaValue
  rw [words_append_cons (by decide) (by decide) (by decide),
    words_append_cons (dec_ne_nil _) (isWhitespace_of_mem_dec _) (by decide),
    words_append_cons (by decide) (by decide) (by decide), words_intercalate]
  intro w hw
  obtain ⟨n, -, rfl⟩ := List.mem_map.mp hw
  exact ⟨dec_ne_nil n, isWhitespace_of_mem_dec n⟩

/-- The `m=` line opens the audio section, with the payload types that fit a byte. -/
theorem parseLine_mediaLine {st : ParseState} (hst : st.payloadTypes = []) (sdp : Sdp) :
    (parseLine st sdp.mediaLine).inAudio = true ∧
      ∀ pt ∈ sdp.mediaTypes, pt < 2 ^ 8 → pt ∈ (parseLine st sdp.mediaLine).payloadTypes := by
  have hsplit : splitAt '=' (trimEndMatches '\r' sdp.mediaLine) =
      some (("m" : Str), sdp.mediaValue) := by
    rw [(plain_mediaLine sdp).trimEndMatches (by decide), mediaLine_eq]
    exact splitOnce_append (by decide) (by decide)
  have hread (pt : Nat) (hmem : pt ∈ sdp.mediaTypes) (hpt : pt < 2 ^ 8) :
      pt ∈ (sdp.mediaTypes.map dec).filterMap parseU8 :=
    List.mem_filterMap.mpr ⟨dec pt, List.mem_map_of_mem hmem, parseUnsigned_dec hpt⟩
  unfold parseLine
  rw [hsplit]
  simpa [parseMedia, words_mediaValue, hst] using hread

/-- The direction is that of the last attribute. -/
theorem parseLine_direction {st : ParseState} (hst : st.inAudio = true) (d : Direction) :
    parseLine st ("a=" ++ d.asStr) = { st with direction := d } := by
  have hsplit : splitAt '=' (trimEndMatches '\r' ("a=" ++ d.asStr)) = some (("a" : Str), d.asStr) := by
    cases d <;> decide
  have hattr : parseAttribute st d.asStr = { st with direction := d } := by
    cases d <;> rfl
  unfold parseLine
  rw [hsplit]
  simp [hst, hattr]

/-- The direction of a description of ours is read back by the peer. -/
theorem parse_render_sendrecv {sdp : Sdp} (huser : Plain sdp.originUser)
    (hpt : ∃ pt ∈ sdp.payloadTypes, pt < 2 ^ 8) :
    (parse (fromUtf8Lossy (utf8 sdp.render))).map Sdp.sendrecv = some sdp.sendrecv := by
  obtain ⟨hsession, -⟩ := foldl_parseLine_of_head sdp.sessionLines_head .init
  obtain ⟨haudio, hread⟩ := parseLine_mediaLine hsession sdp
  obtain ⟨hattrs, haudio'⟩ := foldl_parseLine_of_head sdp.attributeLines_head
    (parseLine (sdp.sessionLines.foldl parseLine .init) sdp.mediaLine)
  unfold parse
  rw [lines_render huser, renderLines, List.foldl_append, List.foldl_append, List.foldl_cons,
    List.foldl_cons, List.foldl_nil, parseLine_direction (haudio'.trans haudio)]
  have hpayload : (sdp.attributeLines.foldl parseLine
      (parseLine (sdp.sessionLines.foldl parseLine .init) sdp.mediaLine)).payloadTypes ≠ [] := by
    obtain ⟨pt, hmem, hlt⟩ := hpt
    rw [hattrs]
    exact List.ne_nil_of_mem (hread pt (List.mem_append_left _ hmem) hlt)
  simp [ParseState.finish, hpayload]

/-- The peer reads the direction that it offered, reversed. -/
theorem parse_render_answer (sdp : Sdp) (now : Nat) (address : IpAddr) (port : Nat) (codec : Codec)
    (dtmfPt : Option Nat) (ptime : Nat) :
    (parse (fromUtf8Lossy (utf8 (sdp.answer now address port codec dtmfPt ptime).render))).map
      Sdp.sendrecv = some sdp.sendrecv.reversed := by
  have huser : Plain ("modem2sip" : Str) := by decide
  have hcodec : codec.payloadType < 2 ^ 8 := by cases codec <;> decide
  exact parse_render_sendrecv huser ⟨codec.payloadType, List.mem_singleton_self _, hcodec⟩

example : (parse "v=0\r\nc=IN IP4 10.0.0.5\r\nm=audio 40000 RTP/AVP 8 0 101\r\na=sendonly\r\n").map
    (fun s ↦ (s.address, s.port, s.payloadTypes, s.sendrecv)) =
    some (.v4 (ofOctets 10 0 0 5), 40000, [8, 0, 101], .sendOnly) := by
  decide

end Sdp

end Modem2Sip.Sip
