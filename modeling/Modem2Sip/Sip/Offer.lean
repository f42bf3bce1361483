import Modem2Sip.Sip.SdpReadBack

/-!
# Offer and answer

Which payload types an offer lists, and which encodings it gives them; what the reader keeps of that,
and what an answer says of it.
-/

namespace Modem2Sip.Sip.Sdp

open Text Net

variable {st : ParseState} {sdp : Sdp}

/-! ## What an offer says -/

/-- The payload types in the value of an `m=` line, if it is one of audio. -/
def audioTypesOf (value : Str) : List Nat :=
  if (words value).head? = some ("audio" : Str) then ((words value).drop 3).filterMap parseU8 else []

/-- The payload types that a line lists, if it begins an audio section. -/
def audioTypes (line : Str) : List Nat :=
  match splitAt '=' (trimEndMatches '\r' line) with
  | some (key, value) => if key = "m" then audioTypesOf value else []
  | none => []

/-- The payload types of the first audio section that has some. -/
def offered (ls : List Str) : List Nat := ((ls.map audioTypes).find? (· ≠ [])).getD []

/-- The attribute in a line, if it is at session level or in the audio section. -/
def applied (st : ParseState) (line : Str) : Option Str :=
  match splitAt '=' (trimEndMatches '\r' line) with
  | some (key, value) => if key = "a" && (st.inAudio || !st.seenMedia) then some value else none
  | none => none

def attributesFrom (st : ParseState) : List Str → List Str
  | [] => []
  | l :: ls => (applied st l).toList ++ attributesFrom (parseLine st l) ls

/-- The number and the encoding that an `rtpmap` attribute gives it. -/
def rtpmapOf (attr : Str) : Option (Option Nat × Str) :=
  match (stripPrefix "rtpmap:" (trim attr)).map words with
  | some (pt :: enc :: _) => some (parseU8 pt, enc)
  | _ => none

/-- Is the encoding given to the number in these lines? -/
def Gives (ls : List Str) (n : Nat) (enc : Str) : Prop :=
  ∃ attr ∈ attributesFrom .init ls, rtpmapOf attr = some (some n, enc)

def isEvent (enc : Str) : Bool := ("telephone-event" : Str).isPrefixOf (lower enc)

/-- The number of an attribute that is about telephone events. -/
def eventOf (attr : Str) : Option (Option Nat) :=
  (rtpmapOf attr).bind fun (n, enc) ↦ if isEvent enc then some n else none

/-- The number of the last one. -/
def lastEvent (ls : List Str) : Option Nat := ((attributesFrom .init ls).filterMap eventOf).getLast?.join

/-! ## What an answer may say -/

/-- The clock rate of an encoding, which comes behind its name. -/
def clockRate (enc : Str) : Option Nat := (splitAt '/' enc).bind fun (_, rest) ↦ parseU32 (before '/' rest)

/-- The name of an encoding, in which case does not count, and its clock rate. -/
def SameEncoding (enc enc' : Str) : Prop :=
  lower (before '/' enc) = lower (before '/' enc') ∧ clockRate enc = clockRate enc'

instance (enc enc' : Str) : Decidable (SameEncoding enc enc') := inferInstanceAs (Decidable (_ ∧ _))

/-- An answer lists only what the offer has listed, and gives it no other encoding. -/
def NamesOnlyOffered (offer answer : Str) : Prop :=
  (∀ n ∈ offered (lines answer), n ∈ offered (lines offer)) ∧
    ∀ n ∈ offered (lines answer), ∀ enc enc', Gives (lines offer) n enc → Gives (lines answer) n enc' →
      SameEncoding enc enc'

/-- The last number that is given to telephone events is one that is listed, and it is given to nothing
else, at no other rate; and the number of the codec is given to that codec alone. -/
def Consistent (offer : Str) (codec : Codec) : Prop :=
  (∀ n, lastEvent (lines offer) = some n → n ∈ offered (lines offer) ∧
      ∀ enc, Gives (lines offer) n enc → SameEncoding enc "telephone-event/8000") ∧
    ∀ enc, Gives (lines offer) codec.payloadType enc → SameEncoding enc codec.rtpmap

/-! ## What the reader keeps -/

/-- An attribute is of no section, and lists nothing. -/
theorem parseAttribute_section (st : ParseState) (value : Str) :
    (parseAttribute st value).payloadTypes = st.payloadTypes ∧
      (parseAttribute st value).inAudio = st.inAudio ∧ (parseAttribute st value).seenMedia = st.seenMedia := by
  rw [parseAttribute]
  repeat' split
  all_goals exact ⟨rfl, rfl, rfl⟩

theorem telephoneEvent_parseAttribute (st : ParseState) (value : Str) :
    (parseAttribute st value).telephoneEvent = (eventOf value).getD st.telephoneEvent := by
  rw [parseAttribute, eventOf, rtpmapOf]
  dsimp only
  cases hstrip : stripPrefix "rtpmap:" (trim value) with
  | none =>
      dsimp only [Option.map_none, Option.bind_none, Option.getD_none]
      repeat' split
      all_goals rfl
  | some rest =>
      dsimp only [Option.map_some]
      cases words rest with
      | nil => rfl
      | cons pt ws =>
          cases ws with
          | nil => rfl
          | cons enc ws =>
              dsimp only [Option.bind_some]
              rw [isEvent]
              split
              · rfl
              · rfl

theorem payloadTypes_parseMedia (st : ParseState) (value : Str) :
    (parseMedia st value).payloadTypes = if st.payloadTypes = [] then audioTypesOf value else st.payloadTypes := by
  rw [parseMedia, audioTypesOf]
  by_cases hpts : st.payloadTypes = []
  · by_cases hhead : (words value).head? = some ['a', 'u', 'd', 'i', 'o']
    · simp [hpts, hhead]
    · simp [hpts, hhead]
  · simp [hpts]

/-- The payload types of the first audio section that has some are kept. -/
theorem payloadTypes_parseLine (st : ParseState) (line : Str) :
    (parseLine st line).payloadTypes = if st.payloadTypes = [] then audioTypes line else st.payloadTypes := by
  have hnone : st.payloadTypes = if st.payloadTypes = [] then [] else st.payloadTypes := by
    split
    · assumption
    · rfl
  rw [parseLine, audioTypes]
  cases splitAt '=' (trimEndMatches '\r' line) with
  | none => exact hnone
  | some kv =>
      obtain ⟨key, value⟩ := kv
      dsimp only
      by_cases hm : key = ("m" : Str)
      · subst hm
        rw [if_neg (by decide), if_pos rfl, if_pos rfl]
        exact payloadTypes_parseMedia st value
      · rw [if_neg hm, if_neg hm, ← hnone]
        by_cases hc : key = ("c" : Str)
        · rw [if_pos hc, parseConnection]
          split
          · split
            · rfl
            · rfl
          · rfl
        · rw [if_neg hc]
          split
          · exact (parseAttribute_section st value).1
          · rfl

theorem payloadTypes_foldl (st : ParseState) (ls : List Str) :
    (ls.foldl parseLine st).payloadTypes = if st.payloadTypes = [] then offered ls else st.payloadTypes := by
  induction ls generalizing st with
  | nil =>
      rw [List.foldl_nil]
      split
      · assumption
      · rfl
  | cons l ls ih =>
      rw [List.foldl_cons, ih, payloadTypes_parseLine, offered, offered, List.map_cons, List.find?_cons]
      by_cases hpts : st.payloadTypes = []
      · rw [if_pos hpts, if_pos hpts]
        by_cases hl : audioTypes l = []
        · rw [if_pos hl, hl]
          rfl
        · rw [if_neg hl, decide_eq_true hl]
          rfl
      · rw [if_neg hpts, if_neg hpts, if_neg hpts]

/-- A line changes what is known of events only by an attribute that applies. -/
theorem telephoneEvent_parseLine (st : ParseState) (line : Str) :
    (parseLine st line).telephoneEvent = ((applied st line).bind eventOf).getD st.telephoneEvent := by
  rw [parseLine, applied]
  cases splitAt '=' (trimEndMatches '\r' line) with
  | none => rfl
  | some kv =>
      obtain ⟨key, value⟩ := kv
      dsimp only
      by_cases hc : key = ("c" : Str)
      · subst hc
        rw [if_pos rfl, parseConnection]
        split
        · split
          · rfl
          · rfl
        · rfl
      · rw [if_neg hc]
        by_cases hm : key = ("m" : Str)
        · subst hm
          rw [if_pos rfl, parseMedia]
          dsimp only
          split
          · rfl
          · rfl
        · rw [if_neg hm]
          split
          · exact telephoneEvent_parseAttribute st value
          · rfl

theorem telephoneEvent_foldl (st : ParseState) (ls : List Str) :
    (ls.foldl parseLine st).telephoneEvent =
      ((attributesFrom st ls).filterMap eventOf).getLast?.getD st.telephoneEvent := by
  induction ls generalizing st with
  | nil => rfl
  | cons l ls ih =>
      rw [List.foldl_cons, ih, telephoneEvent_parseLine, attributesFrom, List.filterMap_append,
        List.getLast?_append]
      cases ((attributesFrom (parseLine st l) ls).filterMap eventOf).getLast? with
      | some n => rfl
      | none =>
          cases applied st l with
          | none => rfl
          | some value =>
              rw [Option.toList_some, List.filterMap_cons, List.filterMap_nil, Option.bind_some]
              cases eventOf value with
              | none => rfl
              | some n => rfl

/-- What is kept of an offer are the payload types that it lists, and the number that it gives to
telephone events last. -/
theorem of_parse {text : Str} (h : parse text = some sdp) :
    sdp.payloadTypes = offered (lines text) ∧ sdp.telephoneEvent = lastEvent (lines text) := by
  rw [parse, ParseState.finish] at h
  split at h
  · cases h
  · cases h
    constructor
    · exact payloadTypes_foldl .init (lines text)
    · change ((lines text).foldl parseLine .init).telephoneEvent = _
      rw [telephoneEvent_foldl, lastEvent]
      cases ((attributesFrom .init (lines text)).filterMap eventOf).getLast? with
      | none => rfl
      | some n => rfl

/-- An encoding is given to a number that a byte holds. -/
theorem lt_of_rtpmapOf {attr enc : Str} {n : Nat} (h : rtpmapOf attr = some (some n, enc)) : n < 2 ^ 8 := by
  rw [rtpmapOf] at h
  split at h
  · rename_i pt enc' ws _
    have hpt : parseU8 pt = some n := (Prod.mk.inj (Option.some_inj.mp h)).1
    exact lt_of_parseUnsigned hpt
  · cases h

theorem lt_of_lastEvent {ls : List Str} {n : Nat} (h : lastEvent ls = some n) : n < 2 ^ 8 := by
  have hmem := List.mem_of_getLast? (Option.join_eq_some_iff.mp h)
  obtain ⟨attr, -, hattr⟩ := List.mem_filterMap.mp hmem
  obtain ⟨⟨n', enc⟩, hmap, hn⟩ := Option.bind_eq_some_iff.mp hattr
  dsimp only at hn
  split at hn
  · rw [Option.some_inj] at hn
    subst hn
    exact lt_of_rtpmapOf hmap
  · cases hn

/-! ## What an answer says -/

theorem attributesFrom_append (st : ParseState) (xs ys : List Str) :
    attributesFrom st (xs ++ ys) = attributesFrom st xs ++ attributesFrom (xs.foldl parseLine st) ys := by
  induction xs generalizing st with
  | nil => rfl
  | cons x xs ih => rw [List.cons_append, attributesFrom, ih, attributesFrom, List.append_assoc, List.foldl_cons]

/-- Lines of attributes in the audio section. -/
theorem attributesFrom_map (haudio : st.inAudio = true) {attrs : List Str} (h : ∀ attr ∈ attrs, Plain attr) :
    attributesFrom st (attrs.map fun attr ↦ "a=" ++ attr) = attrs := by
  induction attrs generalizing st with
  | nil => rfl
  | cons attr attrs ih =>
      obtain ⟨hattr, hattrs⟩ := List.forall_mem_cons.mp h
      have happlies : (st.inAudio || !st.seenMedia) = true := by rw [haudio, Bool.true_or]
      have hplain : Plain ('a' :: '=' :: attr) := by
        rw [plain_cons, plain_cons]
        exact ⟨by decide, by decide, hattr⟩
      have happlied : applied st ("a=" ++ attr) = some attr := by
        rw [show ("a=" : Str) ++ attr = 'a' :: '=' :: attr from rfl, applied, splitAt_of_plain (by decide) hplain]
        change (if decide (['a'] = ['a']) && (st.inAudio || !st.seenMedia) then _ else _) = _
        rw [happlies, if_pos (by decide)]
      rw [List.map_cons, attributesFrom, happlied, parseLine_attribute happlies hattr,
        ih ((parseAttribute_section st attr).2.1.trans haudio) hattrs]
      rfl

/-- The attributes of an answer, without the letter before them. -/
def answerAttributes (codec : Codec) (te : Option Nat) (ptime : Nat) (d : Direction) : List Str :=
  [("rtpmap:" : Str) ++ dec codec.payloadType ++ ' ' :: codec.rtpmap] ++
    (te.map fun te ↦ [("rtpmap:" : Str) ++ dec te ++ ' ' :: ("telephone-event/8000" : Str),
      ("fmtp:" : Str) ++ dec te ++ (" 0-16" : Str)]).getD [] ++
    [("ptime:" : Str) ++ dec ptime, d.asStr]

theorem plain_answerAttributes (codec : Codec) (te : Option Nat) (ptime : Nat) (d : Direction) :
    ∀ attr ∈ answerAttributes codec te ptime d, Plain attr := by
  have hrtpmap : ∀ (n : Nat) {enc : Str}, Plain enc → Plain (("rtpmap:" : Str) ++ dec n ++ ' ' :: enc) := by
    intro n enc henc
    rw [plain_append, plain_append, plain_cons]
    exact ⟨⟨by decide, plain_dec n⟩, by decide, henc⟩
  have hptime : Plain (("ptime:" : Str) ++ dec ptime) := plain_append.mpr ⟨by decide, plain_dec _⟩
  rw [answerAttributes, List.forall_mem_append, List.forall_mem_append]
  refine ⟨⟨?_, ?_⟩, ?_⟩
  · rw [List.forall_mem_singleton]
    exact hrtpmap _ (by cases codec <;> decide)
  · cases te with
    | none => exact fun _ h ↦ absurd h List.not_mem_nil
    | some te =>
        have hfmtp : Plain (("fmtp:" : Str) ++ dec te ++ (" 0-16" : Str)) := by
          rw [plain_append, plain_append]
          exact ⟨⟨by decide, plain_dec te⟩, by decide⟩
        rw [Option.map_some, Option.getD_some, List.forall_mem_cons, List.forall_mem_singleton]
        exact ⟨hrtpmap te (by decide), hfmtp⟩
  · rw [List.forall_mem_cons, List.forall_mem_singleton]
    exact ⟨hptime, by cases d <;> decide⟩

/-- Lines that do not begin with an `a` have no attributes. -/
theorem attributesFrom_of_head {ls : List Str} (h : ∀ l ∈ ls, l.head? ≠ some 'a') (st : ParseState) :
    attributesFrom st ls = [] := by
  induction ls generalizing st with
  | nil => rfl
  | cons l ls ih =>
      obtain ⟨hl, hls⟩ := List.forall_mem_cons.mp h
      have hnone : applied st l = none := by
        rw [applied]
        split
        · rename_i key value hsplit
          refine if_neg fun hkey ↦ hl ?_
          have hkey : key = ("a" : Str) := of_decide_eq_true (Bool.and_eq_true_iff.mp hkey).1
          exact head?_of_splitAt hsplit (by rw [hkey]; rfl)
        · rfl
      rw [attributesFrom, hnone, ih hls]
      rfl

/-- The lines of an answer are read as they were written. -/
theorem lines_answer (sdp : Sdp) (now : Nat) (address : IpAddr) (port : Nat) (codec : Codec) (dtmfPt : Option Nat)
    (ptime : Nat) :
    lines (sdp.answer now address port codec dtmfPt ptime).render =
      (sdp.answer now address port codec dtmfPt ptime).renderLines := by
  have huser : '\n' ∉ ("modem2sip" : Str) := by decide
  exact lines_crlf (not_mem_renderLines huser)

theorem audioTypes_of_head {line : Str} (h : line.head? ≠ some 'm') : audioTypes line = [] := by
  rw [audioTypes]
  split
  · rename_i key value hsplit
    refine if_neg fun hkey ↦ h ?_
    exact head?_of_splitAt hsplit (by rw [hkey]; rfl)
  · rfl

/-- Numbers of bytes are read back from an `m=` line. -/
theorem audioTypes_mediaLine (h : ∀ pt ∈ sdp.mediaTypes, pt < 2 ^ 8) : audioTypes sdp.mediaLine = sdp.mediaTypes := by
  have hplain := plain_mediaLine sdp
  rw [mediaLine_eq] at hplain ⊢
  rw [show ("m" : Str) ++ '=' :: sdp.mediaValue = 'm' :: '=' :: sdp.mediaValue from rfl] at hplain ⊢
  rw [audioTypes, splitAt_of_plain (by decide) hplain]
  change (if ['m'] = ['m'] then audioTypesOf sdp.mediaValue else _) = _
  rw [if_pos rfl, audioTypesOf, words_mediaValue]
  change (sdp.mediaTypes.map dec).filterMap parseU8 = _
  exact filterMap_parseU8_dec h

/-- The numbers that an answer lists. -/
theorem offered_answer {sdp : Sdp} (hte : ∀ te ∈ sdp.telephoneEvent, te < 2 ^ 8) (now : Nat) (address : IpAddr)
    (port : Nat) (codec : Codec) (dtmfPt ptime : Nat) :
    offered (lines (sdp.answer now address port codec (some dtmfPt) ptime).render) =
      codec.payloadType :: sdp.telephoneEvent.toList := by
  set answer := sdp.answer now address port codec (some dtmfPt) ptime with hanswer
  have hlines : lines answer.render = answer.renderLines := lines_answer ..
  have htypes : answer.mediaTypes = codec.payloadType :: sdp.telephoneEvent.toList := rfl
  have hlt : ∀ pt ∈ answer.mediaTypes, pt < 2 ^ 8 := by
    rw [htypes, List.forall_mem_cons]
    refine ⟨by cases codec <;> decide, fun te h ↦ hte te ?_⟩
    exact Option.mem_toList.mp h
  have hsession : (answer.sessionLines.map audioTypes).find? (· ≠ []) = none := by
    rw [List.find?_eq_none]
    intro types htypes
    obtain ⟨l, hl, rfl⟩ := List.mem_map.mp htypes
    rw [audioTypes_of_head (answer.sessionLines_head l hl)]
    decide
  rw [hlines, offered, renderLines, List.map_append, List.map_append, List.append_assoc, List.find?_append, hsession,
    List.map_cons, audioTypes_mediaLine hlt, List.cons_append, List.find?_cons, htypes]
  rfl

theorem rtpmapOf_rtpmap {n : Nat} (hn : n < 2 ^ 8) {enc : Str} (hne : enc ≠ [])
    (henc : ∀ c ∈ enc, isWhitespace c = false) :
    rtpmapOf ("rtpmap:" ++ dec n ++ ' ' :: enc) = some (some n, enc) := by
  have hread : parseU8 (dec n) = some n := parseUnsigned_dec hn
  rw [rtpmapOf, stripPrefix_rtpmap n hne henc, Option.map_some, words_rtpmap n hne henc]
  dsimp only
  rw [hread]

theorem rtpmapOf_of_head {attr : Str} {c : Char} (hhead : attr.head? = some c) (hspace : isWhitespace c = false)
    (hc : c ≠ 'r') : rtpmapOf attr = none := by
  have htrim : (trim attr).head? = some c := by
    cases attr with
    | nil => cases hhead
    | cons x attr =>
        obtain rfl := Option.some_inj.mp hhead
        rw [show x :: attr = [] ++ x :: attr from rfl, trim_append_cons _ _ hspace]
        rfl
  rw [rtpmapOf, stripPrefix_of_head (c := 'r') rfl htrim hc.symm]
  rfl

theorem attributes_answer (sdp : Sdp) (now : Nat) (address : IpAddr) (port : Nat) (codec : Codec)
    (dtmfPt ptime : Nat) :
    attributesFrom .init (sdp.answer now address port codec (some dtmfPt) ptime).renderLines =
      answerAttributes codec sdp.telephoneEvent ptime sdp.sendrecv.reversed := by
  set answer := sdp.answer now address port codec (some dtmfPt) ptime with hanswer
  have hattrs : answer.attributeLines ++ [("a=" : Str) ++ answer.sendrecv.asStr] =
      (answerAttributes codec sdp.telephoneEvent ptime sdp.sendrecv.reversed).map fun attr ↦ ("a=" : Str) ++ attr := by
    rw [hanswer]
    obtain ⟨_, _, _, _, _, _, te, _, _⟩ := sdp
    cases te <;> cases codec <;> rfl
  obtain ⟨hsession, -⟩ := foldl_parseLine_of_head answer.sessionLines_head .init
  obtain ⟨haudio, -⟩ := parseLine_mediaLine hsession answer
  have hfront : ∀ l ∈ answer.sessionLines ++ [answer.mediaLine], l.head? ≠ some 'a' := by
    rw [List.forall_mem_append, List.forall_mem_singleton, mediaLine_eq]
    refine ⟨?_, fun h ↦ absurd (Option.some_inj.mp h) (by decide)⟩
    intro l hl
    rw [sessionLines] at hl
    simp only [List.mem_cons, List.not_mem_nil, or_false] at hl
    rcases hl with rfl | rfl | rfl | rfl | rfl
    all_goals exact fun h ↦ absurd (Option.some_inj.mp h) (by decide)
  have hsplit : answer.renderLines = (answer.sessionLines ++ [answer.mediaLine]) ++
      (answer.attributeLines ++ [("a=" : Str) ++ answer.sendrecv.asStr]) := by
    rw [renderLines]
    simp only [List.append_assoc, List.cons_append, List.nil_append]
  rw [hsplit, attributesFrom_append, attributesFrom_of_head hfront, List.nil_append, hattrs, List.foldl_append,
    List.foldl_cons, List.foldl_nil, attributesFrom_map haudio (plain_answerAttributes _ _ _ _)]

/-- The encodings that an answer gives. -/
theorem gives_answer_iff {sdp : Sdp} (hte : ∀ te ∈ sdp.telephoneEvent, te < 2 ^ 8) (now : Nat) (address : IpAddr)
    (port : Nat) (codec : Codec) (dtmfPt ptime n : Nat) (enc : Str) :
    Gives (lines (sdp.answer now address port codec (some dtmfPt) ptime).render) n enc ↔
      n = codec.payloadType ∧ enc = codec.rtpmap ∨
        sdp.telephoneEvent = some n ∧ enc = "telephone-event/8000" := by
  have hcodec : rtpmapOf (("rtpmap:" : Str) ++ dec codec.payloadType ++ ' ' :: codec.rtpmap) =
      some (some codec.payloadType, codec.rtpmap) := by
    refine rtpmapOf_rtpmap ?_ ?_ ?_
    all_goals cases codec <;> decide
  have hevent : ∀ te ∈ sdp.telephoneEvent, rtpmapOf (("rtpmap:" : Str) ++ dec te ++ ' ' :: ("telephone-event/8000" : Str)) =
      some (some te, ("telephone-event/8000" : Str)) := fun te h ↦ rtpmapOf_rtpmap (hte te h) (by decide) (by decide)
  have hptime : rtpmapOf (("ptime:" : Str) ++ dec ptime) = none :=
    rtpmapOf_of_head (c := 'p') rfl (by decide) (by decide)
  have hdirection : rtpmapOf sdp.sendrecv.reversed.asStr = none := by
    cases sdp.sendrecv <;> decide
  rw [lines_answer, Gives, attributes_answer, answerAttributes]
  constructor
  · rintro ⟨attr, hmem, hattr⟩
    rcases List.mem_append.mp hmem with hmem | hmem
    · rcases List.mem_append.mp hmem with hmem | hmem
      · rw [List.mem_singleton.mp hmem, hcodec] at hattr
        cases hattr
        exact .inl ⟨rfl, rfl⟩
      · cases hsome : sdp.telephoneEvent with
        | none =>
            rw [hsome] at hmem
            exact absurd hmem List.not_mem_nil
        | some te =>
            have hfmtp : rtpmapOf (("fmtp:" : Str) ++ dec te ++ (" 0-16" : Str)) = none :=
              rtpmapOf_of_head (c := 'f') rfl (by decide) (by decide)
            rw [hsome, Option.map_some, Option.getD_some, List.mem_cons, List.mem_singleton] at hmem
            rcases hmem with rfl | rfl
            · rw [hevent te hsome] at hattr
              cases hattr
              exact .inr ⟨rfl, rfl⟩
            · rw [hfmtp] at hattr
              cases hattr
    · rw [List.mem_cons, List.mem_singleton] at hmem
      rcases hmem with rfl | rfl
      · rw [hptime] at hattr
        cases hattr
      · rw [hdirection] at hattr
        cases hattr
  · rintro (⟨rfl, rfl⟩ | ⟨hsome, rfl⟩)
    · exact ⟨_, List.mem_append_left _ (List.mem_append_left _ (List.mem_singleton_self _)), hcodec⟩
    · refine ⟨_, List.mem_append_left _ (List.mem_append_right _ ?_), hevent n hsome⟩
      rw [hsome]
      exact List.mem_cons_self

/-- The codec that is negotiated is one of those offered. -/
theorem payloadType_mem_of_negotiate {codec : Codec} (h : negotiate sdp = some codec) :
    codec.payloadType ∈ sdp.payloadTypes := by
  obtain ⟨pt, hpt, hcodec⟩ := List.exists_of_findSome?_eq_some h
  have heq : pt = codec.payloadType := by
    rw [Codec.fromPayloadType.eq_def] at hcodec
    split at hcodec
    · cases hcodec
      rfl
    · cases hcodec
      rfl
    · cases hcodec
  exact heq ▸ hpt

/-- An answer lists only what the offer has listed, and gives it no other encoding, exactly if the offer
gives the number of its telephone events, and that of the codec, to nothing else. -/
theorem answer_namesOnlyOffered_iff {text : Str} {sdp : Sdp} {codec : Codec} (hparse : parse text = some sdp)
    (hcodec : negotiate sdp = some codec) (now : Nat) (address : IpAddr) (port dtmfPt ptime : Nat) :
    NamesOnlyOffered text (sdp.answer now address port codec (some dtmfPt) ptime).render ↔
      Consistent text codec := by
  obtain ⟨htypes, hevent⟩ := of_parse hparse
  have hte : ∀ te ∈ sdp.telephoneEvent, te < 2 ^ 8 := fun te h ↦ lt_of_lastEvent (hevent.symm.trans h)
  have hmem : codec.payloadType ∈ offered (lines text) := htypes ▸ payloadType_mem_of_negotiate hcodec
  have hgives := gives_answer_iff hte now address port codec dtmfPt ptime
  rw [NamesOnlyOffered, Consistent, offered_answer hte, ← hevent]
  constructor
  · rintro ⟨hlisted, hsame⟩
    refine ⟨fun n hn ↦ ?_, fun enc henc ↦ ?_⟩
    · have hn' : n ∈ codec.payloadType :: sdp.telephoneEvent.toList :=
        List.mem_cons_of_mem _ (Option.mem_toList.mpr hn)
      exact ⟨hlisted n hn', fun enc henc ↦ hsame n hn' enc _ henc ((hgives n _).mpr (.inr ⟨hn, rfl⟩))⟩
    · exact hsame _ List.mem_cons_self enc _ henc ((hgives _ _).mpr (.inl ⟨rfl, rfl⟩))
  · rintro ⟨hevents, hcodecs⟩
    constructor
    · rw [List.forall_mem_cons]
      exact ⟨hmem, fun n hn ↦ (hevents n (Option.mem_toList.mp hn)).1⟩
    · intro n _ enc enc' henc henc'
      rcases (hgives n enc').mp henc' with ⟨rfl, rfl⟩ | ⟨hn, rfl⟩
      · exact hcodecs enc henc
      · exact (hevents n hn).2 enc henc

theorem answer_namesOnlyOffered_iff_one :
    let text : Str := "v=0\r\nc=IN IP4 10.0.0.5\r\nm=audio 40000 RTP/AVP 8 96\r\na=rtpmap:96 telephone-event/8000\r\n"
    let sdp : Sdp := ⟨"-", 0, 0, .v4 (ofOctets 10 0 0 5), 40000, [8, 96], some 96, none, .sendRecv⟩
    NamesOnlyOffered text (sdp.answer 5 (.v4 (ofOctets 10 0 0 1)) 16000 .pcma (some 101) 20).render ↔
      Consistent text .pcma := by
  intro text sdp
  exact answer_namesOnlyOffered_iff (by decide) (by decide) 5 (.v4 (ofOctets 10 0 0 1)) 16000 101 20

/-- Events are offered at another clock rate, and the answer names their number at the rate of ours. -/
theorem not_namesOnlyOffered_of_rate :
    let text : Str := "v=0\r\nc=IN IP4 10.0.0.5\r\nm=audio 40000 RTP/AVP 8 96\r\na=rtpmap:96 telephone-event/48000\r\n"
    let sdp : Sdp := ⟨"-", 0, 0, .v4 (ofOctets 10 0 0 5), 40000, [8, 96], some 96, none, .sendRecv⟩
    parse text = some sdp ∧ negotiate sdp = some .pcma ∧
      ¬ NamesOnlyOffered text (sdp.answer 5 (.v4 (ofOctets 10 0 0 1)) 16000 .pcma (some 101) 20).render := by
  intro text sdp
  have hte : ∀ te ∈ sdp.telephoneEvent, te < 2 ^ 8 := by decide
  refine ⟨by decide, by decide, fun h ↦ ?_⟩
  have hlisted : 96 ∈ offered (lines (sdp.answer 5 (.v4 (ofOctets 10 0 0 1)) 16000 .pcma (some 101) 20).render) := by
    rw [offered_answer hte]
    decide
  have hoffer : Gives (lines text) 96 "telephone-event/48000" :=
    ⟨"rtpmap:96 telephone-event/48000", by decide, by decide⟩
  have hanswer := (gives_answer_iff hte 5 (.v4 (ofOctets 10 0 0 1)) 16000 .pcma 101 20 96 _).mpr (.inr ⟨rfl, rfl⟩)
  exact absurd (h.2 96 hlisted _ _ hoffer hanswer) (by decide)

end Modem2Sip.Sip.Sdp
