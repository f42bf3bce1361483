import Modem2Sip.Sip.Sdp

/-!
# A description of ours, read back

What the reader makes of each line that the writer puts out, and of whatever sections follow the
audio section: nothing.
-/

namespace Modem2Sip.Sip.Sdp

open Text Net

variable {st : ParseState} {sdp : Sdp}

/-- What the integer types of the fields hold. -/
structure InRange (sdp : Sdp) : Prop where
  port_lt : sdp.port < 2 ^ 16
  types_lt : ∀ pt ∈ sdp.mediaTypes, pt < 2 ^ 8
  ptime_lt : ∀ pt ∈ sdp.ptime, pt < 2 ^ 32

/-! ## Lines -/

/-- The key of a line is what it begins with. -/
theorem head?_of_splitAt {line key value : Str} {k : Char}
    (h : splitAt '=' (trimEndMatches '\r' line) = some (key, value)) (hkey : key.head? = some k) :
    line.head? = some k := by
  obtain ⟨heq, -⟩ := eq_of_splitAt h
  obtain ⟨rest, hrest⟩ := List.rdropWhile_prefix (· == '\r') (l := line)
  rw [show line.rdropWhile (· == '\r') = _ from heq] at hrest
  cases key with
  | nil => cases hkey
  | cons k' key =>
      rw [← hrest]
      exact hkey

/-- Lines of the other keys say nothing. -/
theorem parseLine_of_other {line : Str} (hc : line.head? ≠ some 'c') (hm : line.head? ≠ some 'm')
    (ha : line.head? ≠ some 'a') : parseLine st line = st := by
  rw [parseLine]
  split
  · rfl
  · rename_i key value hsplit
    have hkey : ∀ k : Char, line.head? ≠ some k → key ≠ [k] := by
      rintro k hk rfl
      exact hk (head?_of_splitAt hsplit rfl)
    have hkey_c : key ≠ ("c" : Str) := hkey 'c' hc
    have hkey_m : key ≠ ("m" : Str) := hkey 'm' hm
    rw [if_neg hkey_c, if_neg hkey_m, if_neg]
    intro h
    exact hkey 'a' ha (of_decide_eq_true (Bool.and_eq_true_iff.mp h).1)

theorem splitAt_of_plain {k : Char} (hk : k ≠ '=') {value : Str} (h : Plain (k :: '=' :: value)) :
    splitAt '=' (trimEndMatches '\r' (k :: '=' :: value)) = some ([k], value) := by
  rw [h.trimEndMatches (by decide)]
  exact splitAt_append_cons (a := [k]) (by simpa using hk.symm) value

/-- An attribute that applies. -/
theorem parseLine_attribute {attr : Str} (happlies : (st.inAudio || !st.seenMedia) = true) (h : Plain attr) :
    parseLine st ("a=" ++ attr) = parseAttribute st attr := by
  have hplain : Plain ('a' :: '=' :: attr) := by
    rw [plain_cons, plain_cons]
    exact ⟨by decide, by decide, h⟩
  rw [show ("a=" : Str) ++ attr = 'a' :: '=' :: attr from rfl, parseLine, splitAt_of_plain (by decide) hplain]
  change (if ['a'] = ['c'] then _ else if ['a'] = ['m'] then _ else
    if decide (['a'] = ['a']) && (st.inAudio || !st.seenMedia) then _ else _) = _
  rw [if_neg (by decide), if_neg (by decide), happlies, if_pos (by decide)]

theorem parseIp_show {a : IpAddr} (hip : IpAddr.parse a.show = some a) : parseIp a.show = some a := by
  rw [parseIp, before_of_not_mem (IpAddr.slash_not_mem_show a), hip]

/-- The `c=` line of ours. -/
theorem parseLine_connection (hip : IpAddr.parse sdp.address.show = some sdp.address)
    (hmedia : st.seenMedia = false) (ipver : Str) (hver : ipver = "IP4" ∨ ipver = "IP6") :
    parseLine st ("c=IN " ++ ipver ++ ' ' :: sdp.address.show) = { st with address := some sdp.address } := by
  have hshow := IpAddr.isWhitespace_of_mem_show sdp.address
  have hshow_ne : sdp.address.show ≠ [] := by
    intro hnil
    rw [hnil] at hip
    cases hip
  have hver' : ipver ≠ [] ∧ (∀ c ∈ ipver, isWhitespace c = false) ∧ Plain ipver := by
    rcases hver with rfl | rfl <;> decide
  have hline : ("c=IN " : Str) ++ ipver ++ ' ' :: sdp.address.show =
      'c' :: '=' :: (("IN" : Str) ++ ' ' :: (ipver ++ ' ' :: sdp.address.show)) := by
    rw [List.append_assoc]
    rfl
  have hplain : Plain (("c=IN " : Str) ++ ipver ++ ' ' :: sdp.address.show) := by
    rw [plain_append, plain_append, plain_cons]
    exact ⟨⟨by decide, hver'.2.2⟩, by decide, IpAddr.plain_show _⟩
  have hwords : words (("IN" : Str) ++ ' ' :: (ipver ++ ' ' :: sdp.address.show)) =
      [("IN" : Str), ipver, sdp.address.show] := by
    rw [words_append_cons (by decide) (by decide) (by decide), words_append_cons hver'.1 hver'.2.1 (by decide),
      words_singleton hshow_ne hshow]
  rw [hline] at hplain ⊢
  rw [parseLine, splitAt_of_plain (by decide) hplain]
  change (if ['c'] = ['c'] then _ else _) = _
  have hthird : [("IN" : Str), ipver, sdp.address.show][2]?.bind parseIp = some sdp.address := parseIp_show hip
  rw [if_pos rfl, parseConnection, hwords, hthird, if_neg (by rw [hmedia]; decide)]

/-- The lines before the `m=` line say where to. -/
theorem foldl_sessionLines (hip : IpAddr.parse sdp.address.show = some sdp.address) :
    sdp.sessionLines.foldl parseLine .init = { ParseState.init with address := some sdp.address } := by
  have hother : ∀ (st : ParseState) (l : Str), l.head? ∈ [some 'v', some 'o', some 's', some 't'] →
      parseLine st l = st := by
    intro st l hl
    refine parseLine_of_other ?_ ?_ ?_
    all_goals
      intro h
      rw [h] at hl
      exact absurd hl (by decide)
  have hver : (if sdp.address.isV6 then ("IP6" : Str) else "IP4") = "IP4" ∨
      (if sdp.address.isV6 then ("IP6" : Str) else "IP4") = "IP6" := by
    split
    · exact .inr rfl
    · exact .inl rfl
  have horigin : ∀ s : Str, parseLine .init (("o=" : Str) ++ s) = .init := fun s ↦
    hother _ _ (by rw [show (("o=" : Str) ++ s).head? = some 'o' from rfl]; decide)
  rw [sessionLines, List.foldl_cons, hother _ _ (by decide), List.foldl_cons, horigin,
    List.foldl_cons, hother _ _ (by decide), List.foldl_cons, parseLine_connection hip rfl _ hver,
    List.foldl_cons, hother _ _ (by decide), List.foldl_nil]

theorem filterMap_parseU8_dec {ns : List Nat} (h : ∀ n ∈ ns, n < 2 ^ 8) : (ns.map dec).filterMap parseU8 = ns := by
  have hcongr : ∀ n ∈ ns, (parseU8 ∘ dec) n = some n := fun n hn ↦ parseUnsigned_dec (h n hn)
  rw [List.filterMap_map, List.filterMap_congr hcongr, List.filterMap_some]

/-- The `m=` line says which port and which payload types. -/
theorem parseLine_mediaLine_eq (hrange : sdp.InRange) (hst : st.payloadTypes = []) :
    parseLine st sdp.mediaLine =
      { st with port := sdp.port, payloadTypes := sdp.mediaTypes, inAudio := true, seenMedia := true } := by
  have hplain := plain_mediaLine sdp
  have hport : parseU16 (dec sdp.port) = some sdp.port := parseUnsigned_dec hrange.port_lt
  rw [mediaLine_eq] at hplain ⊢
  rw [show ("m" : Str) ++ '=' :: sdp.mediaValue = 'm' :: '=' :: sdp.mediaValue from rfl] at hplain ⊢
  rw [parseLine, splitAt_of_plain (by decide) hplain]
  change (if ['m'] = ['c'] then _ else if ['m'] = ['m'] then parseMedia st sdp.mediaValue else _) = _
  rw [if_neg (by decide), if_pos rfl, parseMedia, words_mediaValue, hst]
  change { st with
    port := ((parseU16 (dec sdp.port))).getD 0
    payloadTypes := [] ++ (sdp.mediaTypes.map dec).filterMap parseU8
    inAudio := true
    seenMedia := true } = _
  rw [hport, filterMap_parseU8_dec hrange.types_lt, List.nil_append, Option.getD_some]

/-! ## Attributes -/

theorem stripPrefix_rtpmap (n : Nat) {enc : Str} (hne : enc ≠ []) (henc : ∀ c ∈ enc, isWhitespace c = false) :
    stripPrefix "rtpmap:" (trim ("rtpmap:" ++ dec n ++ ' ' :: enc)) = some (dec n ++ ' ' :: enc) := by
  have hhead : ∀ c ∈ (("rtpmap:" : Str) ++ dec n ++ ' ' :: enc).head?, isWhitespace c = false := by
    intro c hc
    rw [show (("rtpmap:" : Str) ++ dec n ++ ' ' :: enc).head? = some 'r' from rfl, Option.mem_some_iff] at hc
    rw [← hc]
    decide
  have hlast : ∀ c ∈ (("rtpmap:" : Str) ++ dec n ++ ' ' :: enc).getLast?, isWhitespace c = false := by
    intro c hc
    rw [List.append_cons, List.getLast?_append_of_ne_nil _ hne] at hc
    exact henc c (List.mem_of_getLast? hc)
  rw [trim_of_ends hhead hlast, List.append_assoc, stripPrefix_append]

theorem words_rtpmap (n : Nat) {enc : Str} (hne : enc ≠ []) (henc : ∀ c ∈ enc, isWhitespace c = false) :
    words (dec n ++ ' ' :: enc) = [dec n, enc] := by
  rw [words_append_cons (dec_ne_nil n) (isWhitespace_of_mem_dec n) (by decide), words_singleton hne henc]

/-- The attribute of a payload type names its encoding. -/
theorem parseAttribute_rtpmap {n : Nat} (hn : n < 2 ^ 8) {enc : Str} (hne : enc ≠ [])
    (henc : ∀ c ∈ enc, isWhitespace c = false) :
    parseAttribute st ("rtpmap:" ++ dec n ++ ' ' :: enc) =
      if ("telephone-event" : Str).isPrefixOf (lower enc) then { st with telephoneEvent := some n } else st := by
  have hread : parseU8 (dec n) = some n := parseUnsigned_dec hn
  rw [parseAttribute, stripPrefix_rtpmap n hne henc]
  dsimp only
  rw [words_rtpmap n hne henc]
  dsimp only
  rw [hread]

theorem stripPrefix_of_head {p s : Str} {c d : Char} (hp : p.head? = some c) (hs : s.head? = some d) (hne : c ≠ d) :
    stripPrefix p s = none := by
  rw [stripPrefix, if_neg]
  intro h
  obtain ⟨t, rfl⟩ := List.isPrefixOf_iff_prefix.mp h
  cases p with
  | nil => cases hp
  | cons x p =>
      rw [List.cons_append, List.head?_cons] at hs
      rw [List.head?_cons] at hp
      exact hne (Option.some_inj.mp (hp.symm.trans hs))

theorem eqIgnoreCase_of_head {s t : Str} {c d : Char} (hs : s.head? = some c) (ht : t.head? = some d)
    (hne : c.toLower ≠ d.toLower) : eqIgnoreCase s t = false := by
  rw [eqIgnoreCase, beq_eq_false_iff_ne]
  intro heq
  have hhead := congrArg List.head? heq
  rw [lower, lower, List.head?_map, List.head?_map, hs, ht] at hhead
  exact hne (Option.some_inj.mp hhead)

/-- An attribute that begins with another letter than those that are looked for. -/
theorem parseAttribute_of_head {attr : Str} {c : Char} (hc : (trim attr).head? = some c)
    (hother : c.toLower ∉ ['r', 'p', 's', 'i']) : parseAttribute st attr = st := by
  simp only [List.mem_cons, List.not_mem_nil, or_false, not_or] at hother
  obtain ⟨hr, hp, hs, hi⟩ := hother
  have hne : ∀ d : Char, d.toLower = d → c.toLower ≠ d → d ≠ c := by
    rintro d hd hne rfl
    exact hne hd
  rw [parseAttribute, stripPrefix_of_head (c := 'r') rfl hc (hne 'r' rfl hr)]
  dsimp only
  rw [stripPrefix_of_head (c := 'p') rfl hc (hne 'p' rfl hp)]
  dsimp only
  rw [eqIgnoreCase_of_head (d := 's') hc rfl hs, eqIgnoreCase_of_head (d := 'r') hc rfl hr,
    eqIgnoreCase_of_head (d := 'i') hc rfl hi, eqIgnoreCase_of_head (d := 's') hc rfl hs]
  rfl

theorem parseAttribute_ptime {n : Nat} (hn : n < 2 ^ 32) :
    parseAttribute st ("ptime:" ++ dec n) = { st with ptime := some n } := by
  have htrim : trim (("ptime:" : Str) ++ dec n) = "ptime:" ++ dec n := by
    refine trim_eq_self ?_
    rw [List.forall_mem_append]
    exact ⟨by decide, isWhitespace_of_mem_dec n⟩
  have hread : parseU32 (trim (dec n)) = some n := by
    rw [trim_eq_self (isWhitespace_of_mem_dec n)]
    exact parseUnsigned_dec hn
  rw [parseAttribute, htrim, stripPrefix_of_head (c := 'r') (d := 'p') rfl rfl (by decide)]
  dsimp only
  rw [stripPrefix_append]
  dsimp only
  rw [hread]

section Attributes

variable (happlies : (st.inAudio || !st.seenMedia) = true)
include happlies

/-- The names of our codecs are not those of events. -/
theorem parseLine_codec {pt : Nat} (hpt : pt < 2 ^ 8) (c : Codec) :
    parseLine st ("a=rtpmap:" ++ dec pt ++ ' ' :: c.rtpmap) = st := by
  have hplain : Plain (("rtpmap:" : Str) ++ dec pt ++ ' ' :: c.rtpmap) := by
    rw [plain_append, plain_append, plain_cons]
    exact ⟨⟨by decide, plain_dec _⟩, by decide, by cases c <;> decide⟩
  have hname : ("telephone-event" : Str).isPrefixOf (lower c.rtpmap) = false := by cases c <;> decide
  have hspace : ∀ x ∈ c.rtpmap, isWhitespace x = false := by cases c <;> decide
  have hne : c.rtpmap ≠ [] := by cases c <;> decide
  rw [show ("a=rtpmap:" : Str) ++ dec pt ++ ' ' :: c.rtpmap = "a=" ++ (("rtpmap:" : Str) ++ dec pt ++ ' ' :: c.rtpmap)
    from rfl, parseLine_attribute happlies hplain, parseAttribute_rtpmap hpt hne hspace, hname]
  rfl

theorem parseLine_event {te : Nat} (hte : te < 2 ^ 8) :
    parseLine st ("a=rtpmap:" ++ dec te ++ " telephone-event/8000") = { st with telephoneEvent := some te } := by
  have hplain : Plain (("rtpmap:" : Str) ++ dec te ++ ' ' :: "telephone-event/8000") := by
    rw [plain_append, plain_append, plain_cons]
    exact ⟨⟨by decide, plain_dec _⟩, by decide, by decide⟩
  rw [show ("a=rtpmap:" : Str) ++ dec te ++ " telephone-event/8000" =
      "a=" ++ (("rtpmap:" : Str) ++ dec te ++ ' ' :: "telephone-event/8000") from rfl,
    parseLine_attribute happlies hplain, parseAttribute_rtpmap hte (by decide) (by decide)]
  rfl

theorem parseLine_fmtp (te : Nat) : parseLine st ("a=fmtp:" ++ dec te ++ " 0-16") = st := by
  have hplain : Plain (("fmtp:" : Str) ++ dec te ++ " 0-16") := by
    rw [plain_append, plain_append]
    exact ⟨⟨by decide, plain_dec _⟩, by decide⟩
  have hhead : (trim (("fmtp:" : Str) ++ dec te ++ " 0-16")).head? = some 'f' := by
    rw [show ("fmtp:" : Str) ++ dec te ++ (" 0-16" : Str) = [] ++ 'f' :: (("mtp:" : Str) ++ dec te ++ (" 0-16" : Str)) from rfl,
      trim_append_cons _ _ (by decide)]
    rfl
  rw [show ("a=fmtp:" : Str) ++ dec te ++ " 0-16" = "a=" ++ (("fmtp:" : Str) ++ dec te ++ " 0-16") from rfl,
    parseLine_attribute happlies hplain, parseAttribute_of_head hhead (by decide)]

theorem parseLine_ptime {n : Nat} (hn : n < 2 ^ 32) :
    parseLine st ("a=ptime:" ++ dec n) = { st with ptime := some n } := by
  have hplain : Plain (("ptime:" : Str) ++ dec n) := plain_append.mpr ⟨by decide, plain_dec n⟩
  rw [show ("a=ptime:" : Str) ++ dec n = "a=" ++ (("ptime:" : Str) ++ dec n) from rfl,
    parseLine_attribute happlies hplain, parseAttribute_ptime hn]

end Attributes

/-- All attributes before the direction. -/
theorem foldl_attributeLines (hrange : sdp.InRange) (haudio : st.inAudio = true) :
    sdp.attributeLines.foldl parseLine st =
      { st with
        telephoneEvent := sdp.telephoneEvent <|> st.telephoneEvent
        ptime := sdp.ptime <|> st.ptime } := by
  have happlies : ∀ st : ParseState, st.inAudio = true → (st.inAudio || !st.seenMedia) = true :=
    fun st h ↦ by rw [h, Bool.true_or]
  have hcodecs : ∀ pts : List Nat, (∀ pt ∈ pts, pt < 2 ^ 8) →
      (pts.filterMap fun pt ↦ (Codec.fromPayloadType pt).map fun c ↦
        ("a=rtpmap:" : Str) ++ dec pt ++ ' ' :: c.rtpmap).foldl parseLine st = st := by
    intro pts hpts
    induction pts with
    | nil => rfl
    | cons pt pts ih =>
        obtain ⟨hpt, hpts⟩ := List.forall_mem_cons.mp hpts
        rw [List.filterMap_cons]
        cases Codec.fromPayloadType pt with
        | none => exact ih hpts
        | some c => 
            rw [Option.map_some, List.foldl_cons, parseLine_codec (happlies st haudio) hpt]
            exact ih hpts
  have htypes : ∀ pt ∈ sdp.payloadTypes, pt < 2 ^ 8 :=
    fun pt hpt ↦ hrange.types_lt pt (List.mem_append_left _ hpt)
  rw [attributeLines, List.foldl_append, List.foldl_append, hcodecs _ htypes]
  have hptime : ∀ st : ParseState, st.inAudio = true →
      ((sdp.ptime.map fun pt ↦ ("a=ptime:" : Str) ++ dec pt).toList).foldl parseLine st =
        { st with ptime := sdp.ptime <|> st.ptime } := by
    intro st haudio
    cases hpt : sdp.ptime with
    | none => rfl
    | some pt => exact parseLine_ptime (happlies st haudio) (hrange.ptime_lt pt hpt)
  cases hte : sdp.telephoneEvent with
  | none => exact hptime st haudio
  | some te =>
      have hlt : te < 2 ^ 8 := hrange.types_lt te (List.mem_append_right _ (by rw [hte]; exact List.mem_singleton_self te))
      dsimp only
      rw [List.foldl_cons, parseLine_event (happlies st haudio) hlt, List.foldl_cons, parseLine_fmtp, List.foldl_nil]
      · exact hptime _ haudio
      · exact happlies _ haudio

/-! ## What follows -/

/-- The audio section is over: nothing that follows can be of it. -/
structure Closed (st : ParseState) : Prop where
  seenMedia : st.seenMedia = true
  inAudio : st.inAudio = false
  payloadTypes : st.payloadTypes ≠ []

/-- Every further section is passed over. -/
theorem parseMedia_of_ne_nil (hmedia : st.seenMedia = true) (hne : st.payloadTypes ≠ []) (value : Str) :
    parseMedia st value = { st with inAudio := false } := by
  rw [parseMedia]
  dsimp only
  rw [List.isEmpty_eq_false_iff.mpr hne, Bool.and_false, if_neg (by decide), ← hmedia]

theorem Closed.parseLine_eq (h : Closed st) (line : Str) : parseLine st line = st := by
  rw [parseLine]
  split
  · rfl
  · split
    · rw [parseConnection, if_pos h.seenMedia, if_neg (by rw [h.inAudio]; decide)]
    · split
      · rw [parseMedia_of_ne_nil h.seenMedia h.payloadTypes, ← h.inAudio]
      · rw [h.inAudio, h.seenMedia, if_neg (by simp)]

theorem Closed.foldl_eq (h : Closed st) (ls : List Str) : ls.foldl parseLine st = st := by
  induction ls with
  | nil => rfl
  | cons l ls ih => rw [List.foldl_cons, h.parseLine_eq, ih]

/-- An `m=` line behind the audio section. -/
theorem parseLine_of_media (hmedia : st.seenMedia = true) (hne : st.payloadTypes ≠ []) (value : Str) :
    parseLine st ('m' :: '=' :: value) = { st with inAudio := false } := by
  have hsplit : splitAt '=' (trimEndMatches '\r' ('m' :: '=' :: value)) = some (['m'], trimEndMatches '\r' value) := by
    rw [trimEndMatches_cons (by decide), trimEndMatches_cons (by decide)]
    exact splitAt_append_cons (a := ['m']) (by decide) _
  rw [parseLine, hsplit]
  change (if ['m'] = ['c'] then _ else if ['m'] = ['m'] then parseMedia st _ else _) = _
  rw [if_neg (by decide), if_pos rfl, parseMedia_of_ne_nil hmedia hne]

/-- The first line of a text that begins with `m=` does so too. -/
theorem lines_of_media (rest : Str) : ∃ value ls, lines ('m' :: '=' :: rest) = ('m' :: '=' :: value) :: ls := by
  by_cases hrest : '\n' ∈ rest
  · obtain ⟨a, b, rfl, ha⟩ := List.eq_append_cons_of_mem hrest
    have ha' : '\n' ∉ 'm' :: '=' :: a := by
      simpa using ha
    rw [← List.cons_append, ← List.cons_append, lines_append_cons ha']
    cases a with
    | nil => exact ⟨[], lines b, rfl⟩
    | cons c a =>
        rw [stripSuffix]
        split
        · exact ⟨_, _, rfl⟩
        · exact ⟨_, _, rfl⟩
  · have hnot : '\n' ∉ 'm' :: '=' :: rest := by
      simpa using hrest
    exact ⟨rest, [], lines_of_not_mem hnot (List.cons_ne_nil _ _)⟩

/-- Whatever sections follow, nothing of them gets into the description. -/
theorem finish_foldl_lines (hmedia : st.seenMedia = true) (hne : st.payloadTypes ≠ []) {rest : Str}
    (hrest : rest = [] ∨ ("m=" : Str) <+: rest) : ((lines rest).foldl parseLine st).finish = st.finish := by
  rcases hrest with rfl | ⟨rest, rfl⟩
  · rfl
  · obtain ⟨value, ls, hlines⟩ := lines_of_media rest
    have hclosed : Closed { st with inAudio := false } := ⟨hmedia, rfl, hne⟩
    rw [show ("m=" : Str) ++ rest = 'm' :: '=' :: rest from rfl, hlines, List.foldl_cons,
      parseLine_of_media hmedia hne, hclosed.foldl_eq]
    rfl

/-- Only the name of the user could bring a line break. -/
theorem not_mem_renderLines (huser : '\n' ∉ sdp.originUser) : ∀ l ∈ sdp.renderLines, '\n' ∉ l := by
  have hplain : ∀ {l : Str}, Plain l → '\n' ∉ l := fun h ↦ h.not_mem (by decide)
  have hver : Plain (if sdp.address.isV6 then ("IP6" : Str) else "IP4") := by
    split
    · decide
    · decide
  have hfields : ∀ c ∈ [' '].intercalate [sdp.originUser, dec sdp.sessionId, dec sdp.sessionVersion, "IN",
      if sdp.address.isV6 then ("IP6" : Str) else "IP4", sdp.address.show], c ≠ '\n' := by
    refine forall_mem_intercalate (by decide) ?_
    have hne : ∀ {l : Str}, Plain l → ∀ c ∈ l, c ≠ '\n' := fun h c hc heq ↦ hplain h (heq ▸ hc)
    simp only [List.forall_mem_cons]
    refine ⟨fun c hc heq ↦ huser (heq ▸ hc), hne (plain_dec _), hne (plain_dec _), hne (by decide), hne hver,
      hne (IpAddr.plain_show _), fun l hl ↦ absurd hl List.not_mem_nil⟩
  intro l hl
  rw [renderLines, List.mem_append, List.mem_append, List.mem_cons, List.mem_singleton] at hl
  rcases hl with (hl | rfl | hl) | rfl
  · rw [sessionLines] at hl
    simp only [List.mem_cons, List.not_mem_nil, or_false] at hl
    rcases hl with rfl | rfl | rfl | rfl | rfl
    · decide
    · rw [List.mem_append, not_or]
      exact ⟨by decide, fun hmem ↦ hfields _ hmem rfl⟩
    · decide
    · refine hplain ?_
      rw [plain_append, plain_append, plain_cons]
      exact ⟨⟨by decide, hver⟩, by decide, IpAddr.plain_show _⟩
    · decide
  · exact hplain (plain_mediaLine sdp)
  · exact hplain (plain_attributeLines sdp l hl)
  · refine hplain (plain_append.mpr ⟨by decide, ?_⟩)
    cases sdp.sendrecv <;> decide

/-- A description of ours is read back as it was written, with the payload type of the events as the
last of its payload types, and whatever sections follow it. -/
theorem parse_render_append {sdp : Sdp} (hrange : sdp.InRange) (huser : '\n' ∉ sdp.originUser)
    (hip : IpAddr.parse sdp.address.show = some sdp.address) (hne : sdp.mediaTypes ≠ []) {rest : Str}
    (hrest : rest = [] ∨ ("m=" : Str) <+: rest) :
    parse (sdp.render ++ rest) = some
      { originUser := "-"
        sessionId := 0
        sessionVersion := 0
        address := sdp.address
        port := sdp.port
        payloadTypes := sdp.mediaTypes
        telephoneEvent := sdp.telephoneEvent
        ptime := sdp.ptime
        sendrecv := sdp.sendrecv } := by
  have hlines := not_mem_renderLines huser
  have hsession : sdp.renderLines.foldl parseLine .init =
      (parseLine ((sdp.mediaLine :: sdp.attributeLines).foldl parseLine
        { ParseState.init with address := some sdp.address }) ("a=" ++ sdp.sendrecv.asStr)) := by
    rw [renderLines, List.foldl_append, List.foldl_append, foldl_sessionLines hip]
    rfl
  have hall : sdp.renderLines.foldl parseLine .init =
      { ParseState.init with
        address := some sdp.address
        port := sdp.port
        payloadTypes := sdp.mediaTypes
        telephoneEvent := sdp.telephoneEvent
        ptime := sdp.ptime
        direction := sdp.sendrecv
        inAudio := true
        seenMedia := true } := by
    rw [hsession, List.foldl_cons, parseLine_mediaLine_eq hrange rfl, foldl_attributeLines hrange rfl,
      parseLine_direction rfl]
    simp [ParseState.init]
  rw [parse, render, lines_crlf_append hlines, List.foldl_append, hall, finish_foldl_lines rfl hne hrest,
    ParseState.finish, if_neg hne]
  rfl

theorem parse_render_append_one :
    parse (render ⟨"modem2sip", 5, 5, .v4 (ofOctets 10 0 0 1), 16000, [8, 0], some 101, some 20, .recvOnly⟩ ++
        "m=audio 9 RTP/AVP 3\r\nc=IN IP4 10.9.9.9\r\na=inactive\r\n") =
      some ⟨"-", 0, 0, .v4 (ofOctets 10 0 0 1), 16000, [8, 0, 101], some 101, some 20, .recvOnly⟩ :=
  parse_render_append ⟨by decide, by decide, by decide⟩ (by decide) (by decide) (by decide)
    (.inr ⟨"audio 9 RTP/AVP 3\r\nc=IN IP4 10.9.9.9\r\na=inactive\r\n", rfl⟩)

/-- A line break in the name of the user lets it bring a section of its own. -/
theorem parse_render_injected :
    let sdp : Sdp := ⟨"-\nm=audio 9 RTP/AVP 3", 5, 5, .v4 (ofOctets 10 0 0 1), 16000, [8], none, some 20, .sendRecv⟩
    (parse sdp.render).map Sdp.payloadTypes ≠ some sdp.mediaTypes := by
  decide

end Modem2Sip.Sip.Sdp
