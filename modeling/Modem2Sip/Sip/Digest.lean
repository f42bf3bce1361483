import Modem2Sip.Sip.Auth

/-!
# The two halves of the digest

`sip/auth.rs`: a challenge is read, answered, written as credentials and read by the server side.
Both headers are lists of parameters; what a list of parameters is read back as is settled once,
for any names and any order.
-/

namespace Modem2Sip.Sip

open Text

/-! ## Parameter lists -/

/-- A parameter of a Digest header, which may be absent. -/
structure DigestParam where
  name : Str
  isQuoted : Bool
  value : Option Str

namespace DigestParam

/-- How it is written. -/
def text (p : DigestParam) : Option Str :=
  p.value.map fun v ↦ if p.isQuoted then Credentials.quoted p.name v else p.name ++ '=' :: v

/-- Its name is a word in lower case; its value has no quote in it and, outside of quotes, is a
word without a comma. -/
structure Ok (p : DigestParam) : Prop where
  name_ne_nil : p.name ≠ []
  lower_name : lower p.name = p.name
  name_chars : ∀ c ∈ p.name, c ≠ '=' ∧ c ≠ ',' ∧ isWhitespace c = false
  inQuotes : p.isQuoted = true → ∀ v, p.value = some v → '"' ∉ v
  token : p.isQuoted = false → ∀ v, p.value = some v →
    v ≠ [] ∧ ∀ c ∈ v, c ≠ ',' ∧ c ≠ '"' ∧ isWhitespace c = false

/-- What a parser that has seen the parameter knows. -/
def record (m : StrMap Str) (p : DigestParam) : StrMap Str :=
  match p.value with
  | some v => m.insert p.name v
  | none => m

end DigestParam

/-- A header of scheme Digest with these parameters. -/
def digestHeader (ps : List DigestParam) : Str :=
  "Digest " ++ [',', ' '].intercalate (ps.filterMap DigestParam.text)

/-- What has been read when a value ends: the rest is another parameter, or nothing. -/
def paramsTail (ps : List DigestParam) : Str :=
  (ps.filterMap DigestParam.text).flatMap fun text ↦ ',' :: ' ' :: text

theorem paramsTail_head (ps : List DigestParam) : paramsTail ps = [] ∨ ∃ s, paramsTail ps = ',' :: s := by
  rw [paramsTail]
  cases ps.filterMap DigestParam.text with
  | nil => exact .inl rfl
  | cons text texts => exact .inr ⟨_, rfl⟩

/-- A quoted value is read up to its closing quote. -/
theorem parseParamValue_quoted {v : Str} (hv : '"' ∉ v) (s : Str) :
    parseParamValue ('"' :: v ++ '"' :: s) = (v, s) := by
  have hdrop : (v ++ '"' :: s).dropWhile (· != '"') = '"' :: s := by
    rw [List.dropWhile_append_of_pos]
    · simp
    · intro c hc
      exact bne_iff_ne.mpr fun heq ↦ hv (heq ▸ hc)
  rw [parseParamValue, List.cons_append, List.dropWhile_cons, if_neg (by decide)]
  change (before '"' (v ++ '"' :: s), ((v ++ '"' :: s).dropWhile (· != '"')).drop 1) = (v, s)
  rw [before_append_cons s hv, hdrop]
  rfl

/-- A token is read up to the next comma. -/
theorem parseParamValue_token {v : Str} (hne : v ≠ [])
    (hv : ∀ c ∈ v, c ≠ ',' ∧ c ≠ '"' ∧ isWhitespace c = false) {s : Str}
    (hs : s = [] ∨ ∃ t, s = ',' :: t) : parseParamValue (v ++ s) = (v, s) := by
  have hcomma : ',' ∉ v := fun h ↦ (hv _ h).1 rfl
  have hbefore : before ',' (v ++ s) = v := by
    rcases hs with rfl | ⟨t, rfl⟩
    · rw [List.append_nil]
      exact before_of_not_mem hcomma
    · exact before_append_cons t hcomma
  have hdrop : (v ++ s).dropWhile (· != ',') = s := by
    rw [List.dropWhile_append_of_pos fun c hc ↦ bne_iff_ne.mpr (hv c hc).1]
    rcases hs with rfl | ⟨t, rfl⟩
    · rfl
    · simp
  have htrim : trim v = v := trim_eq_self fun c hc ↦ (hv c hc).2.2
  cases v with
  | nil => exact absurd rfl hne
  | cons c v =>
      obtain ⟨-, hquote, hspace⟩ := hv c List.mem_cons_self
      have hstart : ((c :: v) ++ s).dropWhile isAsciiWhitespace = (c :: v) ++ s := by
        rw [List.cons_append, List.dropWhile_cons, isAsciiWhitespace_eq_false hspace]
        rfl
      rw [parseParamValue, hstart]
      split
      · rename_i rest heq
        exact absurd (List.cons.inj heq).1 hquote
      · rw [hbefore, htrim, hdrop]

/-- What stands behind the equals sign. -/
def DigestParam.written (p : DigestParam) (v : Str) : Str := if p.isQuoted then '"' :: v ++ ['"'] else v

theorem DigestParam.text_eq {p : DigestParam} {v : Str} (hv : p.value = some v) :
    p.text = some (p.name ++ '=' :: p.written v) := by
  rw [text, hv, Option.map_some, written]
  split
  · simp [Credentials.quoted]
  · rfl

theorem DigestParam.Ok.parseParamValue {p : DigestParam} (hp : p.Ok) {v : Str} (hv : p.value = some v)
    {s : Str} (hs : s = [] ∨ ∃ t, s = ',' :: t) :
    Sip.parseParamValue (p.written v ++ s) = (v, s) := by
  rw [written]
  cases hq : p.isQuoted with
  | true =>
      rw [if_pos rfl, List.append_assoc]
      exact parseParamValue_quoted (hp.inQuotes hq v hv) s
  | false =>
      rw [if_neg Bool.false_ne_true]
      obtain ⟨hne, hchars⟩ := hp.token hq v hv
      exact parseParamValue_token hne hchars hs

/-- One round of the loop reads one parameter, behind a comma or at the beginning. -/
theorem parseParamsFrom_cons {p : DigestParam} (hp : p.Ok) {v : Str} (hv : p.value = some v)
    {sep s : Str} (hsep : sep = [] ∨ sep = [',', ' ']) (hs : s = [] ∨ ∃ t, s = ',' :: t) (fuel : Nat)
    (out : StrMap Str) :
    parseParamsFrom (fuel + 1) (sep ++ (p.name ++ '=' :: (p.written v ++ s))) out =
      parseParamsFrom fuel s (out.insert p.name v) := by
  have hskip : (sep ++ (p.name ++ '=' :: (p.written v ++ s))).dropWhile
      (fun c ↦ c == ',' || isAsciiWhitespace c) = p.name ++ '=' :: (p.written v ++ s) := by
    have hname : (p.name ++ '=' :: (p.written v ++ s)).dropWhile
        (fun c ↦ c == ',' || isAsciiWhitespace c) = p.name ++ '=' :: (p.written v ++ s) := by
      cases hn : p.name with
      | nil => exact absurd hn hp.name_ne_nil
      | cons c name =>
          obtain ⟨-, hcomma, hspace⟩ := hp.name_chars c (hn ▸ List.mem_cons_self)
          rw [List.cons_append, List.dropWhile_cons, beq_false_of_ne hcomma,
            isAsciiWhitespace_eq_false hspace]
          rfl
    rcases hsep with rfl | rfl
    · exact hname
    · exact hname
  have hstay : ∀ c ∈ p.name, (c != '=' && c != ',') = true := fun c hc ↦ by
    obtain ⟨heq, hcomma, -⟩ := hp.name_chars c hc
    simp [heq, hcomma]
  have htake : (p.name ++ '=' :: (p.written v ++ s)).takeWhile (fun c ↦ c != '=' && c != ',') = p.name := by
    rw [List.takeWhile_append_of_pos hstay]
    simp
  have hdrop : (p.name ++ '=' :: (p.written v ++ s)).dropWhile (fun c ↦ c != '=' && c != ',') =
      '=' :: (p.written v ++ s) := by
    rw [List.dropWhile_append_of_pos hstay]
    simp
  have hkey : lower (trim p.name) = p.name := by
    rw [trim_eq_self fun c hc ↦ (hp.name_chars c hc).2.2, hp.lower_name]
  rw [parseParamsFrom]
  dsimp only
  rw [hskip, htake, hdrop, hkey, if_neg hp.name_ne_nil]
  change parseParamsFrom fuel (parseParamValue (p.written v ++ s)).2
    (out.insert p.name (parseParamValue (p.written v ++ s)).1) = _
  rw [hp.parseParamValue hv hs]

/-- The loop reads all the parameters that there are. -/
theorem parseParamsFrom_tail {ps : List DigestParam} (hps : ∀ p ∈ ps, p.Ok) {fuel : Nat}
    (hfuel : (ps.filterMap DigestParam.text).length ≤ fuel) (out : StrMap Str) :
    parseParamsFrom fuel (paramsTail ps) out = ps.foldl DigestParam.record out := by
  induction ps generalizing fuel out with
  | nil =>
      cases fuel with
      | zero => rfl
      | succ fuel => rfl
  | cons p ps ih =>
      have htail (fuel : Nat) (hle : (ps.filterMap DigestParam.text).length ≤ fuel) (out : StrMap Str) :=
        ih (fun q hq ↦ hps q (List.mem_cons_of_mem p hq)) hle out
      rw [List.foldl_cons, DigestParam.record]
      cases hv : p.value with
      | none =>
          have htext : p.text = none := by rw [DigestParam.text, hv, Option.map_none]
          rw [List.filterMap_cons_none htext] at hfuel
          rw [paramsTail, List.filterMap_cons_none htext]
          exact htail fuel hfuel out
      | some v =>
          rw [List.filterMap_cons_some (DigestParam.text_eq hv), List.length_cons] at hfuel
          cases fuel with
          | zero => cases hfuel
          | succ fuel =>
              have hround := parseParamsFrom_cons (hps p List.mem_cons_self) hv (.inr rfl)
                (paramsTail_head ps) fuel out
              have heq : paramsTail (p :: ps) =
                  [',', ' '] ++ (p.name ++ '=' :: (p.written v ++ paramsTail ps)) := by
                rw [paramsTail, List.filterMap_cons_some (DigestParam.text_eq hv), List.flatMap_cons,
                  ← paramsTail]
                simp
              rw [heq, hround]
              exact htail fuel (Nat.le_of_succ_le_succ hfuel) _

theorem get?_record_of_ne {p : DigestParam} {k : Str} (hne : k ≠ p.name) (m : StrMap Str) :
    (p.record m).get? k = m.get? k := by
  rw [DigestParam.record]
  cases p.value with
  | none => rfl
  | some v => exact (Map.get?_insert m p.name k v).trans (if_neg hne)

theorem get?_foldl_record_of_not_mem {ps : List DigestParam} {k : Str}
    (hk : k ∉ ps.map DigestParam.name) (m : StrMap Str) :
    (ps.foldl DigestParam.record m).get? k = m.get? k := by
  induction ps generalizing m with
  | nil => rfl
  | cons p ps ih =>
      rw [List.map_cons, List.mem_cons, not_or] at hk
      rw [List.foldl_cons, ih hk.2, get?_record_of_ne hk.1]

/-- A parameter that comes up once is looked up as it was given. -/
theorem get?_foldl_record {ps : List DigestParam} (hnodup : (ps.map DigestParam.name).Nodup)
    {p : DigestParam} (hp : p ∈ ps) {m : StrMap Str} (hm : m.get? p.name = none) :
    (ps.foldl DigestParam.record m).get? p.name = p.value := by
  induction ps generalizing m with
  | nil => cases hp
  | cons q ps ih =>
      rw [List.map_cons, List.nodup_cons] at hnodup
      rw [List.foldl_cons]
      rcases List.mem_cons.mp hp with rfl | hp
      · rw [get?_foldl_record_of_not_mem hnodup.1, DigestParam.record]
        cases p.value with
        | none => exact hm
        | some v => exact Map.get?_insert_self m p.name v
      · refine ih hnodup.2 hp ?_
        rw [get?_record_of_ne, hm]
        intro heq
        exact hnodup.1 (heq ▸ List.mem_map_of_mem hp)

theorem digestParam_text_trimmed {p : DigestParam} (hp : p.Ok) {text : Str} (htext : p.text = some text) :
    text ≠ [] ∧ trimEnd text = text := by
  cases hv : p.value with
  | none =>
      rw [DigestParam.text, hv] at htext
      cases htext
  | some v =>
      rw [DigestParam.text_eq hv] at htext
      obtain rfl := Option.some.inj htext
      refine ⟨by simp, ?_⟩
      rw [trimEnd_append_cons _ _ (by decide), DigestParam.written]
      cases hq : p.isQuoted with
      | true =>
          rw [if_pos rfl, trimEnd_concat _ (by decide)]
      | false =>
          rw [if_neg Bool.false_ne_true]
          rw [trimEnd_of_forall fun c hc ↦ ((hp.token hq v hv).2 c hc).2.2]

theorem intercalate_texts (text : Str) (texts : List Str) :
    [',', ' '].intercalate (text :: texts) = text ++ texts.flatMap fun t ↦ ',' :: ' ' :: t := by
  induction texts generalizing text with
  | nil => simp [List.intercalate]
  | cons t texts ih =>
      rw [List.intercalate_cons_cons, ih, List.flatMap_cons]
      simp

theorem length_le_intercalate {texts : List Str} (h : ∀ t ∈ texts, t ≠ []) :
    texts.length ≤ ([',', ' '].intercalate texts).length := by
  induction texts with
  | nil => exact Nat.zero_le _
  | cons t texts ih =>
      have hpos := List.length_pos_iff.mpr (h t List.mem_cons_self)
      have hle := ih fun t' ht' ↦ h t' (List.mem_cons_of_mem t ht')
      cases texts with
      | nil => simpa [List.intercalate, Nat.one_le_iff_ne_zero, Nat.pos_iff_ne_zero] using hpos
      | cons t' texts =>
          rw [List.intercalate_cons_cons, List.length_append, List.length_append]
          simp only [List.length_cons] at hle ⊢
          omega

/-- All of the parameters are read, from the first one on. -/
theorem parseParamsFrom_texts {ps : List DigestParam} (hps : ∀ p ∈ ps, p.Ok) {fuel : Nat}
    (hfuel : (ps.filterMap DigestParam.text).length ≤ fuel) (out : StrMap Str) :
    parseParamsFrom fuel ([',', ' '].intercalate (ps.filterMap DigestParam.text)) out =
      ps.foldl DigestParam.record out := by
  induction ps generalizing out with
  | nil =>
      cases fuel with
      | zero => rfl
      | succ fuel => rfl
  | cons p ps ih =>
      have hrest : ∀ q ∈ ps, q.Ok := fun q hq ↦ hps q (List.mem_cons_of_mem p hq)
      rw [List.foldl_cons, DigestParam.record]
      cases hv : p.value with
      | none =>
          have htext : p.text = none := by rw [DigestParam.text, hv, Option.map_none]
          rw [List.filterMap_cons_none htext] at hfuel ⊢
          exact ih hrest hfuel out
      | some v =>
          rw [List.filterMap_cons_some (DigestParam.text_eq hv)] at hfuel ⊢
          cases fuel with
          | zero => cases hfuel
          | succ fuel =>
              have hround := parseParamsFrom_cons (hps p List.mem_cons_self) hv (.inl rfl)
                (paramsTail_head ps) fuel out
              rw [List.nil_append] at hround
              rw [intercalate_texts, List.append_assoc, List.cons_append, ← paramsTail, hround]
              exact parseParamsFrom_tail hrest (Nat.le_of_succ_le_succ hfuel) _

/-- Behind the scheme, and trimmed, a parameter list is read as it is. -/
theorem digestParams_append {body : Str} (hne : body ≠ []) (hend : trimEnd body = body) :
    digestParams ("Digest " ++ body) = some (parseParams body) := by
  have hscheme : ("Digest " : Str) = ("Digest" : Str) ++ [' '] := by decide
  have hword : ("Digest" : Str) = 'D' :: ("igest" : Str) := by decide
  have hcase : eqIgnoreCase "Digest" "Digest" = true := by decide
  have htrim : trim ("Digest " ++ body) = "Digest" ++ ' ' :: body := by
    rw [hscheme, List.append_assoc, hword, List.cons_append, trim, trimStart_cons (by decide),
      ← List.cons_append, List.singleton_append, List.append_cons, trimEnd_append _ hne hend]
  have hsplit : splitOnce isWhitespace (("Digest" : Str) ++ ' ' :: body) = some (("Digest" : Str), body) :=
    splitOnce_append (by decide) (by decide)
  rw [digestParams, htrim, hsplit]
  exact if_pos (e := none) hcase

/-- A header is read back: each of its parameters is there, and is what it was. -/
theorem digestParams_digestHeader {ps : List DigestParam} (hps : ∀ p ∈ ps, p.Ok)
    (hnodup : (ps.map DigestParam.name).Nodup) (hsome : ∃ p ∈ ps, p.value ≠ none) :
    ∃ m, digestParams (digestHeader ps) = some m ∧ ∀ p ∈ ps, m.get? p.name = p.value := by
  have htexts : ∀ text ∈ ps.filterMap DigestParam.text, text ≠ [] ∧ trimEnd text = text := by
    intro text htext
    obtain ⟨p, hp, htext⟩ := List.mem_filterMap.mp htext
    exact digestParam_text_trimmed (hps p hp) htext
  have hlen := length_le_intercalate fun t ht ↦ (htexts t ht).1
  have hend : trimEnd ([',', ' '].intercalate (ps.filterMap DigestParam.text)) = _ :=
    trimEnd_intercalate htexts
  have hne : [',', ' '].intercalate (ps.filterMap DigestParam.text) ≠ [] := by
    obtain ⟨p, hp, hvalue⟩ := hsome
    obtain ⟨v, hv⟩ := Option.ne_none_iff_exists'.mp hvalue
    have hmem : p.name ++ '=' :: p.written v ∈ ps.filterMap DigestParam.text :=
      List.mem_filterMap.mpr ⟨p, hp, DigestParam.text_eq hv⟩
    have hpos := List.length_pos_of_mem hmem
    exact List.length_pos_iff.mp (hpos.trans_le hlen)
  have hread := digestParams_append hne hend
  rw [parseParams, parseParamsFrom_texts hps hlen .empty] at hread
  exact ⟨_, hread, fun p hp ↦ get?_foldl_record hnodup hp (Map.get?_empty p.name)⟩

/-! ## The two headers -/

/-- A word of letters, digits and the like. -/
def Word (s : Str) : Prop := s ≠ [] ∧ ∀ c ∈ s, c ≠ ',' ∧ c ≠ '"' ∧ isWhitespace c = false

theorem word_of_eqIgnoreCase {s t : Str} (ht : Word (lower t)) (h : eqIgnoreCase s t = true) : Word s := by
  have hlower : lower s = lower t := beq_iff_eq.mp h
  refine ⟨?_, fun c hc ↦ ?_⟩
  · rintro rfl
    exact ht.1 hlower.symm
  · have hmem : c.toLower ∈ lower t := hlower ▸ List.mem_map_of_mem hc
    obtain ⟨hcomma, hquote, hspace⟩ := ht.2 _ hmem
    refine ⟨?_, ?_, ?_⟩
    · rintro rfl
      exact hcomma rfl
    · rintro rfl
      exact hquote rfl
    · rwa [isWhitespace_toLower] at hspace

theorem word_supported {c : Challenge} (h : c.isSupported = true) {a : Str} (ha : c.algorithm = some a) :
    Word a := by
  rw [Challenge.isSupported, ha] at h
  rcases Bool.or_eq_true_iff.mp h with h | h
  · exact word_of_eqIgnoreCase ⟨by decide, by decide⟩ h
  · exact word_of_eqIgnoreCase ⟨by decide, by decide⟩ h

/-- The parameters of credentials.  The count and the nonce of the client go with `qop`. -/
def Credentials.params (c : Credentials) : List DigestParam :=
  [⟨"username", true, some c.username⟩, ⟨"realm", true, some c.realm⟩, ⟨"nonce", true, some c.nonce⟩,
    ⟨"uri", true, some c.uri⟩, ⟨"response", true, some c.response⟩, ⟨"algorithm", false, c.algorithm⟩,
    ⟨"qop", false, c.qop⟩, ⟨"nc", false, c.qop.bind fun _ ↦ c.nc⟩,
    ⟨"cnonce", true, c.qop.bind fun _ ↦ c.cnonce⟩, ⟨"opaque", true, c.opaqueValue⟩]

/-- A parameter behind another one. -/
def DigestParam.tail (p : DigestParam) : Str :=
  match p.value with
  | some v => ',' :: ' ' :: (p.name ++ '=' :: p.written v)
  | none => []

theorem paramsTail_nil : paramsTail [] = [] := rfl

theorem paramsTail_cons (p : DigestParam) (ps : List DigestParam) :
    paramsTail (p :: ps) = p.tail ++ paramsTail ps := by
  rw [DigestParam.tail, paramsTail]
  cases hv : p.value with
  | none =>
      have htext : p.text = none := by rw [DigestParam.text, hv, Option.map_none]
      rw [List.filterMap_cons_none htext]
      rfl
  | some v =>
      rw [List.filterMap_cons_some (DigestParam.text_eq hv)]
      rfl

theorem quoted_eq (name v : Str) :
    Credentials.quoted name v = name ++ '=' :: DigestParam.written ⟨name, true, some v⟩ v := by
  simp [Credentials.quoted, DigestParam.written]

theorem digestHeader_cons {p : DigestParam} {v : Str} (hv : p.value = some v) (ps : List DigestParam) :
    digestHeader (p :: ps) = "Digest " ++ (p.name ++ '=' :: p.written v ++ paramsTail ps) := by
  have hbody : [',', ' '].intercalate ((p :: ps).filterMap DigestParam.text) =
      p.name ++ '=' :: p.written v ++ paramsTail ps := by
    rw [List.filterMap_cons_some (DigestParam.text_eq hv), intercalate_texts, paramsTail]
  exact congrArg (("Digest " : Str) ++ ·) hbody

theorem tail_quoted (name v : Str) :
    DigestParam.tail ⟨name, true, some v⟩ = ", " ++ Credentials.quoted name v := by
  rw [quoted_eq]
  rfl

namespace Credentials

variable (c : Credentials)

theorem toHeader_algorithm : (match c.algorithm with | some a => (", algorithm=" : Str) ++ a | none => []) =
    DigestParam.tail ⟨"algorithm", false, c.algorithm⟩ := by
  cases c.algorithm with
  | none => rfl
  | some a => rfl

theorem toHeader_opaque :
    (match c.opaqueValue with | some o => (", " : Str) ++ quoted "opaque" o | none => []) =
      DigestParam.tail ⟨"opaque", true, c.opaqueValue⟩ := by
  cases c.opaqueValue with
  | none => rfl
  | some o => exact (tail_quoted "opaque" o).symm

theorem toHeader_nc (q : Str) : (match c.nc with | some nc => (", nc=" : Str) ++ nc | none => []) =
    DigestParam.tail ⟨"nc", false, (some q).bind fun _ ↦ c.nc⟩ := by
  cases c.nc with
  | none => rfl
  | some nc => rfl

theorem toHeader_cnonce (q : Str) :
    (match c.cnonce with | some cn => (", " : Str) ++ quoted "cnonce" cn | none => []) =
      DigestParam.tail ⟨"cnonce", true, (some q).bind fun _ ↦ c.cnonce⟩ := by
  cases c.cnonce with
  | none => rfl
  | some cn => exact (tail_quoted "cnonce" cn).symm

theorem toHeader_qop :
    (match c.qop with
      | some q => (", qop=" : Str) ++ q ++ (match c.nc with | some nc => ", nc=" ++ nc | none => []) ++
          (match c.cnonce with | some cn => ", " ++ quoted "cnonce" cn | none => [])
      | none => []) =
      DigestParam.tail ⟨"qop", false, c.qop⟩ ++
        DigestParam.tail ⟨"nc", false, c.qop.bind fun _ ↦ c.nc⟩ ++
          DigestParam.tail ⟨"cnonce", true, c.qop.bind fun _ ↦ c.cnonce⟩ := by
  cases c.qop with
  | none => rfl
  | some q => exact congrArg₂ (· ++ ·) (congrArg ((", qop=" : Str) ++ q ++ ·) (c.toHeader_nc q)) (c.toHeader_cnonce q)

end Credentials

/-- What is written is a header with these parameters. -/
theorem toHeader_eq (c : Credentials) : c.toHeader = digestHeader c.params := by
  have hheader : digestHeader c.params = _ := digestHeader_cons rfl _
  refine (congrArg₂ (· ++ ·) (congrArg₂ (· ++ ·) (congrArg (_ ++ ·) c.toHeader_algorithm)
    c.toHeader_qop) c.toHeader_opaque).trans ?_
  refine Eq.trans ?_ hheader.symm
  simp only [paramsTail_cons, paramsTail_nil, tail_quoted, quoted_eq, List.append_assoc, List.append_nil]

/-! ## The client and the server -/

/-- The parameters are read for what they are, in whichever order and way they are written. -/
theorem digestParams_fields {ps : List DigestParam} {fields : List (Str × Option Str)}
    (hperm : (ps.map fun p ↦ (p.name, p.value)).Perm fields) (hps : ∀ p ∈ ps, p.Ok)
    (hnodup : (fields.map Prod.fst).Nodup) (hsome : ∃ f ∈ fields, f.2 ≠ none) :
    ∃ m, digestParams (digestHeader ps) = some m ∧ ∀ f ∈ fields, m.get? f.1 = f.2 := by
  have hfield : ∀ f ∈ fields, ∃ p ∈ ps, (p.name, p.value) = f := fun f hf ↦
    List.mem_map.mp (hperm.mem_iff.mpr hf)
  have hnames : (ps.map DigestParam.name).Perm (fields.map Prod.fst) := by
    have hmap := hperm.map Prod.fst
    rwa [List.map_map] at hmap
  have hthere : ∃ p ∈ ps, p.value ≠ none := by
    obtain ⟨f, hf, hvalue⟩ := hsome
    obtain ⟨p, hp, rfl⟩ := hfield f hf
    exact ⟨p, hp, hvalue⟩
  obtain ⟨m, hm, hget⟩ := digestParams_digestHeader hps (hnames.nodup_iff.mpr hnodup) hthere
  refine ⟨m, hm, fun f hf ↦ ?_⟩
  obtain ⟨p, hp, rfl⟩ := hfield f hf
  exact hget p hp

/-- What a challenge says: a name and a value for each parameter. -/
def Challenge.fields (c : Challenge) : List (Str × Option Str) :=
  [("realm", some c.realm), ("nonce", some c.nonce), ("opaque", c.opaqueValue), ("qop", c.qop),
    ("algorithm", c.algorithm)]

/-- The names that a parameter has. -/
def paramNames : List Str :=
  ["username", "realm", "nonce", "uri", "response", "algorithm", "cnonce", "nc", "qop", "opaque"]

theorem ok_of_mem_paramNames {p : DigestParam} (hname : p.name ∈ paramNames)
    (hquoted : p.isQuoted = true → ∀ v, p.value = some v → '"' ∉ v)
    (hbare : p.isQuoted = false → ∀ v, p.value = some v → Word v) : p.Ok := by
  have hnames : ∀ name ∈ paramNames, name ≠ [] ∧ lower name = name ∧
      ∀ c ∈ name, c ≠ '=' ∧ c ≠ ',' ∧ isWhitespace c = false := by decide
  obtain ⟨hne, hlower, hchars⟩ := hnames p.name hname
  exact ⟨hne, hlower, hchars, hquoted, hbare⟩

theorem ok_quoted {name : Str} {v : Option Str} (hname : name ∈ paramNames)
    (hv : ∀ s, v = some s → '"' ∉ s) : DigestParam.Ok ⟨name, true, v⟩ :=
  ok_of_mem_paramNames hname (fun _ ↦ hv) nofun

theorem ok_bare {name : Str} {v : Option Str} (hname : name ∈ paramNames)
    (hv : ∀ s, v = some s → Word s) : DigestParam.Ok ⟨name, false, v⟩ :=
  ok_of_mem_paramNames hname nofun fun _ ↦ hv

theorem Challenge.parse_digestHeader {c : Challenge} {ps : List DigestParam}
    (hperm : (ps.map fun p ↦ (p.name, p.value)).Perm c.fields) (hps : ∀ p ∈ ps, p.Ok) :
    Challenge.parse (digestHeader ps) = some c := by
  have hnodup : (["realm", "nonce", "opaque", "qop", "algorithm"] : List Str).Nodup := by decide
  obtain ⟨m, hm, hget⟩ := digestParams_fields hperm hps hnodup
    ⟨_, List.mem_cons_self, Option.some_ne_none c.realm⟩
  simp only [fields, List.forall_mem_cons] at hget
  obtain ⟨hrealm, hnonce, hopaqueValue, hqop, halgorithm, -⟩ := hget
  rw [Challenge.parse, hm]
  simp only [Option.bind_eq_bind, Option.bind_some, hrealm, hnonce, hopaqueValue, hqop, halgorithm,
    Option.getD_some]

/-- Credentials are read back, if their counter and the nonce of the client go with `qop`. -/
theorem Credentials.parse_toHeader {c : Credentials} (hps : ∀ p ∈ c.params, p.Ok)
    (hnc : c.qop = none → c.nc = none) (hcnonce : c.qop = none → c.cnonce = none) :
    Credentials.parse c.toHeader = some c := by
  have hnodup : (["username", "realm", "nonce", "uri", "response", "algorithm", "qop", "nc", "cnonce",
      "opaque"] : List Str).Nodup := by decide
  obtain ⟨m, hm, hget⟩ := digestParams_fields (.refl _) hps hnodup
    ⟨_, List.mem_cons_self, Option.some_ne_none c.username⟩
  simp only [params, List.map_cons, List.forall_mem_cons] at hget
  obtain ⟨husername, hrealm, hnonce, huri, hresponse, halgorithm, hqop, hnc', hcnonce', hopaqueValue, -⟩ := hget
  have hbind {α : Type} {v : Option α} (h : c.qop = none → v = none) : (c.qop.bind fun _ ↦ v) = v := by
    cases hq : c.qop with
    | none => rw [Option.bind_none, h hq]
    | some q => rfl
  rw [hbind hnc] at hnc'
  rw [hbind hcnonce] at hcnonce'
  rw [toHeader_eq, Credentials.parse, hm]
  simp only [Option.bind_eq_bind, Option.bind_some, husername, hrealm, hnonce, huri, hresponse,
    halgorithm, hqop, hnc', hcnonce', hopaqueValue, Option.getD_some]

/-- Two hexadecimal digits for each byte. -/
def hexText (bytes : List UInt8) : Str := bytes.flatMap fun b ↦ hexPad 2 b.toNat

theorem hexPad_chars (width n : Nat) :
    ∀ c ∈ hexPad width n, c ≠ ',' ∧ c ≠ '"' ∧ isWhitespace c = false := by
  intro c hc
  rcases List.mem_append.mp hc with hc | hc
  · obtain rfl := List.eq_of_mem_replicate hc
    decide
  · have hdigit := forall_digitChar (p := fun c ↦ c ≠ ',' ∧ c ≠ '"' ∧ isWhitespace c = false)
      (by decide) (by decide)
    exact forall_mem_toDigits (p := fun c ↦ c ≠ ',' ∧ c ≠ '"' ∧ isWhitespace c = false) hdigit 16 n c hc

theorem word_hexPad (width n : Nat) : Word (hexPad width n) :=
  ⟨List.append_ne_nil_of_right_ne_nil _ Nat.toDigits_ne_nil, hexPad_chars width n⟩

theorem quote_not_mem_hexText (bytes : List UInt8) : '"' ∉ hexText bytes := by
  intro h
  obtain ⟨b, -, hb⟩ := List.mem_flatMap.mp h
  exact (hexPad_chars 2 b.toNat _ hb).2.1 rfl

/-- The `qop` of an answer is the word `auth`. -/
theorem word_answer_qop {md5Hex : List UInt8 → Str} {cnonce : Str} {c : Challenge}
    {username password method uri : Str} {body : List UInt8} {ncValue : Nat} {q : Str}
    (hq : (answer md5Hex cnonce c username password method uri body ncValue).qop = some q) : Word q := by
  obtain ⟨offered, -, hfind⟩ := Option.bind_eq_some_iff.mp hq
  have hauth : eqIgnoreCase q "auth" = true := List.find?_some (p := (eqIgnoreCase · "auth")) hfind
  exact word_of_eqIgnoreCase ⟨by decide, by decide⟩ hauth

/-- The parameters of an answer are written so that they can be read. -/
theorem ok_answer_params {md5 : List UInt8 → List UInt8} {random : List UInt8} {c : Challenge}
    (hrealm : '"' ∉ c.realm) (hnonce : '"' ∉ c.nonce) (hopaqueValue : ∀ o, c.opaqueValue = some o → '"' ∉ o)
    (halgorithm : c.isSupported = true) {username uri : Str} (husername : '"' ∉ username)
    (huri : '"' ∉ uri) {password method : Str} {body : List UInt8} {ncValue : Nat} :
    ∀ p ∈ (answer (hexText ∘ md5) (hexText random) c username password method uri body ncValue).params,
      p.Ok := by
  have hsome {s : Str} (h : '"' ∉ s) : ∀ t, some s = some t → '"' ∉ t := by
    rintro _ ⟨⟩
    exact h
  generalize hcreds : answer (hexText ∘ md5) (hexText random) c username password method uri body ncValue
    = creds
  have hresponse : '"' ∉ creds.response := by
    rw [← hcreds]
    exact quote_not_mem_hexText _
  have hqop : ∀ q, creds.qop = some q → Word q := by
    intro q hq
    rw [← hcreds] at hq
    exact word_answer_qop hq
  have hnc : ∀ nc, (creds.qop.bind fun _ ↦ creds.nc) = some nc → Word nc := by
    intro nc hnc
    obtain ⟨q, -, hnc⟩ := Option.bind_eq_some_iff.mp hnc
    rw [← hcreds] at hnc
    obtain ⟨q', -, rfl⟩ := Option.map_eq_some_iff.mp hnc
    exact word_hexPad 8 ncValue
  have hcnonce : ∀ cn, (creds.qop.bind fun _ ↦ creds.cnonce) = some cn → '"' ∉ cn := by
    intro cn hcn
    obtain ⟨q, -, hcn⟩ := Option.bind_eq_some_iff.mp hcn
    rw [← hcreds] at hcn
    obtain ⟨q', -, rfl⟩ := Option.map_eq_some_iff.mp hcn
    exact quote_not_mem_hexText random
  have hreply : creds.username = username ∧ creds.realm = c.realm ∧ creds.nonce = c.nonce ∧
      creds.uri = uri ∧ creds.algorithm = c.algorithm ∧ creds.opaqueValue = c.opaqueValue := by
    rw [← hcreds]
    exact ⟨rfl, rfl, rfl, rfl, rfl, rfl⟩
  obtain ⟨h₁, h₂, h₃, h₄, h₅, h₆⟩ := hreply
  rw [Credentials.params, h₁, h₂, h₃, h₄, h₅, h₆]
  simp only [List.forall_mem_cons]
  refine ⟨ok_quoted (by decide) (hsome husername), ok_quoted (by decide) (hsome hrealm),
    ok_quoted (by decide) (hsome hnonce), ok_quoted (by decide) (hsome huri),
    ok_quoted (by decide) (hsome hresponse), ok_bare (by decide) fun a ↦ word_supported halgorithm,
    ok_bare (by decide) hqop, ok_bare (by decide) hnc, ok_quoted (by decide) hcnonce,
    ok_quoted (by decide) hopaqueValue, List.forall_mem_nil _⟩

/-- The two halves of the digest agree: a challenge is read for what it is, its answer is read back
field by field, and the server accepts it for the same request and password. -/
theorem digest_halves_agree (md5 : List UInt8 → List UInt8) (random : List UInt8) {c : Challenge}
    (hrealm : '"' ∉ c.realm) (hnonce : '"' ∉ c.nonce) (hopaqueValue : ∀ o, c.opaqueValue = some o → '"' ∉ o)
    (hqop : ∀ q, c.qop = some q → '"' ∉ q) (halgorithm : c.isSupported = true) {ps : List DigestParam}
    (hperm : (ps.map fun p ↦ (p.name, p.value)).Perm c.fields)
    (hbare : ∀ p ∈ ps, p.isQuoted = false → ∀ v, p.value = some v → Word v) {username uri : Str}
    (husername : '"' ∉ username) (huri : '"' ∉ uri) (password method : Str) (body : List UInt8)
    (ncValue : Nat) {creds : Credentials}
    (hcreds : creds = answer (hexText ∘ md5) (hexText random) c username password method uri body ncValue) :
    Challenge.parse (digestHeader ps) = some c ∧ Credentials.parse creds.toHeader = some creds ∧
      verify (hexText ∘ md5) creds password method body = true := by
  refine ⟨?_, ?_, ?_⟩
  · refine Challenge.parse_digestHeader hperm fun p hp ↦ ?_
    have hfield : (p.name, p.value) ∈ c.fields := hperm.mem_iff.mp (List.mem_map_of_mem hp)
    have hname : p.name ∈ paramNames := by
      have hnames : ∀ name ∈ (["realm", "nonce", "opaque", "qop", "algorithm"] : List Str),
          name ∈ paramNames := by decide
      exact hnames p.name (List.mem_map_of_mem (f := Prod.fst) hfield)
    have hvalues : ∀ f ∈ c.fields, ∀ v, f.2 = some v → '"' ∉ v := by
      simp only [Challenge.fields, List.forall_mem_cons]
      refine ⟨?_, ?_, hopaqueValue, hqop, fun a ha h ↦ ((word_supported halgorithm ha).2 _ h).2.1 rfl,
        List.forall_mem_nil _⟩
      · rintro _ ⟨⟩
        exact hrealm
      · rintro _ ⟨⟩
        exact hnonce
    exact ok_of_mem_paramNames hname (fun _ ↦ hvalues _ hfield) (hbare p hp)
  · rw [hcreds]
    refine Credentials.parse_toHeader
      (ok_answer_params hrealm hnonce hopaqueValue halgorithm husername huri) ?_ ?_
    · exact fun hnone ↦ congrArg (Option.map fun _ ↦ hexPad 8 ncValue) hnone
    · exact fun hnone ↦ congrArg (Option.map fun _ ↦ hexText random) hnone
  · rw [verify_iff, hcreds]
    rfl

def sampleChallenge : Challenge :=
  { realm := "asterisk", nonce := "5f2c", opaqueValue := none, qop := some "auth-int, auth",
    algorithm := some "md5-sess" }

/-- The challenge as a server writes it, with the algorithm in front. -/
def sampleParams : List DigestParam :=
  [⟨"algorithm", false, some "md5-sess"⟩, ⟨"realm", true, some "asterisk"⟩, ⟨"nonce", true, some "5f2c"⟩,
    ⟨"qop", true, some "auth-int, auth"⟩, ⟨"opaque", true, none⟩]

/-- Some function in the place of the hash. -/
def sampleHash (bytes : List UInt8) : List UInt8 := [bytes.foldl (· + ·) 0]

def sampleAnswer : Credentials :=
  answer (hexText ∘ sampleHash) (hexText [0x2A, 0xFF]) sampleChallenge "1001" "secret" "INVITE"
    "sip:100@pbx" [] 7

theorem digest_halves_agree_sample :
    Challenge.parse (digestHeader sampleParams) = some sampleChallenge ∧
      Credentials.parse sampleAnswer.toHeader = some sampleAnswer ∧
        verify (hexText ∘ sampleHash) sampleAnswer "secret" "INVITE" [] = true := by
  have hbare : ∀ p ∈ sampleParams, p.isQuoted = false → ∀ v, p.value = some v → Word v := by
    simp only [sampleParams, List.forall_mem_cons]
    refine ⟨?_, nofun, nofun, nofun, nofun, List.forall_mem_nil _⟩
    rintro - _ ⟨⟩
    exact ⟨by decide, by decide⟩
  have hopaqueValue : ∀ o, sampleChallenge.opaqueValue = some o → '"' ∉ o := by
    rintro _ ⟨⟩
  have hqop : ∀ q, sampleChallenge.qop = some q → '"' ∉ q := by
    rintro _ ⟨⟩
    decide
  exact digest_halves_agree sampleHash [0x2A, 0xFF] (by decide) (by decide) hopaqueValue hqop (by decide)
    (by decide) hbare (by decide) (by decide) "secret" "INVITE" [] 7 rfl

end Modem2Sip.Sip
