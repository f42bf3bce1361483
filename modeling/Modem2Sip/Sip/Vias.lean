import Modem2Sip.Sip.Server

/-!
# The Via list of a response

`Via::parse`, its `Display` and the part of `respond` in `sip/core.rs` that reflects the source.
A response carries the Via values of its request; the first of them was taken apart, annotated
and written anew.  A bracketed host is kept without its brackets and is written without them, so
that a host with a colon in it and a port after it do not come back apart.  And `header_safe` takes
the control characters out of every field that is sent, with a tab that a value may need.
-/

namespace Modem2Sip.Sip

open Text Net

/-! ## What is to be carried -/

/-- The Via values, one after the other, however they are folded. -/
def viaValues (h : Headers) : List Str := (h.getAll "via").flatMap fun field ↦ field.splitOn ','

/-- The value with the source reflected. -/
def Via.reflected (src : SocketAddr) (via : Via) : Via :=
  let via := via.setParam "received" (some src.ip.show)
  if via.hasParam "rport" then via.setParam "rport" (some (dec src.port)) else via

/-- Only the topmost value says where the request came from. -/
def reflectTop (src : SocketAddr) : List (Option Via) → List (Option Via)
  | [] => []
  | top :: rest => top.map (Via.reflected src) :: rest

/-- The response that was sent carries the Via list of the request. -/
def ViasCarried (req : Request) (src : SocketAddr) (bytes : List UInt8) : Prop :=
  ∃ m, Message.parse bytes = some m ∧
    (viaValues m.headers).map Via.parse = reflectTop src ((viaValues req.headers).map Via.parse)

/-! ## Hosts that need their brackets -/

/-- What stands in the brackets of a bracketed reference, and the port behind them. -/
def bracketedHost (hostport : Str) : Option (Str × Option Nat) :=
  (stripPrefix ['['] (trim hostport)).bind fun rest ↦
    (splitAt ']' rest).map fun ha ↦ (ha.1, (stripPrefix [':'] ha.2).bind parseU16)

/-- The same for the sent-by of a value. -/
def bracketed (value : Str) : Option (Str × Option Nat) :=
  (splitOnce isWhitespace (trim (before ',' value))).bind fun pr ↦
    bracketedHost (before ';' (trim pr.2))

/-- A text that reads as a host and a port. -/
def HostAndPort (s h : Str) (n : Nat) : Prop :=
  ∃ p, s = h ++ ':' :: p ∧ ':' ∉ h ∧ ':' ∉ p ∧ parseU16 p = some n

/-- A host that can do without its brackets: in front of a port it has no colon and no white space
before it; on its own it has no white space around it and does not read as a host and a port. -/
def Unbracketable (host : Str) : Option Nat → Prop
  | some _ => trimStart host = host ∧ ':' ∉ host
  | none => trim host = host ∧ ∀ h n, ¬ HostAndPort host h n

/-- The Via fields of a response: those of the request, but for the topmost value. -/
def writtenVias (src : SocketAddr) : List Str → List Str
  | [] => []
  | field :: fields =>
    match Via.parse field with
    | none => field :: fields
    | some via =>
      ((via.reflected src).show ++ match (Uri.cut ',' field).2 with
        | some rest => ',' :: rest
        | none => []) :: fields

/-- What is sent of a value in this field. -/
def sentOf (field value : Str) : Str :=
  if headerSafe field = field then value else value.filter fun c ↦ !isControl c

/-- No value of the field is read otherwise for the control characters that are not sent. -/
def Sendable (field : Str) : Prop :=
  ∀ value ∈ field.splitOn ',', Via.parse (sentOf field value) = Via.parse value

/-- The host of the topmost value can do without the brackets that it has. -/
def TopUnbracketable (req : Request) : Prop :=
  ∀ field host port, req.headers.get "via" = some field → bracketed field = some (host, port) →
    Unbracketable host port

/-! ## The host and the port -/

theorem parseU16_lt {s : Str} {n : Nat} (h : parseU16 s = some n) : n < 2 ^ 16 := by
  have hdigits (ds : Str) (hds : (if ds = [] then none
      else (digitsValue 10 0 ds).filter (· < 2 ^ 16)) = some n) : n < 2 ^ 16 := by
    split at hds
    · cases hds
    · simpa using (Option.filter_eq_some_iff.mp hds).2
  unfold parseU16 parseUnsigned at h
  dsimp only at h
  split at h
  · exact hdigits _ h
  · exact hdigits _ h

theorem parseU16_dec {n : Nat} (h : n < 2 ^ 16) : parseU16 (dec n) = some n := parseUnsigned_dec h

/-- What does not open with a bracketed reference is cut at its last colon. -/
def splitPlain (s : Str) : Str × Option Nat :=
  match rsplitAt ':' s with
  | some (h, p) =>
    if ':' ∈ h then (s, none)
    else match parseU16 p with
      | some port => (h, some port)
      | none => (s, none)
  | none => (s, none)

theorem splitPlain_of_hostAndPort {s h : Str} {n : Nat} (hs : HostAndPort s h n) :
    splitPlain s = (h, some n) := by
  obtain ⟨p, rfl, hh, hp, hn⟩ := hs
  simp only [splitPlain, rsplitAt_append_cons h hp, if_neg hh, hn]

theorem splitPlain_of_not {s : Str} (hs : ∀ h n, ¬ HostAndPort s h n) : splitPlain s = (s, none) := by
  rw [splitPlain]
  split
  · rename_i h p hsplit
    obtain ⟨heq, hp⟩ := eq_of_rsplitAt hsplit
    split
    · rfl
    · rename_i hh
      split
      · rename_i n hn
        exact absurd ⟨p, heq, hh, hp, hn⟩ (hs h n)
      · rfl
  · rfl

theorem splitHostPort_eq (s : Str) :
    splitHostPort s = (bracketedHost s).getD (splitPlain (trim s)) := by
  rw [splitHostPort, bracketedHost]
  cases stripPrefix ['['] (trim s) with
  | none => rfl
  | some rest =>
      cases hsplit : splitAt ']' rest with
      | none =>
          simp only [Option.bind_some, hsplit, Option.map_none, Option.getD_none]
          rfl
      | some ha => simp [hsplit]

/-- A reference is an opening bracket with a closing one after it. -/
theorem bracketedHost_eq_none {s : Str} :
    bracketedHost s = none ↔ ∀ rest, trim s = '[' :: rest → ']' ∉ rest := by
  rw [bracketedHost, stripPrefix]
  constructor
  · intro h rest heq hmem
    rw [heq, if_pos (by simp)] at h
    rw [List.length_singleton, List.drop_one, List.tail_cons, Option.bind_some, Option.map_eq_none_iff] at h
    exact not_mem_of_splitAt h hmem
  · intro h
    split
    · rename_i hpre
      obtain ⟨t, ht⟩ := List.isPrefixOf_iff_prefix.mp hpre
      rw [← ht, List.drop_left, Option.bind_some, splitAt_eq_none (h t ht.symm)]
      rfl
    · rfl

/-- What stood in brackets has no closing bracket, and its port is one. -/
theorem bracketedHost_eq_some {s host : Str} {port : Option Nat}
    (h : bracketedHost s = some (host, port)) : ']' ∉ host ∧ ∀ n, port = some n → n < 2 ^ 16 := by
  obtain ⟨rest, -, hrest⟩ := Option.bind_eq_some_iff.mp h
  obtain ⟨⟨host', after⟩, hsplit, heq⟩ := Option.map_eq_some_iff.mp hrest
  obtain ⟨rfl, rfl⟩ := Prod.mk.inj heq
  refine ⟨(eq_of_splitAt hsplit).2, fun n hn ↦ ?_⟩
  obtain ⟨p, -, hp⟩ := Option.bind_eq_some_iff.mp hn
  exact parseU16_lt hp

@[simp] theorem splitHostPort_trim (s : Str) : splitHostPort (trim s) = splitHostPort s := by
  rw [splitHostPort, splitHostPort, trim_trim]

/-- How the port is written behind the host. -/
def writtenPort : Option Nat → Str
  | some p => ':' :: dec p
  | none => []

theorem trim_append_port (host : Str) (n : Nat) :
    trim (host ++ writtenPort (some n)) = trimStart host ++ writtenPort (some n) := by
  rw [writtenPort, trim_append_cons host _ (by decide), trimEnd_of_forall (isWhitespace_of_mem_dec n)]

/-- What was read without brackets is read again as it is written. -/
theorem splitHostPort_written {s : Str} (hs : bracketedHost s = none) :
    splitHostPort ((splitHostPort s).1 ++ writtenPort (splitHostPort s).2) = splitHostPort s := by
  have hplain : splitHostPort s = splitPlain (trim s) := by
    rw [splitHostPort_eq, hs, Option.getD_none]
  rw [hplain]
  by_cases hport : ∃ h n, HostAndPort (trim s) h n
  · obtain ⟨h, n, hhp⟩ := hport
    rw [splitPlain_of_hostAndPort hhp]
    obtain ⟨p, heq, hh, hp, hn⟩ := hhp
    have hstart : trimStart h = h := by
      have htrim := trimStart_trim s
      rw [heq, trimStart_append_cons h p (by decide)] at htrim
      exact List.append_cancel_right htrim
    have htrim : trim (h ++ writtenPort (some n)) = h ++ ':' :: dec n := by
      rw [trim_append_port, hstart]
      rfl
    have hnone : bracketedHost (h ++ writtenPort (some n)) = none := by
      rw [bracketedHost_eq_none, htrim]
      intro rest hrest
      cases h with
      | nil => cases hrest
      | cons c h =>
          rw [List.cons_append] at hrest heq
          obtain ⟨rfl, rfl⟩ := List.cons.inj hrest
          have hnot := bracketedHost_eq_none.mp hs _ heq
          rw [List.mem_append, List.mem_cons] at hnot ⊢
          rintro (hmem | hmem | hmem)
          · exact hnot (.inl hmem)
          · cases hmem
          · exact not_mem_dec (by decide) n hmem
    rw [splitHostPort_eq, hnone, Option.getD_none, htrim]
    exact splitPlain_of_hostAndPort
      ⟨dec n, rfl, hh, not_mem_dec (by decide) n, parseU16_dec (parseU16_lt hn)⟩
  · have hnone : splitPlain (trim s) = (trim s, none) :=
      splitPlain_of_not fun h n hhp ↦ hport ⟨h, n, hhp⟩
    rw [hnone, writtenPort, List.append_nil, splitHostPort_trim, hplain, hnone]

/-- A host that stood in brackets is read again exactly when it can do without them. -/
theorem splitHostPort_unbracketed {host : Str} (hhost : ']' ∉ host) {port : Option Nat}
    (hport : ∀ n, port = some n → n < 2 ^ 16) :
    splitHostPort (host ++ writtenPort port) = (host, port) ↔ Unbracketable host port := by
  have hnone : bracketedHost (host ++ writtenPort port) = none := by
    refine bracketedHost_eq_none.mpr fun rest hrest hmem ↦ ?_
    have hmem' : ']' ∈ host ++ writtenPort port :=
      mem_of_mem_trim (hrest ▸ List.mem_cons_of_mem _ hmem)
    rw [List.mem_append] at hmem'
    rcases hmem' with h | h
    · exact hhost h
    · cases port with
      | none => cases h
      | some n =>
          rw [writtenPort, List.mem_cons] at h
          rcases h with h | h
          · cases h
          · exact not_mem_dec (by decide) n h
  rw [splitHostPort_eq, hnone, Option.getD_none]
  cases port with
  | none =>
      rw [writtenPort, List.append_nil, Unbracketable]
      by_cases hlooks : ∃ h n, HostAndPort (trim host) h n
      · obtain ⟨h, n, hhp⟩ := hlooks
        rw [splitPlain_of_hostAndPort hhp]
        constructor
        · intro heq
          cases (Prod.mk.inj heq).2
        · rintro ⟨htrim, hnot⟩
          exact absurd (htrim ▸ hhp) (hnot h n)
      · have hnot : ∀ h n, ¬ HostAndPort (trim host) h n := fun h n hhp ↦ hlooks ⟨h, n, hhp⟩
        rw [splitPlain_of_not hnot]
        constructor
        · intro heq
          have htrim := (Prod.mk.inj heq).1
          exact ⟨htrim, htrim ▸ hnot⟩
        · rintro ⟨htrim, -⟩
          rw [htrim]
  | some n =>
      rw [trim_append_port, Unbracketable, writtenPort]
      by_cases hcolon : ':' ∈ trimStart host
      · have hnot : ∀ h m, ¬ HostAndPort (trimStart host ++ ':' :: dec n) h m := by
          rintro h m ⟨p, heq, hh, hp, -⟩
          have hsplit := rsplitAt_append_cons (trimStart host) (not_mem_dec (c := ':') (by decide) n)
          rw [heq, rsplitAt_append_cons h hp] at hsplit
          obtain ⟨rfl, -⟩ := Prod.mk.inj (Option.some.inj hsplit)
          exact hh hcolon
        rw [splitPlain_of_not hnot]
        constructor
        · intro heq
          cases (Prod.mk.inj heq).2
        · rintro ⟨htrim, hnot⟩
          exact absurd (htrim ▸ hcolon) hnot
      · rw [splitPlain_of_hostAndPort
          ⟨dec n, rfl, hcolon, not_mem_dec (by decide) n, parseU16_dec (hport n rfl)⟩]
        constructor
        · intro heq
          have htrim := (Prod.mk.inj heq).1
          exact ⟨htrim, htrim ▸ hcolon⟩
        · rintro ⟨htrim, -⟩
          rw [htrim]

/-! ## Parameters -/

/-- A parameter as it is written, without the semicolon. -/
def paramText : Param → Str
  | (k, some v) => k ++ '=' :: v
  | (k, none) => k

/-- A parameter that is read back. -/
structure LegibleParam (p : Param) : Prop where
  clean : ∀ c ∈ paramText p, c ≠ ',' ∧ c ≠ ';'
  trimmed : trim (paramText p) = paramText p
  nonempty : paramText p ≠ []
  parse : parseParam (paramText p) = p

theorem showParam_eq (p : Param) : showParam p = ';' :: paramText p := by
  obtain ⟨k, v⟩ := p
  cases v with
  | none => rfl
  | some v => rfl

theorem flatMap_showParam {ps : List Param} (hne : ps ≠ []) :
    ps.flatMap showParam = ';' :: [';'].intercalate (ps.map paramText) := by
  induction ps with
  | nil => exact absurd rfl hne
  | cons p ps ih =>
      rw [List.flatMap_cons, showParam_eq]
      cases ps with
      | nil => simp
      | cons q qs =>
          rw [ih (List.cons_ne_nil q qs), List.map_cons, List.map_cons, List.map_cons,
            List.intercalate_cons_cons]
          simp

/-- The pieces between the semicolons, as parameters. -/
def readParams (s : Str) : List Param :=
  (((s.splitOn ';').map trim).filter (· != [])).map parseParam

theorem readParams_intercalate {ps : List Param} (hne : ps ≠ []) (h : ∀ p ∈ ps, LegibleParam p) :
    readParams ([';'].intercalate (ps.map paramText)) = ps := by
  have hsplit : ([';'].intercalate (ps.map paramText)).splitOn ';' = ps.map paramText := by
    refine List.splitOn_intercalate ';' (fun text htext ↦ ?_) (by simpa using hne)
    obtain ⟨p, hp, rfl⟩ := List.mem_map.mp htext
    exact fun hmem ↦ ((h p hp).clean ';' hmem).2 rfl
  have htrim : (ps.map paramText).map trim = ps.map paramText := by
    rw [List.map_map]
    exact List.map_congr_left fun p hp ↦ (h p hp).trimmed
  have hfilter : (ps.map paramText).filter (· != []) = ps.map paramText := by
    rw [List.filter_eq_self]
    intro text htext
    obtain ⟨p, hp, rfl⟩ := List.mem_map.mp htext
    simpa using (h p hp).nonempty
  have hparse : ps.map (parseParam ∘ paramText) = ps.map id :=
    List.map_congr_left fun p hp ↦ (h p hp).parse
  rw [readParams, hsplit, htrim, hfilter, List.map_map, hparse, List.map_id]

/-- What was read is legible: the pieces are trimmed, and letter case is gone. -/
theorem legibleParam_parseParam {t : Str} (hclean : ∀ c ∈ t, c ≠ ',' ∧ c ≠ ';') (htrim : trim t = t)
    (hne : t ≠ []) : LegibleParam (parseParam t) := by
  have hlower {k : Str} (hk : ∀ c ∈ k, c ≠ ',' ∧ c ≠ ';') : ∀ c ∈ lower k, c ≠ ',' ∧ c ≠ ';' := by
    intro c hc
    constructor
    · rintro rfl
      exact (hk _ ((mem_lower_iff (by decide)).mp hc)).1 rfl
    · rintro rfl
      exact (hk _ ((mem_lower_iff (by decide)).mp hc)).2 rfl
  rw [parseParam]
  cases hsplit : splitAt '=' t with
  | none =>
      have hnot : '=' ∉ lower t := by
        rw [mem_lower_iff (by decide)]
        exact not_mem_of_splitAt hsplit
      exact
        { clean := hlower hclean
          trimmed := by rw [paramText, trim_lower, htrim]
          nonempty := by simpa [paramText, lower] using hne
          parse := by rw [paramText, parseParam, splitAt_eq_none hnot, lower_lower] }
  | some kv =>
      obtain ⟨k, v⟩ := kv
      obtain ⟨rfl, hk⟩ := eq_of_splitAt hsplit
      have hkv := List.forall_mem_append.mp hclean
      have hstart : trimStart k = k := by
        have h := trimStart_trim (k ++ '=' :: v)
        rw [htrim, trimStart_append_cons k v (by decide)] at h
        exact List.append_cancel_right h
      have hend : trimEnd v = v := by
        have h := trimEnd_trim (k ++ '=' :: v)
        rw [htrim, trimEnd_append_cons k v (by decide)] at h
        exact (List.cons.inj (List.append_cancel_left h)).2
      have hnot : '=' ∉ lower k := by
        rwa [mem_lower_iff (by decide)]
      exact
        { clean := List.forall_mem_append.mpr ⟨hlower hkv.1, hkv.2⟩
          trimmed := by
            rw [paramText, trim_append_cons _ _ (by decide), trimStart_lower, hstart, hend]
          nonempty := by simp [paramText]
          parse := by
            rw [paramText, parseParam, splitAt_append_cons hnot]
            dsimp only
            rw [lower_lower] }

theorem legibleParam_of_mem {s : Str} (hs : ',' ∉ s) {p : Param} (hp : p ∈ readParams s) :
    LegibleParam p := by
  obtain ⟨t, ht, rfl⟩ := List.mem_map.mp hp
  obtain ⟨ht, hne⟩ := List.mem_filter.mp ht
  obtain ⟨piece, hpiece, rfl⟩ := List.mem_map.mp ht
  obtain ⟨hsemi, hsub⟩ := not_mem_of_mem_splitOn hpiece
  refine legibleParam_parseParam (fun c hc ↦ ?_) (trim_trim piece) (by simpa using hne)
  have hmem := mem_of_mem_trim hc
  constructor
  · rintro rfl
    exact hs (hsub hmem)
  · rintro rfl
    exact hsemi hmem

theorem trimEnd_params {ps : List Param} (h : ∀ p ∈ ps, LegibleParam p) :
    trimEnd ([';'].intercalate (ps.map paramText)) = [';'].intercalate (ps.map paramText) := by
  refine trimEnd_intercalate fun text htext ↦ ?_
  obtain ⟨p, hp, rfl⟩ := List.mem_map.mp htext
  refine ⟨(h p hp).nonempty, ?_⟩
  rw [← (h p hp).trimmed]
  exact trimEnd_trim _

/-! ## One value -/

theorem splitHostPort_subset (s : Str) : (splitHostPort s).1 ⊆ s := by
  have htrim : trim s ⊆ s := fun c ↦ mem_of_mem_trim
  rw [splitHostPort_eq]
  cases hb : bracketedHost s with
  | none =>
      rw [Option.getD_none, splitPlain]
      split
      · rename_i h p hsplit
        obtain ⟨heq, -⟩ := eq_of_rsplitAt hsplit
        split
        · exact htrim
        · split
          · exact fun c hc ↦ htrim (heq ▸ List.mem_append_left _ hc)
          · exact htrim
      · exact htrim
  | some hp =>
      obtain ⟨rest, hrest, hmap⟩ := Option.bind_eq_some_iff.mp hb
      obtain ⟨⟨host, after⟩, hsplit, rfl⟩ := Option.map_eq_some_iff.mp hmap
      obtain ⟨rfl, -⟩ := eq_of_splitAt hsplit
      rw [stripPrefix] at hrest
      split at hrest
      · intro c hc
        have hmem : c ∈ (trim s).drop ['['].length := by
          rw [Option.some.inj hrest]
          exact List.mem_append_left _ hc
        exact htrim (List.mem_of_mem_drop hmem)
      · cases hrest

theorem cut_fst (c : Char) (s : Str) : (Uri.cut c s).1 = before c s := by
  rw [Uri.cut]
  cases hsplit : splitAt c s with
  | none => exact (before_of_not_mem (not_mem_of_splitAt hsplit)).symm
  | some ab =>
      obtain ⟨a, b⟩ := ab
      obtain ⟨rfl, ha⟩ := eq_of_splitAt hsplit
      exact (before_append_cons b ha).symm

theorem cut_snd_subset (c : Char) (s : Str) : ((Uri.cut c s).2).getD [] ⊆ s := by
  rw [Uri.cut]
  cases hsplit : splitAt c s with
  | none => simp
  | some ab =>
      obtain ⟨a, b⟩ := ab
      obtain ⟨rfl, -⟩ := eq_of_splitAt hsplit
      intro x hx
      exact List.mem_append_right a (List.mem_cons_of_mem c hx)

namespace Via

/-- What is read when a value has been cut at its first white space. -/
def ofParts (proto rest : Str) : Via where
  protocol := proto
  host := (splitHostPort (before ';' rest)).1
  port := (splitHostPort (before ';' rest)).2
  params := readParams (((Uri.cut ';' rest).2).getD [])

theorem parse_eq (s : Str) :
    parse s = (splitOnce isWhitespace (trim (before ',' s))).map fun pr ↦ ofParts pr.1 (trim pr.2) := by
  rw [parse]
  cases splitOnce isWhitespace (trim (before ',' s)) with
  | none => rfl
  | some pr =>
      have htrim (b : Prop) [Decidable b] (t : Str) :
          splitHostPort (if b then trim t else t) = splitHostPort t := by
        split
        · exact splitHostPort_trim t
        · rfl
      have hhost := htrim ((Uri.cut ';' (trim pr.2)).2.isSome = true) (before ';' (trim pr.2))
      rw [← cut_fst] at hhost
      rw [Option.map_some, ofParts, ← cut_fst, ← hhost]
      rfl

/-- A Via that is read back but for its host and port. -/
structure Legible (v : Via) : Prop where
  protocol : v.protocol ≠ [] ∧ ∀ c ∈ v.protocol, isWhitespace c = false ∧ c ≠ ','
  host : ∀ c ∈ v.host, c ≠ ',' ∧ c ≠ ';'
  params : ∀ p ∈ v.params, LegibleParam p

theorem legible_of_parse {s : Str} {v : Via} (h : parse s = some v) : v.Legible := by
  rw [parse_eq] at h
  obtain ⟨⟨proto, rest⟩, hsplit, rfl⟩ := Option.map_eq_some_iff.mp h
  obtain ⟨c, hc, heq, hproto⟩ := eq_of_splitOnce hsplit
  have hcomma : ∀ x ∈ trim (before ',' s), x ≠ ',' := by
    rintro x hx rfl
    exact not_mem_before ',' s (mem_of_mem_trim hx)
  have hrest : ∀ x ∈ trim rest, x ≠ ',' := fun x hx ↦
    hcomma x (heq ▸ List.mem_append_right _ (List.mem_cons_of_mem c (mem_of_mem_trim hx)))
  refine ⟨⟨?_, fun x hx ↦ ⟨hproto x hx, hcomma x (heq ▸ List.mem_append_left _ hx)⟩⟩, ?_, ?_⟩
  · rintro rfl
    rcases trim_cases (before ',' s) with hnil | ⟨⟨d, t, hd, hstart⟩, -⟩
    · rw [hnil] at heq
      cases heq
    · rw [hstart] at heq
      obtain ⟨rfl, -⟩ := List.cons.inj heq
      rw [hd] at hc
      cases hc
  · intro x hx
    have hx := splitHostPort_subset _ hx
    refine ⟨hrest x ((List.takeWhile_sublist _).subset hx), ?_⟩
    rintro rfl
    exact not_mem_before ';' _ hx
  · intro p hp
    refine legibleParam_of_mem (fun hmem ↦ ?_) hp
    exact hrest ',' (cut_snd_subset ';' _ hmem) rfl

theorem show_eq (v : Via) :
    v.show = v.protocol ++ ' ' :: (v.host ++ writtenPort v.port ++ v.params.flatMap showParam) := by
  rw [«show»]
  cases v.port with
  | none => simp [writtenPort]
  | some p => simp [writtenPort]

theorem writtenPort_clean (port : Option Nat) : ∀ c ∈ writtenPort port, c ≠ ',' ∧ c ≠ ';' := by
  intro c hc
  cases port with
  | none => cases hc
  | some n =>
      rw [writtenPort, List.mem_cons] at hc
      rcases hc with rfl | hc
      · decide
      · constructor
        · rintro rfl
          exact not_mem_dec (by decide) n hc
        · rintro rfl
          exact not_mem_dec (by decide) n hc

/-- A value is written without a comma, so that a list of them can be taken apart. -/
theorem Legible.comma_not_mem_show {v : Via} (h : v.Legible) : ',' ∉ v.show := by
  have hparams : ',' ∉ v.params.flatMap showParam := by
    intro hmem
    obtain ⟨p, hp, hc⟩ := List.mem_flatMap.mp hmem
    rw [showParam_eq, List.mem_cons] at hc
    rcases hc with hc | hc
    · cases hc
    · exact ((h.params p hp).clean _ hc).1 rfl
  rw [show_eq]
  simp only [List.mem_append, List.mem_cons, not_or]
  exact ⟨fun hc ↦ (h.protocol.2 _ hc).2 rfl, by decide, ⟨fun hc ↦ (h.host _ hc).1 rfl,
    fun hc ↦ (writtenPort_clean v.port _ hc).1 rfl⟩, hparams⟩

/-- What is read back. -/
theorem parse_show {v : Via} (h : v.Legible) (hne : v.params ≠ []) :
    parse v.show = some { v with
      host := (splitHostPort (v.host ++ writtenPort v.port)).1
      port := (splitHostPort (v.host ++ writtenPort v.port)).2 } := by
  have hcomma := h.comma_not_mem_show
  obtain ⟨⟨hproto, hprotoChars⟩, hhost, hparams⟩ := h
  have hsemi : ';' ∉ trimStart (v.host ++ writtenPort v.port) := fun hmem ↦
    (List.forall_mem_append.mpr ⟨hhost, writtenPort_clean v.port⟩ ';'
      ((List.dropWhile_sublist _).subset hmem)).2 rfl
  set texts := [';'].intercalate (v.params.map paramText) with htexts
  have hshow : v.show = v.protocol ++ ' ' :: (v.host ++ writtenPort v.port ++ ';' :: texts) := by
    rw [show_eq, flatMap_showParam hne]
  have htrim : trim v.show = v.show := by
    have hassoc : v.protocol ++ ' ' :: (v.host ++ writtenPort v.port ++ ';' :: texts) =
        (v.protocol ++ ' ' :: (v.host ++ writtenPort v.port)) ++ ';' :: texts := by simp
    rw [hshow, hassoc, trim_append_cons _ texts (by decide), htexts, trimEnd_params hparams]
    cases hp : v.protocol with
    | nil => exact absurd hp hproto
    | cons c proto =>
        have hc : isWhitespace c = false := (hprotoChars c (hp ▸ List.mem_cons_self)).1
        rw [List.cons_append, trimStart_cons hc]
  rw [parse_eq, before_of_not_mem hcomma, htrim, hshow,
    splitOnce_append (fun c hc ↦ (hprotoChars c hc).1) (by decide), Option.map_some]
  have hrest : trim (v.host ++ writtenPort v.port ++ ';' :: texts) =
      trimStart (v.host ++ writtenPort v.port) ++ ';' :: texts := by
    rw [trim_append_cons _ texts (by decide), htexts, trimEnd_params hparams]
  have hbefore : before ';' (trimStart (v.host ++ writtenPort v.port) ++ ';' :: texts) =
      trimStart (v.host ++ writtenPort v.port) := before_append_cons texts hsemi
  have hcut : (Uri.cut ';' (trimStart (v.host ++ writtenPort v.port) ++ ';' :: texts)).2 = some texts := by
    rw [Uri.cut, splitAt_append_cons hsemi]
  have hhost : splitHostPort (trimStart (v.host ++ writtenPort v.port)) =
      splitHostPort (v.host ++ writtenPort v.port) := by
    rw [← splitHostPort_trim (trimStart _), trim, trimStart_trimStart, ← trim, splitHostPort_trim]
  rw [ofParts, hrest, hbefore, hcut, hhost, Option.getD_some, htexts,
    readParams_intercalate hne hparams]

theorem legible_setParam {v : Via} (h : v.Legible) {name value : Str} (hp : LegibleParam (name, some value)) :
    (v.setParam name (some value)).Legible := by
  refine ⟨h.protocol, h.host, fun p hmem ↦ ?_⟩
  rcases List.mem_append.mp hmem with hmem | hmem
  · exact h.params p (List.mem_filter.mp hmem).1
  · rwa [List.mem_singleton.mp hmem]

theorem legibleParam_of_token {name value : Str} (hname : parseParam (name ++ '=' :: value) = (name, some value))
    (hchars : ∀ c ∈ name ++ '=' :: value, isWhitespace c = false ∧ c ≠ ',' ∧ c ≠ ';') :
    LegibleParam (name, some value) where
  clean c hc := (hchars c hc).2
  trimmed := trim_eq_self fun c hc ↦ (hchars c hc).1
  nonempty := by simp [paramText]
  parse := hname

theorem legible_reflected {v : Via} (h : v.Legible) (src : SocketAddr) : (v.reflected src).Legible := by
  have hdigit (n : Nat) : isWhitespace (Nat.digitChar n) = false ∧ Nat.digitChar n ≠ ',' ∧
      Nat.digitChar n ≠ ';' :=
    forall_digitChar (p := fun c ↦ isWhitespace c = false ∧ c ≠ ',' ∧ c ≠ ';') (by decide) (by decide) n
  have hreceived : LegibleParam ("received", some src.ip.show) := by
    refine legibleParam_of_token ?_ ?_
    · rw [parseParam, splitAt_append_cons (by decide)]
      rfl
    · rw [List.forall_mem_append, List.forall_mem_cons]
      exact ⟨by decide, by decide, IpAddr.forall_mem_show hdigit (by decide) (by decide) src.ip⟩
  have hrport : LegibleParam ("rport", some (dec src.port)) := by
    refine legibleParam_of_token ?_ ?_
    · rw [parseParam, splitAt_append_cons (by decide)]
      rfl
    · rw [List.forall_mem_append, List.forall_mem_cons]
      exact ⟨by decide, by decide, forall_mem_toDigits hdigit 10 src.port⟩
  rw [reflected]
  split
  · exact legible_setParam (legible_setParam h hreceived) hrport
  · exact legible_setParam h hreceived

@[simp] theorem reflected_host (v : Via) (src : SocketAddr) : (v.reflected src).host = v.host := by
  rw [reflected]
  split <;> rfl

@[simp] theorem reflected_port (v : Via) (src : SocketAddr) : (v.reflected src).port = v.port := by
  rw [reflected]
  split <;> rfl

theorem reflected_params_ne_nil (v : Via) (src : SocketAddr) : (v.reflected src).params ≠ [] := by
  have hput (ps : List Param) (name : Str) (value : Option Str) : putParam ps name value ≠ [] := by
    simp [putParam]
  rw [reflected]
  split
  · exact hput _ _ _
  · exact hput _ _ _

/-- The host stood in brackets, or it is read again. -/
theorem host_of_parse {s : Str} {v : Via} (h : parse s = some v) :
    (bracketed s = some (v.host, v.port) ∧ ']' ∉ v.host ∧ ∀ n, v.port = some n → n < 2 ^ 16) ∨
      (bracketed s = none ∧ splitHostPort (v.host ++ writtenPort v.port) = (v.host, v.port)) := by
  rw [parse_eq] at h
  obtain ⟨⟨proto, rest⟩, hsplit, rfl⟩ := Option.map_eq_some_iff.mp h
  have hb : bracketed s = bracketedHost (before ';' (trim rest)) := by
    rw [bracketed, hsplit]
    rfl
  rw [hb, ofParts]
  cases hhost : bracketedHost (before ';' (trim rest)) with
  | none => exact .inr ⟨rfl, splitHostPort_written hhost⟩
  | some hp =>
      obtain ⟨host, port⟩ := hp
      rw [splitHostPort_eq, hhost, Option.getD_some]
      exact .inl ⟨rfl, bracketedHost_eq_some hhost⟩

/-- The value comes back as it was, with the source reflected, when its host can do without the
brackets that it has. -/
theorem parse_show_reflected {s : Str} {v : Via} (h : parse s = some v) (src : SocketAddr) :
    parse (v.reflected src).show = some (v.reflected src) ↔
      ∀ host port, bracketed s = some (host, port) → Unbracketable host port := by
  have hback := parse_show (legible_reflected (legible_of_parse h) src) (reflected_params_ne_nil v src)
  rw [reflected_host, reflected_port] at hback
  have hiff : parse (v.reflected src).show = some (v.reflected src) ↔
      splitHostPort (v.host ++ writtenPort v.port) = (v.host, v.port) := by
    rw [hback, Option.some_inj]
    constructor
    · intro heq
      have hhost := congrArg Via.host heq
      have hport := congrArg Via.port heq
      rw [reflected_host] at hhost
      rw [reflected_port] at hport
      exact Prod.ext hhost hport
    · intro heq
      rw [heq, ← reflected_host v src, ← reflected_port v src]
  rw [hiff]
  obtain ⟨hb, hhost, hport⟩ | ⟨hb, heq⟩ := host_of_parse h
  · rw [splitHostPort_unbracketed hhost hport, hb]
    constructor
    · intro hun host port heq
      obtain ⟨rfl, rfl⟩ := Prod.mk.inj (Option.some.inj heq)
      exact hun
    · exact fun hun ↦ hun _ _ rfl
  · rw [hb]
    exact iff_of_true heq (by simp)

end Via

/-! ## The fields -/

namespace Headers

theorem getAll_push (h : Headers) (n v m : Str) :
    (h.push n v).getAll m = h.getAll m ++ if canonical n = canonical m then [v] else [] := by
  rw [getAll, push, List.filter_append, List.map_append]
  by_cases hc : canonical n = canonical m
  · rw [if_pos hc, List.filter_cons_of_pos (by simpa using hc)]
    rfl
  · rw [if_neg hc, List.filter_cons_of_neg (by simpa using hc)]
    rfl

theorem getAll_remove_of_ne (h : Headers) {n m : Str} (hne : canonical n ≠ canonical m) :
    (h.remove n).getAll m = h.getAll m := by
  rw [getAll, remove, List.filter_filter, getAll]
  congr 1
  refine List.filter_congr fun f _ ↦ ?_
  rw [Bool.and_eq_left_iff_imp]
  intro hf
  rw [bne_iff_ne, beq_iff_eq.mp hf]
  exact hne.symm

theorem getAll_set_of_ne (h : Headers) {n m : Str} (hne : canonical n ≠ canonical m) (v : Str) :
    (h.set n v).getAll m = h.getAll m := by
  rw [set, getAll_push, if_neg hne, List.append_nil, getAll_remove_of_ne h hne]

theorem getAll_copyField_of_ne (src dst : Headers) {n m : Str} (hne : canonical n ≠ canonical m) :
    (Request.copyField src n dst).getAll m = dst.getAll m := by
  rw [Request.copyField]
  split
  · exact getAll_set_of_ne dst hne _
  · rfl

theorem getAll_foldl_push (h : Headers) (n m : Str) (vs : List Str) :
    (vs.foldl (fun h v ↦ h.push n v) h).getAll m =
      h.getAll m ++ if canonical n = canonical m then vs else [] := by
  induction vs generalizing h with
  | nil => simp
  | cons v vs ih =>
      rw [List.foldl_cons, ih, getAll_push]
      split <;> simp

theorem get_eq_head?_getAll (h : Headers) (n : Str) : h.get n = (h.getAll n).head? := by
  rw [get, getAll, List.head?_map, List.head?_filter]

theorem getAll_replaceFirst (h : Headers) {n v : Str} {first : Str} {rest : List Str}
    (hall : h.getAll n = first :: rest) : (h.replaceFirst n v).getAll n = v :: rest := by
  obtain ⟨fs⟩ := h
  simp only [replaceFirst, getAll] at hall ⊢
  induction fs with
  | nil => simp at hall
  | cons f fs ih =>
      rw [replaceFirst.go]
      by_cases hf : (f.1 == canonical n) = true
      · rw [List.filter_cons, if_pos hf] at hall
        rw [if_pos hf, List.filter_cons, if_pos hf]
        obtain ⟨-, hrest⟩ := List.cons.inj hall
        rw [List.map_cons, hrest]
      · rw [List.filter_cons, if_neg hf] at hall
        rw [if_neg hf, List.filter_cons, if_neg hf]
        exact ih hall

end Headers

/-- The response starts out with the Via fields of the request. -/
theorem getAll_via_makeResponse (cfg : CoreConfig) (tag : Str) (req : Request) (code : Nat)
    (reason : Option Str) :
    (makeResponse cfg tag req code reason).headers.getAll "via" = req.headers.getAll "via" := by
  have hreply (reason : Str) : (req.reply code reason).headers.getAll "via" = req.headers.getAll "via" := by
    rw [Request.reply]
    dsimp only
    rw [Headers.getAll_copyField_of_ne _ _ (by decide), Headers.getAll_copyField_of_ne _ _ (by decide),
      Headers.getAll_copyField_of_ne _ _ (by decide), Headers.getAll_copyField_of_ne _ _ (by decide),
      Headers.getAll_foldl_push, if_neg (by decide), List.append_nil, Headers.getAll_foldl_push, if_pos rfl]
    rfl
  rw [makeResponse]
  dsimp only
  split
  · split
    · rw [Headers.getAll_set_of_ne _ (by decide), Headers.getAll_set_of_ne _ (by decide), hreply]
    · rw [Headers.getAll_set_of_ne _ (by decide), hreply]
  · rw [Headers.getAll_set_of_ne _ (by decide), hreply]

/-- What `respond` adds besides does not touch the Via fields. -/
theorem getAll_via_complete (cfg : ServerConfig) (req : Request) (src : SocketAddr) (resp : Response) :
    (Server.complete cfg req src resp).headers.getAll "via" =
      (Server.annotateVia src resp.headers).getAll "via" := by
  rw [Server.complete]
  dsimp only
  split
  · exact Headers.getAll_set_of_ne _ (by decide) _
  · rfl

/-! ## The list -/

theorem before_before (c : Char) (s : Str) : before c (before c s) = before c s :=
  before_of_not_mem (not_mem_before c s)

theorem bracketed_of_parse_eq_none {s : Str} (h : Via.parse s = none) : bracketed s = none := by
  rw [Via.parse_eq, Option.map_eq_none_iff] at h
  rw [bracketed, h]
  rfl

/-- A field is its first value, and the others behind a comma. -/
theorem splitOn_cut (field : Str) :
    field.splitOn ',' = before ',' field :: match (Uri.cut ',' field).2 with
      | some rest => rest.splitOn ','
      | none => [] := by
  rw [← cut_fst, Uri.cut]
  cases hsplit : splitAt ',' field with
  | none => exact List.splitOn_eq_singleton (not_mem_of_splitAt hsplit)
  | some ab =>
      obtain ⟨a, b⟩ := ab
      obtain ⟨rfl, ha⟩ := eq_of_splitAt hsplit
      exact List.splitOn_append_cons_self_of_not_mem ha b

/-- The annotated field, value by value. -/
theorem splitOn_annotated {v : Via} (h : v.Legible) (rest : Option Str) :
    (v.show ++ match rest with | some rest => ',' :: rest | none => []).splitOn ',' =
      v.show :: match rest with
        | some rest => rest.splitOn ','
        | none => [] := by
  cases rest with
  | none =>
      rw [List.append_nil]
      exact List.splitOn_eq_singleton h.comma_not_mem_show
  | some rest => exact List.splitOn_append_cons_self_of_not_mem h.comma_not_mem_show rest

theorem parse_first (field : Str) : Via.parse (before ',' field) = Via.parse field := by
  rw [Via.parse_eq, Via.parse_eq, before_before]

/-- What `respond` does to the topmost field. -/
theorem annotateVia_eq (src : SocketAddr) {headers : Headers} {field : Str}
    (hget : headers.get "via" = some field) :
    Server.annotateVia src headers = match Via.parse field with
      | none => headers
      | some via => headers.replaceFirst "via" ((via.reflected src).show ++
          match (Uri.cut ',' field).2 with | some rest => ',' :: rest | none => []) := by
  rw [Server.annotateVia, hget, ← parse_first, ← cut_fst]
  rfl

theorem getAll_annotateVia (src : SocketAddr) (headers : Headers) :
    (Server.annotateVia src headers).getAll "via" = writtenVias src (headers.getAll "via") := by
  cases hall : headers.getAll "via" with
  | nil =>
      have hnone : headers.get "via" = none := by
        rw [Headers.get_eq_head?_getAll, hall]
        rfl
      rw [Server.annotateVia, hnone]
      exact hall
  | cons field fields =>
      have hfield : headers.get "via" = some field := by
        rw [Headers.get_eq_head?_getAll, hall]
        rfl
      rw [annotateVia_eq src hfield, writtenVias]
      split
      · exact hall
      · rw [Headers.getAll_replaceFirst headers hall]

/-- Before the control characters are taken out, the values are those of the request if and only if
the host of the topmost one can do without the brackets that it has. -/
theorem parse_writtenVias (req : Request) (src : SocketAddr) :
    ((writtenVias src (req.headers.getAll "via")).flatMap fun field ↦ field.splitOn ',').map Via.parse =
        reflectTop src ((viaValues req.headers).map Via.parse) ↔ TopUnbracketable req := by
  rw [viaValues, TopUnbracketable]
  cases hall : req.headers.getAll "via" with
  | nil =>
      have hnone : req.headers.get "via" = none := by
        rw [Headers.get_eq_head?_getAll, hall]
        rfl
      rw [hnone]
      simp [reflectTop, writtenVias]
  | cons field fields =>
      have hfield : req.headers.get "via" = some field := by
        rw [Headers.get_eq_head?_getAll, hall]
        rfl
      rw [hfield]
      have htop : (∀ field' host port, some field = some field' → bracketed field' = some (host, port) →
          Unbracketable host port) ↔
          ∀ host port, bracketed field = some (host, port) → Unbracketable host port := by
        constructor
        · exact fun h host port ↦ h field host port rfl
        · rintro h field' host port heq
          rw [← Option.some.inj heq]
          exact h host port
      rw [htop, List.flatMap_cons, splitOn_cut field, writtenVias]
      cases hvia : Via.parse field with
      | none =>
          dsimp only
          rw [List.flatMap_cons, splitOn_cut field, List.cons_append, List.map_cons, parse_first,
            hvia, bracketed_of_parse_eq_none hvia]
          exact iff_of_true rfl (by simp)
      | some via =>
          have hlegible := Via.legible_reflected (Via.legible_of_parse hvia) src
          dsimp only
          rw [List.flatMap_cons, splitOn_annotated hlegible, List.cons_append, List.cons_append,
            List.map_cons, List.map_cons, parse_first, hvia, reflectTop,
            ← Via.parse_show_reflected hvia src]
          simp

/-! ## On the wire -/

/-- The fields of a response have names that can be sent. -/
def Named (h : Headers) : Prop := ∀ f ∈ h.fields, Token f.1

namespace Named

variable {h : Headers}

theorem push (hn : Named h) {n : Str} (ht : Token (canonical n)) (v : Str) : Named (h.push n v) :=
  List.forall_mem_append.mpr ⟨hn, List.forall_mem_singleton.mpr ht⟩

theorem set (hn : Named h) {n : Str} (ht : Token (canonical n)) (v : Str) : Named (h.set n v) :=
  push (fun f hf ↦ hn f (List.mem_filter.mp hf).1) ht v

theorem copyField (hn : Named h) {n : Str} (ht : Token (canonical n)) (src : Headers) :
    Named (Request.copyField src n h) := by
  rw [Request.copyField]
  split
  · exact hn.set ht _
  · exact hn

theorem foldl_push (hn : Named h) {n : Str} (ht : Token (canonical n)) (vs : List Str) :
    Named (vs.foldl (fun h v ↦ h.push n v) h) := by
  induction vs generalizing h with
  | nil => exact hn
  | cons v vs ih => exact ih (hn.push ht v)

theorem replaceFirst (hn : Named h) {n : Str} (ht : Token (canonical n)) (v : Str) :
    Named (h.replaceFirst n v) := by
  obtain ⟨fs⟩ := h
  unfold Headers.replaceFirst
  unfold Named at hn ⊢
  dsimp only at hn ⊢
  induction fs with
  | nil => exact List.forall_mem_singleton.mpr ht
  | cons f fs ih =>
      obtain ⟨hf, hfs⟩ := List.forall_mem_cons.mp hn
      rw [Headers.replaceFirst.go]
      split
      · exact List.forall_mem_cons.mpr ⟨hf, hfs⟩
      · exact List.forall_mem_cons.mpr ⟨hf, ih hfs⟩

theorem makeResponse (cfg : CoreConfig) (tag : Str) (req : Request) (code : Nat) (reason : Option Str) :
    Named (makeResponse cfg tag req code reason).headers := by
  have hvia : Token (canonical "via") := ⟨by decide, by decide, by decide⟩
  have hroute : Token (canonical "record-route") := ⟨by decide, by decide, by decide⟩
  have hfrom : Token (canonical "from") := ⟨by decide, by decide, by decide⟩
  have hto : Token (canonical "to") := ⟨by decide, by decide, by decide⟩
  have hid : Token (canonical "call-id") := ⟨by decide, by decide, by decide⟩
  have hcseq : Token (canonical "cseq") := ⟨by decide, by decide, by decide⟩
  have hagent : Token (canonical "user-agent") := ⟨by decide, by decide, by decide⟩
  have hempty : Named .empty := List.forall_mem_nil _
  have hreply (reason : Str) : Named (req.reply code reason).headers :=
    ((((((hempty.foldl_push hvia _).foldl_push hroute _).copyField hfrom _).copyField hto _).copyField
      hid _).copyField hcseq _)
  rw [Sip.makeResponse]
  dsimp only
  split
  · split
    · exact ((hreply _).set hagent _).set hto _
    · exact (hreply _).set hagent _
  · exact (hreply _).set hagent _

theorem complete (cfg : ServerConfig) (req : Request) (src : SocketAddr) {resp : Response}
    (hn : Named resp.headers) : Named (Server.complete cfg req src resp).headers := by
  have hvia : Token (canonical "via") := ⟨by decide, by decide, by decide⟩
  have hcontact : Token (canonical "contact") := ⟨by decide, by decide, by decide⟩
  have hannotated : Named (Server.annotateVia src resp.headers) := by
    unfold Server.annotateVia
    split
    · exact hn
    · dsimp only
      split
      · exact hn
      · exact hn.replaceFirst hvia _
  rw [Server.complete]
  dsimp only
  split
  · exact hannotated.set hcontact _
  · exact hannotated

end Named

/-- A field that is not the length is sent without control characters, and read without white space
around it. -/
theorem getAll_onWire (h : Headers) (len : Nat) {n : Str} (hn : canonical n ≠ "content-length") :
    (h.onWire len).getAll n = (h.getAll n).map fun v ↦ trim (headerSafe v) := by
  have hlength : ([("content-length", dec len)] : List (Str × Str)).filter (fun f ↦ f.1 == canonical n) = [] := by
    refine List.filter_eq_nil_iff.mpr ?_
    intro f hf heq
    rw [List.mem_singleton.mp hf] at heq
    exact hn (beq_iff_eq.mp heq).symm
  have htail : (if h.fields.any (·.1 == "content-length") then []
      else [(("content-length" : Str), dec len)]).filter (fun f ↦ f.1 == canonical n) = [] := by
    split
    · rfl
    · exact hlength
  rw [Headers.getAll, Headers.onWire, List.filter_append, htail, List.append_nil, Headers.getAll]
  induction h.fields with
  | nil => rfl
  | cons f fs ih =>
      have hname : (fieldOnWire len f).1 = f.1 := by
        unfold fieldOnWire
        split
        · rfl
        · rfl
      rw [List.map_cons, List.filter_cons, List.filter_cons, hname]
      split
      · rename_i hf
        have hne : f.1 ≠ "content-length" := fun h ↦ hn ((beq_iff_eq.mp hf).symm.trans h)
        rw [List.map_cons, List.map_cons, List.map_cons, ih, fieldOnWire, if_neg hne]
      · exact ih

theorem parse_of_trim_eq {a b : Str} (ha : ',' ∉ a) (hb : ',' ∉ b) (h : trim a = trim b) :
    Via.parse a = Via.parse b := by
  rw [Via.parse_eq, Via.parse_eq, before_of_not_mem ha, before_of_not_mem hb, h]

/-- The values are read alike without the white space around the field. -/
theorem parse_splitOn_trim (field : Str) :
    ((trim field).splitOn ',').map Via.parse = (field.splitOn ',').map Via.parse := by
  have htrim {s : Str} (hs : ',' ∉ s) : ',' ∉ trim s := fun h ↦ hs (mem_of_mem_trim h)
  have hend (s : Str) : ((trimEnd s).splitOn ',').map Via.parse = (s.splitOn ',').map Via.parse := by
    induction s using cut_induction ',' with
    | last s hs =>
        have hs' : ',' ∉ trimEnd s := fun h ↦ hs ((List.rdropWhile_prefix _ _).sublist.subset h)
        rw [List.splitOn_eq_singleton hs, List.splitOn_eq_singleton hs', List.map_singleton,
          List.map_singleton, parse_of_trim_eq hs' hs (trim_trimEnd s)]
    | cut a b ha ih =>
        rw [trimEnd_append_cons a b (by decide), List.splitOn_append_cons_self_of_not_mem ha,
          List.splitOn_append_cons_self_of_not_mem ha, List.map_cons, List.map_cons, ih]
  rcases Decidable.em (',' ∈ field) with hmem | hnot
  · obtain ⟨a, b, rfl, ha⟩ := List.eq_append_cons_of_mem hmem
    have ha' : ',' ∉ trimStart a := fun h ↦ ha ((List.dropWhile_sublist _).subset h)
    rw [trim_append_cons a b (by decide), List.splitOn_append_cons_self_of_not_mem ha,
      List.splitOn_append_cons_self_of_not_mem ha', List.map_cons, List.map_cons, hend b,
      parse_of_trim_eq ha' ha (congrArg trimEnd (trimStart_trimStart a))]
  · rw [List.splitOn_eq_singleton hnot, List.splitOn_eq_singleton (htrim hnot), List.map_singleton,
      List.map_singleton, parse_of_trim_eq (htrim hnot) hnot (trim_trim field)]

theorem splitOn_filter {c : Char} {p : Char → Bool} (hc : p c = true) (s : Str) :
    (s.filter p).splitOn c = (s.splitOn c).map (·.filter p) := by
  induction s using cut_induction c with
  | last s hs =>
      have hs' : c ∉ s.filter p := fun h ↦ hs (List.mem_filter.mp h).1
      rw [List.splitOn_eq_singleton hs, List.splitOn_eq_singleton hs', List.map_singleton]
  | cut a b ha ih =>
      have ha' : c ∉ a.filter p := fun h ↦ ha (List.mem_filter.mp h).1
      rw [List.filter_append, List.filter_cons_of_pos hc, List.splitOn_append_cons_self_of_not_mem ha,
        List.splitOn_append_cons_self_of_not_mem ha', ih, List.map_cons]

/-- The values of a field as they are read from the wire. -/
theorem parse_sent (field : Str) : ((trim (headerSafe field)).splitOn ',').map Via.parse =
    (field.splitOn ',').map fun value ↦ Via.parse (sentOf field value) := by
  rw [parse_splitOn_trim]
  unfold sentOf
  by_cases hsafe : headerSafe field = field
  · simp only [if_pos hsafe]
    rw [hsafe]
  · simp only [if_neg hsafe]
    have hfilter : headerSafe field = field.filter fun c ↦ !isControl c := by
      unfold headerSafe at hsafe ⊢
      split
      · rfl
      · rename_i hany
        rw [if_neg hany] at hsafe
        exact absurd rfl hsafe
    rw [hfilter, splitOn_filter (by decide), List.map_map]
    rfl

theorem isAlpha_of_isControl {c : Char} (hc : isControl c = true) : c.isAlpha = false := by
  have hall : ∀ n < 0xA0, isControl (Char.ofNat n) = true → (Char.ofNat n).isAlpha = false := by
    decide +kernel
  have hlt : c.toNat < 0xA0 := by
    simp only [isControl, Bool.or_eq_true, Bool.and_eq_true, decide_eq_true_eq] at hc
    omega
  have hsame := hall c.toNat hlt
  rw [Char.ofNat_toNat] at hsame
  exact hsame hc

/-- A control character in what was read was in the text. -/
theorem Via.mem_of_mem_show {s : Str} {v : Via} (h : Via.parse s = some v) {c : Char}
    (hc : isControl c = true) (hmem : c ∈ v.show) : c ∈ s := by
  rw [Via.parse_eq] at h
  obtain ⟨⟨proto, rest⟩, hsplit, rfl⟩ := Option.map_eq_some_iff.mp h
  obtain ⟨d, -, heq, -⟩ := eq_of_splitOnce hsplit
  have hvalue {x : Char} (hx : x ∈ proto ++ d :: rest) : x ∈ s :=
    (List.takeWhile_sublist _).subset (mem_of_mem_trim (heq ▸ hx))
  have hrest {x : Char} (hx : x ∈ trim rest) : x ∈ s :=
    hvalue (List.mem_append_right _ (List.mem_cons_of_mem d (mem_of_mem_trim hx)))
  have hplain {x : Char} (hx : isControl x = false) : c ≠ x := by
    rintro rfl
    exact Bool.noConfusion (hc.symm.trans hx)
  rw [Via.show_eq] at hmem
  simp only [ofParts, List.mem_append, List.mem_cons] at hmem
  rcases hmem with hproto | hspace | (hhost | hport) | hparam
  · exact hvalue (List.mem_append_left _ hproto)
  · exact absurd hspace (hplain (by decide))
  · exact hrest ((List.takeWhile_sublist _).subset (splitHostPort_subset _ hhost))
  · cases hp : (splitHostPort (before ';' (trim rest))).2 with
    | none =>
        rw [hp] at hport
        cases hport
    | some n =>
        rw [hp, writtenPort, List.mem_cons] at hport
        rcases hport with hcolon | hdigit
        · exact absurd hcolon (hplain (by decide))
        · have halpha := isDigit_of_mem_dec hdigit
          have hnum : ∀ x : Char, x.isDigit = true → isControl x = false := by
            intro x hx
            simp only [Char.isDigit, Bool.and_eq_true, decide_eq_true_eq, UInt32.le_iff_toNat_le] at hx
            have hval : x.toNat = x.val.toNat := rfl
            simp at hx
            simp only [isControl, Bool.or_eq_false_iff, Bool.and_eq_false_iff, decide_eq_false_iff_not]
            omega
          exact absurd rfl (hplain (hnum c halpha))
  · obtain ⟨p, hp, hin⟩ := List.mem_flatMap.mp hparam
    obtain ⟨t, ht, rfl⟩ := List.mem_map.mp hp
    obtain ⟨ht, -⟩ := List.mem_filter.mp ht
    obtain ⟨piece, hpiece, rfl⟩ := List.mem_map.mp ht
    refine hrest (cut_snd_subset ';' _ ((not_mem_of_mem_splitOn hpiece).2 (mem_of_mem_trim ?_)))
    rw [showParam_eq, List.mem_cons] at hin
    rcases hin with hsemi | hin
    · exact absurd hsemi (hplain (by decide))
    have hlower {k : Str} : c ∈ lower k ↔ c ∈ k := mem_lower_iff (isAlpha_of_isControl hc)
    rw [parseParam] at hin
    cases hcut : splitAt '=' (trim piece) with
    | none =>
        rw [hcut] at hin
        exact hlower.mp hin
    | some kv =>
        obtain ⟨k, v⟩ := kv
        obtain ⟨heq', -⟩ := eq_of_splitAt hcut
        rw [hcut] at hin
        simp only [paramText, List.mem_append, List.mem_cons] at hin
        rw [heq']
        rcases hin with hk | heqs | hv
        · exact List.mem_append_left _ (hlower.mp hk)
        · exact absurd heqs (hplain (by decide))
        · exact List.mem_append_right _ (List.mem_cons_of_mem _ hv)

/-- If a value is read back from the wire as it was written, it was read back as it was. -/
theorem parse_of_parse_sentOf {field : Str} {v : Via} (h : Via.parse (sentOf field v.show) = some v) :
    sentOf field v.show = v.show := by
  unfold sentOf at h ⊢
  split at h
  · rename_i hsafe
    rw [if_pos hsafe]
  · rename_i hsafe
    rw [if_neg hsafe]
    refine List.filter_eq_self.mpr fun c hmem ↦ ?_
    rw [Bool.not_eq_true', Bool.eq_false_iff]
    intro hc
    have hin := Via.mem_of_mem_show h hc hmem
    simp [hc] at hin

theorem flatMap_map_inj {α β : Type} {P : α → List β} {γ : Type} {f g : α → β → γ} (xs : List α) :
    (xs.flatMap fun x ↦ (P x).map (f x)) = (xs.flatMap fun x ↦ (P x).map (g x)) ↔
      ∀ x ∈ xs, ∀ y ∈ P x, f x y = g x y := by
  induction xs with
  | nil => simp
  | cons x xs ih =>
      rw [List.flatMap_cons, List.flatMap_cons, List.forall_mem_cons, ← ih, ← List.map_inj_left]
      constructor
      · intro h
        exact List.append_inj h (by rw [List.length_map, List.length_map])
      · rintro ⟨h, h'⟩
        rw [h, h']

/-- The values that were sent are those of the request if and only if they were so before, and none
is read otherwise without its control characters. -/
theorem parse_sent_iff (req : Request) (src : SocketAddr) :
    ((writtenVias src (req.headers.getAll "via")).flatMap fun field ↦
        (field.splitOn ',').map fun value ↦ Via.parse (sentOf field value)) =
        reflectTop src ((viaValues req.headers).map Via.parse) ↔
      TopUnbracketable req ∧ ∀ field ∈ writtenVias src (req.headers.getAll "via"), Sendable field := by
  have hsame := flatMap_map_inj (P := fun field : Str ↦ field.splitOn ',')
    (f := fun field value ↦ Via.parse (sentOf field value)) (g := fun _ value ↦ Via.parse value)
    (writtenVias src (req.headers.getAll "via"))
  have hiff := parse_writtenVias req src
  rw [List.map_flatMap] at hiff
  constructor
  · intro h
    have htop : TopUnbracketable req := by
      intro field host port hfield hbracketed
      cases hvia : Via.parse field with
      | none =>
          rw [bracketed_of_parse_eq_none hvia] at hbracketed
          cases hbracketed
      | some via =>
          refine (Via.parse_show_reflected hvia src).mp ?_ host port hbracketed
          rw [Headers.get_eq_head?_getAll] at hfield
          obtain ⟨fields, hall⟩ := List.head?_eq_some_iff.mp hfield
          have hlegible := Via.legible_reflected (Via.legible_of_parse hvia) src
          rw [viaValues, hall, writtenVias, hvia] at h
          dsimp only at h
          rw [List.flatMap_cons, List.flatMap_cons, splitOn_annotated hlegible, splitOn_cut field,
            List.cons_append, List.map_cons, List.map_cons, List.cons_append, parse_first, hvia,
            reflectTop] at h
          have hback := (List.cons.inj h).1
          rw [Option.map_some] at hback
          rw [← hback]
          exact congrArg Via.parse (parse_of_parse_sentOf hback).symm
    exact ⟨htop, hsame.mp (h.trans (hiff.mpr htop).symm)⟩
  · rintro ⟨htop, hsendable⟩
    exact (hsame.mpr hsendable).trans (hiff.mpr htop)

/-- A response that is sent carries the Via list of the request if and only if the host of the topmost
value can do without the brackets that it has, and no value needs the control characters in it. -/
theorem viasCarried_iff {toUppercase : Char → Str}
    (hupper : ∀ c, c.toNat < 128 → toUppercase c = [c.toUpper]) (cfg : ServerConfig) (tag : Str)
    (req : Request) {code : Nat} (hcode : code < 2 ^ 16) (reason : Option Str) (src : SocketAddr) :
    ViasCarried req src ((Server.complete cfg req src
        (makeResponse cfg.toCoreConfig tag req code reason)).encode toUppercase) ↔
      TopUnbracketable req ∧ ∀ field ∈ writtenVias src (req.headers.getAll "via"), Sendable field := by
  rw [← parse_sent_iff]
  set resp := Server.complete cfg req src (makeResponse cfg.toCoreConfig tag req code reason) with hresp
  have hnames : Named resp.headers := .complete cfg req src (.makeResponse cfg.toCoreConfig tag req code reason)
  have hparse : Message.parse (resp.encode toUppercase) = some (Message.response resp).onWire :=
    parse_encode (m := .response resp) hupper hcode hnames
  have hvias : resp.headers.getAll "via" = writtenVias src (req.headers.getAll "via") := by
    rw [hresp, getAll_via_complete, getAll_annotateVia, getAll_via_makeResponse]
  have hvalues : (viaValues (Message.response resp).onWire.headers).map Via.parse =
      (writtenVias src (req.headers.getAll "via")).flatMap fun field ↦
        (field.splitOn ',').map fun value ↦ Via.parse (sentOf field value) := by
    rw [viaValues, ← hvias]
    change ((((resp.headers.onWire resp.body.length).getAll "via").flatMap fun field ↦
      field.splitOn ',').map Via.parse) = _
    rw [getAll_onWire _ _ (by decide), List.flatMap_map, List.map_flatMap]
    exact List.flatMap_congr fun field _ ↦ parse_sent field
  rw [ViasCarried, hparse, ← hvalues]
  constructor
  · rintro ⟨m, hm, h⟩
    obtain rfl := Option.some.inj hm
    exact h
  · exact fun h ↦ ⟨_, rfl, h⟩

/-! ## An IPv6 proxy -/

/-- A request over a proxy that names itself by an IPv6 address and a port. -/
def overIpv6 : Request where
  method := .invite
  uri := Uri.new (some "+8210") "gw" none
  headers := ⟨[("via", "SIP/2.0/UDP [2001:db8::5]:5060;branch=z9hG4bK1;rport")]⟩
  body := []

/-- A gateway without frills. -/
def plainGateway : ServerConfig where
  auth := none
  domain := none
  userAgent := "modem2sip"
  transport :=
    { bound := ⟨.v4 (ofOctets 192 0 2 1), 5060⟩, publicIp := none, localIpFor := fun _ ↦ none }
  secret := []
  allow := []
  optionsReflectModem := false
  retryAfterSecs := 30

/-- Its host comes back with the port in it. -/
theorem via_of_ipv6_not_carried :
    ¬ ∀ (cfg : ServerConfig) (tag : Str) (req : Request) (code : Nat) (reason : Option Str)
        (src : SocketAddr), ViasCarried req src ((Server.complete cfg req src
          (makeResponse cfg.toCoreConfig tag req code reason)).encode fun c ↦ [c.toUpper]) := by
  intro h
  have hcarried := h plainGateway [] overIpv6 200 none ⟨.v4 (ofOctets 10 0 0 1), 5060⟩
  have hread : (((Message.parse ((Server.complete plainGateway overIpv6 ⟨.v4 (ofOctets 10 0 0 1), 5060⟩
      (makeResponse plainGateway.toCoreConfig [] overIpv6 200 none)).encode fun c ↦ [c.toUpper])).map
        fun m ↦ (viaValues m.headers).map Via.parse) ==
      some (reflectTop ⟨.v4 (ofOctets 10 0 0 1), 5060⟩ ((viaValues overIpv6.headers).map Via.parse))) =
        false := by
    decide +kernel
  obtain ⟨m, hm, hvias⟩ := hcarried
  rw [hm, Option.map_some, hvias, beq_self_eq_true] at hread
  cases hread

/-- A request over two proxies, of which the first to be passed keeps to a name. -/
def overNames : Request where
  method := .invite
  uri := Uri.new (some "+8210") "gw" none
  headers := ⟨[("via", "SIP/2.0/UDP\tedge.example:5062;branch=z9hG4bK2;rport, SIP/2.0/UDP 10.0.0.2;branch=z9hG4bK1")]⟩
  body := []

/-- The tab in the topmost value is written as a blank. -/
theorem viasCarried_iff_over_names : ViasCarried overNames ⟨.v4 (ofOctets 10 0 0 1), 5060⟩
    ((Server.complete plainGateway overNames ⟨.v4 (ofOctets 10 0 0 1), 5060⟩
      (makeResponse plainGateway.toCoreConfig [] overNames 200 none)).encode fun c ↦ [c.toUpper]) := by
  refine (viasCarried_iff (fun _ _ ↦ rfl) plainGateway [] overNames (by decide) none _).mpr ⟨?_, ?_⟩
  · intro field host port hfield hbracketed
    have hnone : (overNames.headers.get "via").bind bracketed = none := by decide +kernel
    rw [hfield, Option.bind_some, hbracketed] at hnone
    cases hnone
  · unfold Sendable
    decide +kernel

end Modem2Sip.Sip
