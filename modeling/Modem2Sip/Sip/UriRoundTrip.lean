import Modem2Sip.Sip.Vias

/-!
# URIs written out and read again

`Uri::parse` and its `Display` in `sip/uri.rs`.  The text of a URI is cut into pieces and
each of them is read on its own: what is in front of the `@`, the host and the port, the
parameters and the headers.  Written out they are put together anew, so that a URI is read
back if each piece finds its place again.
-/

namespace Modem2Sip.Sip

open Text

/-! ## White space at the end -/

theorem trimEnd_eq_self_iff {s : Str} : trimEnd s = s ↔ s.length ≤ (trimEnd s).length := by
  constructor
  · intro h
    rw [h]
  · intro h
    exact (List.rdropWhile_prefix _ s).eq_of_length_le h

theorem length_trimEnd_le (s : Str) : (trimEnd s).length ≤ s.length :=
  (List.rdropWhile_prefix _ s).length_le

theorem trimEnd_lower (s : Str) : trimEnd (lower s) = lower (trimEnd s) := by
  have hrev (s : Str) : lower s.reverse = (lower s).reverse := List.map_reverse
  rw [trimEnd, List.rdropWhile, ← hrev, show (lower s.reverse).dropWhile isWhitespace =
    lower (s.reverse.dropWhile isWhitespace) from trimStart_lower s.reverse, ← hrev]
  rfl

/-- Letter case makes no difference to the white space. -/
theorem trimEnd_eq_self_of_lower {s t : Str} (h : lower s = lower t) :
    trimEnd s = s ↔ trimEnd t = t := by
  have hlen {a b : Str} (hab : lower a = lower b) : a.length = b.length := by
    simpa [lower] using congrArg List.length hab
  have htrim : lower (trimEnd s) = lower (trimEnd t) := by
    rw [← trimEnd_lower, ← trimEnd_lower, h]
  rw [trimEnd_eq_self_iff, trimEnd_eq_self_iff, hlen h, hlen htrim]

/-- The end of a text that does not end in an empty part is the end of this part. -/
theorem trimEnd_append_eq_self_iff (a : Str) {b : Str} (hne : b ≠ []) :
    trimEnd (a ++ b) = a ++ b ↔ trimEnd b = b := by
  have hab : a ++ b ≠ [] := by simp [hne]
  unfold trimEnd
  rw [List.rdropWhile_eq_self_iff, List.rdropWhile_eq_self_iff]
  constructor
  · intro h hb
    have hlast := h hab
    rwa [List.getLast_append_of_ne_nil hab hne] at hlast
  · intro h _
    rw [List.getLast_append_of_ne_nil hab hne]
    exact h hne

/-! ## Fields between separators -/

/-- A kind of field: how one is read from a piece, which separator stands between the
pieces, and how it is written, which changes no more than letter case. -/
structure FieldKind (α : Type) where
  sep : Char
  sep_not_alpha : sep.isAlpha = false
  read : Str → Option α
  text : α → Str
  read_text : ∀ t x, read t = some x → read (text x) = some x
  lower_text : ∀ t x, read t = some x → lower (text x) = lower t
  read_nil : read [] = none

namespace FieldKind

variable {α : Type} (k : FieldKind α)

/-- The pieces that are fields. -/
def pieces (s : Str) : List Str := (s.splitOn k.sep).filter fun t ↦ (k.read t).isSome

def readAll (s : Str) : List α := (k.pieces s).filterMap k.read

def join (xs : List α) : Str := [k.sep].intercalate (xs.map k.text)

variable {k}

theorem sep_not_mem_text {t : Str} {x : α} (hread : k.read t = some x) (ht : k.sep ∉ t) :
    k.sep ∉ k.text x := by
  rw [← mem_lower_iff k.sep_not_alpha, k.lower_text t x hread, mem_lower_iff k.sep_not_alpha]
  exact ht

theorem text_ne_nil {t : Str} {x : α} (hread : k.read t = some x) : k.text x ≠ [] := by
  intro hnil
  have hlower := k.lower_text t x hread
  rw [hnil] at hlower
  have ht : t = [] := List.map_eq_nil_iff.mp hlower.symm
  rw [ht, k.read_nil] at hread
  cases hread

/-- What is known of a field that was read. -/
theorem exists_of_mem_readAll {s : Str} {x : α} (h : x ∈ k.readAll s) :
    ∃ t, k.sep ∉ t ∧ k.read t = some x := by
  obtain ⟨t, ht, hread⟩ := List.mem_filterMap.mp h
  exact ⟨t, (not_mem_of_mem_splitOn (List.mem_filter.mp ht).1).1, hread⟩

theorem readAll_nil : k.readAll [] = [] := by
  rw [readAll, pieces, List.splitOn_nil, List.filter_cons_of_neg (by simp [k.read_nil])]
  rfl

/-- Fields that were read are read again where they were joined. -/
theorem readAll_join (s : Str) : k.readAll (k.join (k.readAll s)) = k.readAll s := by
  by_cases hne : k.readAll s = []
  · rw [hne]
    exact readAll_nil
  · have hsplit : (k.join (k.readAll s)).splitOn k.sep = (k.readAll s).map k.text := by
      refine List.splitOn_intercalate k.sep ?_ (by simpa using hne)
      intro t ht
      obtain ⟨x, hx, rfl⟩ := List.mem_map.mp ht
      obtain ⟨t, ht, hread⟩ := exists_of_mem_readAll hx
      exact sep_not_mem_text hread ht
    have hread : ∀ x ∈ k.readAll s, k.read (k.text x) = some x := by
      intro x hx
      obtain ⟨t, -, hread⟩ := exists_of_mem_readAll hx
      exact k.read_text t x hread
    have hfilter : ((k.readAll s).map k.text).filter (fun t ↦ (k.read t).isSome) =
        (k.readAll s).map k.text := by
      rw [List.filter_eq_self]
      intro t ht
      obtain ⟨x, hx, rfl⟩ := List.mem_map.mp ht
      rw [hread x hx]
      rfl
    rw [readAll, pieces, hsplit, hfilter, List.filterMap_map]
    exact (List.filterMap_congr hread).trans (List.filterMap_some)

/-- The fields are written as the pieces they were read from, but for letter case. -/
theorem map_lower_text (s : Str) :
    (k.readAll s).map (fun x ↦ lower (k.text x)) = (k.pieces s).map lower := by
  have hsome : ∀ t ∈ k.pieces s, (k.read t).isSome = true := fun t ht ↦ (List.mem_filter.mp ht).2
  rw [readAll]
  generalize k.pieces s = ts at hsome
  induction ts with
  | nil => rfl
  | cons t ts ih =>
      obtain ⟨x, hx⟩ := Option.isSome_iff_exists.mp (hsome t List.mem_cons_self)
      rw [List.filterMap_cons_some hx, List.map_cons, List.map_cons, k.lower_text t x hx,
        ih fun t' ht' ↦ hsome t' (List.mem_cons_of_mem t ht')]

theorem readAll_eq_nil_iff {s : Str} : k.readAll s = [] ↔ k.pieces s = [] := by
  have h := congrArg List.length (map_lower_text (k := k) s)
  rw [List.length_map, List.length_map] at h
  rw [← List.length_eq_zero_iff, h, List.length_eq_zero_iff]

/-- The fields of a text take no more room than the text. -/
theorem length_join_le (s : Str) : (k.join (k.readAll s)).length ≤ s.length := by
  by_cases hne : k.readAll s = []
  · rw [hne]
    exact Nat.zero_le _
  · have hpieces : k.pieces s ≠ [] := mt readAll_eq_nil_iff.mpr hne
    have hlengths := congrArg (List.map (·.length + 1)) (map_lower_text (k := k) s)
    simp only [List.map_map, Function.comp_def, lower, List.length_map] at hlengths
    have hjoin : (k.join (k.readAll s)).length = ([k.sep].intercalate (k.pieces s)).length := by
      have hne' : (k.readAll s).map k.text ≠ [] := by simpa using hne
      have hx := Lines.length_intercalate_single k.sep hne'
      have ht := Lines.length_intercalate_single k.sep hpieces
      rw [List.map_map, Function.comp_def, hlengths, ← ht] at hx
      exact Nat.succ_injective hx
    rw [hjoin]
    refine (Lines.length_intercalate_le_of_sublist k.sep List.filter_sublist).trans ?_
    rw [List.intercalate_splitOn]

/-- White space that goes at the end takes a field with it, or a part of one. -/
theorem readAll_trimEnd_join (s : Str) :
    k.readAll (trimEnd (k.join (k.readAll s))) = k.readAll s ↔
      trimEnd (k.join (k.readAll s)) = k.join (k.readAll s) := by
  constructor
  · intro h
    have hle := length_join_le (k := k) (trimEnd (k.join (k.readAll s)))
    rw [h] at hle
    exact trimEnd_eq_self_iff.mpr hle
  · intro h
    rw [h, readAll_join]

/-- It is the last piece that has to have none. -/
theorem trimEnd_join_iff {s : Str} (hne : k.readAll s ≠ []) :
    trimEnd (k.join (k.readAll s)) = k.join (k.readAll s) ↔
      ∀ t ∈ (k.pieces s).getLast?, trimEnd t = t := by
  have hlower := map_lower_text (k := k) s
  rcases List.eq_nil_or_concat (k.readAll s) with hnil | ⟨xs, x, hxs⟩
  · exact absurd hnil hne
  · rcases List.eq_nil_or_concat (k.pieces s) with hnil | ⟨ts, t, hts⟩
    · exact absurd (readAll_eq_nil_iff.mpr hnil) hne
    · have hmem : x ∈ k.readAll s := by simp [hxs]
      obtain ⟨t', -, hread⟩ := exists_of_mem_readAll hmem
      rw [hxs, hts, List.concat_eq_append, List.concat_eq_append, List.map_append, List.map_append,
        List.map_singleton, List.map_singleton] at hlower
      have hlast : lower (k.text x) = lower t := by
        have h := (List.append_inj' hlower rfl).2
        simpa using h
      obtain ⟨a, ha⟩ := Lines.intercalate_concat [k.sep] (xs.map k.text) (k.text x)
      have hjoin : k.join (k.readAll s) = a ++ k.text x := by
        rw [join, hxs, List.concat_eq_append, List.map_append, List.map_singleton, ha]
      rw [hjoin, trimEnd_append_eq_self_iff a (text_ne_nil hread), hts, List.concat_eq_append,
        List.getLast?_concat, trimEnd_eq_self_of_lower hlast]
      simp

end FieldKind

/-! ## Parameters and headers -/

theorem lower_paramText (t : Str) : lower (paramText (parseParam t)) = lower t := by
  have happend (a b : Str) : lower (a ++ '=' :: b) = lower a ++ '=' :: lower b := by
    simp [lower]
  rw [parseParam]
  cases hsplit : Text.splitAt '=' t with
  | none => exact lower_lower t
  | some kv =>
      obtain ⟨k, v⟩ := kv
      obtain ⟨rfl, -⟩ := eq_of_splitAt hsplit
      dsimp only
      rw [paramText, happend, happend, lower_lower]

theorem parseParam_paramText (t : Str) : parseParam (paramText (parseParam t)) = parseParam t := by
  cases hsplit : Text.splitAt '=' t with
  | none =>
      have hno : '=' ∉ lower t := by
        rw [mem_lower_iff (by decide)]
        exact not_mem_of_splitAt hsplit
      have hp : parseParam t = (lower t, none) := by rw [parseParam, hsplit]
      rw [hp, paramText, parseParam, splitAt_eq_none hno]
      dsimp only
      rw [lower_lower]
  | some kv =>
      obtain ⟨k, v⟩ := kv
      have hno : '=' ∉ lower k := by
        rw [mem_lower_iff (by decide)]
        exact (eq_of_splitAt hsplit).2
      have hp : parseParam t = (lower k, some v) := by rw [parseParam, hsplit]
      rw [hp, paramText, parseParam, splitAt_append_cons hno]
      dsimp only
      rw [lower_lower]

def paramKind : FieldKind Param where
  sep := ';'
  sep_not_alpha := by decide
  read t := if t = [] then none else some (parseParam t)
  text := paramText
  read_text t x hread := by
    split at hread
    · cases hread
    · rename_i hne
      obtain rfl := Option.some.inj hread
      have hne' : paramText (parseParam t) ≠ [] := by
        intro hnil
        have hlower := lower_paramText t
        rw [hnil] at hlower
        exact hne (List.map_eq_nil_iff.mp hlower.symm)
      rw [if_neg hne', parseParam_paramText]
  lower_text t x hread := by
    split at hread
    · cases hread
    · obtain rfl := Option.some.inj hread
      exact lower_paramText t
  read_nil := rfl

def headerKind : FieldKind (Str × Str) where
  sep := '&'
  sep_not_alpha := by decide
  read := Text.splitAt '='
  text kv := kv.1 ++ '=' :: kv.2
  read_text t x hread := by
    obtain ⟨a, b⟩ := x
    exact splitAt_append_cons (eq_of_splitAt hread).2 b
  lower_text t x hread := by
    obtain ⟨a, b⟩ := x
    rw [(eq_of_splitAt hread).1]
  read_nil := rfl

/-! ## The pieces of a URI -/

/-- The pieces that `Uri::parse` cuts a text into. -/
structure Uri.Pieces where
  scheme : Str
  userinfo : Option Str
  hostport : Str
  params : Str
  headers : Str

/-- What is in front of the last `@`, and what is behind it. -/
def cutUserinfo (s : Str) : Option Str × Str :=
  match rsplitAt '@' s with
  | some (u, h) => (some u, h)
  | none => (none, s)

def cutRest (scheme rest : Str) : Uri.Pieces :=
  let (rest, headers) := Uri.cut '?' rest
  let (userinfoHost, params) := Uri.cut ';' rest
  { scheme
    userinfo := (cutUserinfo userinfoHost).1
    hostport := (cutUserinfo userinfoHost).2
    params := params.getD []
    headers := headers.getD [] }

def Uri.pieces (s : Str) : Option Uri.Pieces :=
  (Text.splitAt ':' (trim s)).bind fun sr ↦
    if lower (trim sr.1) ∈ (["sip", "sips", "tel"] : List Str) then
      some (cutRest (lower (trim sr.1)) sr.2)
    else none

/-- User and password. -/
def readUserinfo : Option Str → Option Str × Option Str
  | some ui => (some (Uri.cut ':' ui).1, (Uri.cut ':' ui).2)
  | none => (none, none)

/-- What is in front of the parameters.  A `tel:` URI is all user and no host. -/
def readAuthority (scheme : Str) (userinfo : Option Str) (hostport : Str) :
    Option Str × Option Str × Str × Option Nat :=
  if scheme = "tel" then (some (trim hostport), (readUserinfo userinfo).2, [], none)
  else ((readUserinfo userinfo).1, (readUserinfo userinfo).2, splitHostPort hostport)

def Uri.Pieces.uri (p : Uri.Pieces) : Uri :=
  let (user, password, host, port) := readAuthority p.scheme p.userinfo p.hostport
  { scheme := p.scheme, user, password, host, port
    params := paramKind.readAll p.params
    headers := headerKind.readAll p.headers }

theorem readAll_paramKind (s : Str) :
    paramKind.readAll s = ((s.splitOn ';').filter (· != [])).map parseParam := by
  have hread : ∀ ts : List Str, (ts.filter fun t ↦ (paramKind.read t).isSome).filterMap
      paramKind.read = (ts.filter (· != [])).map parseParam := by
    intro ts
    induction ts with
    | nil => rfl
    | cons t ts ih =>
        by_cases ht : t = []
        · subst ht
          exact ih
        · have hsome : paramKind.read t = some (parseParam t) := if_neg ht
          rw [List.filter_cons_of_pos (by rw [hsome]; rfl), List.filterMap_cons_some hsome, ih,
            List.filter_cons_of_pos (by simpa using ht), List.map_cons]
  exact hread _

theorem readAll_headerKind (s : Str) :
    headerKind.readAll s = ((s.splitOn '&').filter (· != [])).filterMap (Text.splitAt '=') := by
  have hread : ∀ ts : List Str, (ts.filter fun t ↦ (Text.splitAt '=' t).isSome).filterMap
      (Text.splitAt '=') = (ts.filter (· != [])).filterMap (Text.splitAt '=') := by
    intro ts
    induction ts with
    | nil => rfl
    | cons t ts ih =>
        by_cases ht : t = []
        · subst ht
          exact ih
        · rw [List.filter_cons_of_pos (a := t) (l := ts) (p := (· != [])) (by simpa using ht)]
          cases hsplit : Text.splitAt '=' t with
          | none =>
              rw [List.filter_cons_of_neg (by rw [hsplit]; decide),
                List.filterMap_cons_none hsplit, ih]
          | some kv =>
              rw [List.filter_cons_of_pos (by rw [hsplit]; rfl), List.filterMap_cons_some hsplit,
                List.filterMap_cons_some hsplit, ih]
  exact hread _

/-- The reader cuts the text first and reads the pieces then. -/
theorem Uri.parse_eq_pieces (s : Str) : Uri.parse s = (Uri.pieces s).map Uri.Pieces.uri := by
  have hparams (o : Option Str) : paramKind.readAll (o.getD []) =
      match o with
      | some ps => ((ps.splitOn ';').filter (· != [])).map parseParam
      | none => [] := by
    cases o with
    | none => exact FieldKind.readAll_nil
    | some ps => exact readAll_paramKind ps
  have hheaders (o : Option Str) : headerKind.readAll (o.getD []) =
      match o with
      | some hs => ((hs.splitOn '&').filter (· != [])).filterMap (Text.splitAt '=')
      | none => [] := by
    cases o with
    | none => exact FieldKind.readAll_nil
    | some hs => exact readAll_headerKind hs
  rw [Uri.parse, Uri.pieces]
  cases hsplit : Text.splitAt ':' (trim s) with
  | none => rfl
  | some sr =>
      obtain ⟨scheme, rest⟩ := sr
      rw [Option.bind_eq_bind, Option.bind_some, Option.bind_some]
      dsimp only
      have hscheme : (lower (trim scheme) ≠ "sip" ∧ lower (trim scheme) ≠ "sips" ∧
          lower (trim scheme) ≠ "tel") ↔
            lower (trim scheme) ∉ (["sip", "sips", "tel"] : List Str) := by
        simp only [List.mem_cons, List.not_mem_nil, or_false, not_or, ne_eq]
      by_cases hin : lower (trim scheme) ∈ (["sip", "sips", "tel"] : List Str)
      · rw [if_neg (mt hscheme.mp (not_not.mpr hin)), if_pos hin, Option.map_some,
          Uri.Pieces.uri, cutRest]
        dsimp only
        rw [hparams, hheaders, cutUserinfo, readAuthority]
        by_cases htel : lower (trim scheme) = "tel"
        · rw [if_pos htel, if_pos htel]
          cases rsplitAt '@' (Uri.cut ';' (Uri.cut '?' rest).1).1 with
          | none => rfl
          | some uh => rfl
        · rw [if_neg htel, if_neg htel]
          cases rsplitAt '@' (Uri.cut ';' (Uri.cut '?' rest).1).1 with
          | none => rfl
          | some uh => rfl
      · rw [if_pos (hscheme.mpr hin), if_neg hin]
        rfl

/-- What the cuts leave out of the pieces. -/
structure Uri.Pieces.Clean (p : Uri.Pieces) : Prop where
  scheme : p.scheme ∈ (["sip", "sips", "tel"] : List Str)
  userinfo : ∀ ui ∈ p.userinfo, '?' ∉ ui ∧ ';' ∉ ui
  hostport : '@' ∉ p.hostport ∧ '?' ∉ p.hostport ∧ ';' ∉ p.hostport
  params : '?' ∉ p.params

theorem not_mem_cut_fst (c : Char) (s : Str) : c ∉ (Uri.cut c s).1 := by
  rw [cut_fst]
  exact not_mem_before c s

theorem cut_fst_subset (c : Char) (s : Str) : (Uri.cut c s).1 ⊆ s := by
  rw [cut_fst]
  exact (List.takeWhile_prefix _).subset

theorem not_mem_of_rsplitAt {c : Char} {s : Str} (h : rsplitAt c s = none) : c ∉ s := by
  intro hmem
  obtain ⟨a, b, hab, hb⟩ := List.eq_append_cons_of_mem (List.mem_reverse.mpr hmem)
  have hs : s = b.reverse ++ c :: a.reverse := by
    rw [← List.reverse_reverse s, hab]
    simp
  rw [hs, rsplitAt_append_cons _ (by simpa using hb)] at h
  cases h

theorem clean_cutRest {scheme : Str} (h : scheme ∈ (["sip", "sips", "tel"] : List Str))
    (rest : Str) : (cutRest scheme rest).Clean := by
  have hques : '?' ∉ (Uri.cut ';' (Uri.cut '?' rest).1).1 :=
    fun hmem ↦ not_mem_cut_fst '?' rest (cut_fst_subset ';' _ hmem)
  have hsemi := not_mem_cut_fst ';' (Uri.cut '?' rest).1
  have hparams : '?' ∉ ((Uri.cut ';' (Uri.cut '?' rest).1).2).getD [] :=
    fun hmem ↦ not_mem_cut_fst '?' rest (cut_snd_subset ';' _ hmem)
  unfold cutRest
  dsimp only
  generalize (Uri.cut ';' (Uri.cut '?' rest).1).1 = a at hques hsemi
  cases hsplit : rsplitAt '@' a with
  | none =>
      have hat := not_mem_of_rsplitAt hsplit
      rw [cutUserinfo, hsplit]
      exact ⟨h, by rintro ui ⟨⟩, ⟨hat, hques, hsemi⟩, hparams⟩
  | some uh =>
      obtain ⟨u, host⟩ := uh
      obtain ⟨rfl, hat⟩ := eq_of_rsplitAt hsplit
      rw [cutUserinfo, hsplit]
      simp only [List.mem_append, List.mem_cons, not_or] at hques hsemi
      refine ⟨h, ?_, ⟨hat, hques.2.2, hsemi.2.2⟩, hparams⟩
      rintro ui ⟨⟩
      exact ⟨hques.1, hsemi.1⟩

theorem Uri.clean_of_pieces {s : Str} {p : Uri.Pieces} (h : Uri.pieces s = some p) : p.Clean := by
  obtain ⟨⟨scheme, rest⟩, -, h⟩ := Option.bind_eq_some_iff.mp h
  split at h
  · rename_i hscheme
    obtain rfl := Option.some.inj h
    exact clean_cutRest hscheme rest
  · cases h

/-! ## The text of a URI -/

/-- A part that is only there with what stands in front of it. -/
def behind (c : Char) : Option Str → Str
  | some s => c :: s
  | none => []

/-- User and password as they are written.  Without a host there is nothing to separate. -/
def userText (user password : Option Str) (host : Str) : Str :=
  match user with
  | some user => user ++ behind ':' password ++ (if host = [] then [] else ['@'])
  | none => []

def authorityText (a : Option Str × Option Str × Str × Option Nat) : Str :=
  userText a.1 a.2.1 a.2.2.1 ++ (hostForWire a.2.2.1 ++ writtenPort a.2.2.2)

/-- The fields as they are written, if there are any. -/
def FieldKind.joined {α : Type} (k : FieldKind α) (xs : List α) : Option Str :=
  if xs.isEmpty then none else some (k.join xs)

theorem Uri.show_eq (u : Uri) : u.show =
    u.scheme ++ ':' :: (authorityText (u.user, u.password, u.host, u.port) ++
      (behind ';' (paramKind.joined u.params) ++ behind '?' (headerKind.joined u.headers))) := by
  have hparams : u.params.flatMap showParam = behind ';' (paramKind.joined u.params) := by
    cases hps : u.params with
    | nil => rfl
    | cons p ps => exact flatMap_showParam (List.cons_ne_nil p ps)
  have hcolon : (":" : Str) = [':'] := rfl
  rw [Uri.show, hparams]
  refine (congrArg (HAppend.hAppend _) (?_ : _ = behind '?' (headerKind.joined u.headers))).trans ?_
  · cases u.headers with
    | nil => rfl
    | cons h hs => rfl
  rw [authorityText, hcolon]
  simp only [List.append_assoc]
  congr 1
  rw [List.singleton_append]
  congr 1
  cases u.user with
  | none =>
      cases u.port with
      | none => rfl
      | some p => rfl
  | some user =>
      cases u.password with
      | none =>
          cases u.port with
          | none => simp [userText, writtenPort, behind]
          | some p => simp [userText, writtenPort, behind]
      | some pw =>
          cases u.port with
          | none => simp [userText, writtenPort, behind]
          | some p => simp [userText, writtenPort, behind]

theorem cut_behind {c : Char} {s : Str} (h : c ∉ s) (t : Option Str) :
    Uri.cut c (s ++ behind c t) = (s, t) := by
  cases t with
  | none => rw [behind, List.append_nil, Uri.cut, splitAt_eq_none h]
  | some t => rw [behind, Uri.cut, splitAt_append_cons h]

/-- A text that was put together from clean parts is cut into them. -/
theorem cutRest_text (scheme : Str) {auth : Str} (hauth : '?' ∉ auth ∧ ';' ∉ auth)
    {params : Option Str} (hparams : ∀ ps ∈ params, '?' ∉ ps) (headers : Option Str) :
    cutRest scheme (auth ++ (behind ';' params ++ behind '?' headers)) =
      { scheme
        userinfo := (cutUserinfo auth).1
        hostport := (cutUserinfo auth).2
        params := params.getD []
        headers := headers.getD [] } := by
  have hbefore : '?' ∉ auth ++ behind ';' params := by
    rw [List.mem_append]
    rintro (hmem | hmem)
    · exact hauth.1 hmem
    · cases params with
      | none => cases hmem
      | some ps =>
          rw [behind, List.mem_cons] at hmem
          rcases hmem with hmem | hmem
          · cases hmem
          · exact hparams ps rfl hmem
  rw [cutRest, ← List.append_assoc, cut_behind hbefore]
  dsimp only
  rw [cut_behind hauth.2]

/-! ## The host in its brackets -/

theorem port_lt_of_splitHostPort {s : Str} {n : Nat} (h : (splitHostPort s).2 = some n) :
    n < 2 ^ 16 := by
  rw [splitHostPort_eq] at h
  cases hb : bracketedHost s with
  | some hp =>
      rw [hb, Option.getD_some] at h
      exact (bracketedHost_eq_some hb).2 n h
  | none =>
      rw [hb, Option.getD_none, splitPlain] at h
      split at h
      · split at h
        · cases h
        · split at h
          · rename_i hp
            cases h
            exact parseU16_lt hp
          · cases h
      · cases h

theorem trimEnd_writtenPort (port : Option Nat) : trimEnd (writtenPort port) = writtenPort port := by
  cases port with
  | none => rfl
  | some n =>
      refine (trimEnd_append_cons [] (dec n) (by decide)).trans ?_
      rw [trimEnd_of_forall (isWhitespace_of_mem_dec n)]
      rfl

/-- A bracketed reference ends at the first closing bracket. -/
theorem splitHostPort_brackets {host : Str} (hhost : ']' ∉ host) {after : Str} (hafter : trimEnd after = after) :
    splitHostPort ('[' :: (host ++ ']' :: after)) =
      (host, (stripPrefix [':'] after).bind parseU16) := by
  have htrim : trim ('[' :: (host ++ ']' :: after)) = '[' :: (host ++ ']' :: after) := by
    have h := trim_append_cons ('[' :: host) after (c := ']') (by decide)
    rwa [trimStart_cons (by decide), hafter] at h
  have hstrip : stripPrefix ['['] ('[' :: (host ++ ']' :: after)) = some (host ++ ']' :: after) :=
    stripPrefix_append ['['] _
  rw [splitHostPort, htrim, hstrip]
  dsimp only
  rw [splitAt_append_cons hhost]

/-- With its brackets a host is read again unless it has a closing one itself. -/
theorem splitHostPort_bracketed_iff {host : Str} {port : Option Nat}
    (hport : ∀ n, port = some n → n < 2 ^ 16) :
    splitHostPort (('[' :: host ++ [']']) ++ writtenPort port) = (host, port) ↔ ']' ∉ host := by
  have hshape : ('[' :: host ++ [']']) ++ writtenPort port =
      '[' :: (host ++ ']' :: writtenPort port) := by simp
  rw [hshape]
  constructor
  · intro h hmem
    obtain ⟨a, b, rfl, ha⟩ := List.eq_append_cons_of_mem hmem
    have hafter : trimEnd (b ++ ']' :: writtenPort port) = b ++ ']' :: writtenPort port := by
      rw [trimEnd_append_cons b _ (by decide), trimEnd_writtenPort]
    rw [List.append_assoc, List.cons_append, splitHostPort_brackets ha hafter] at h
    have hlen := congrArg List.length (Prod.mk.inj h).1
    rw [List.length_append, List.length_cons] at hlen
    omega
  · intro hhost
    rw [splitHostPort_brackets hhost (trimEnd_writtenPort port)]
    cases port with
    | none => rfl
    | some n =>
        have hstrip : stripPrefix [':'] (writtenPort (some n)) = some (dec n) :=
          stripPrefix_append [':'] _
        rw [hstrip, Option.bind_some, parseU16_dec (hport n rfl)]

/-- A host that is put into brackets has no closing one itself, and one that is written without
the brackets that it had can do without them. -/
def HostKept (hostport : Str) : Prop :=
  if ':' ∈ (splitHostPort hostport).1 ∧ ¬ ['['].isPrefixOf (splitHostPort hostport).1 then
    ']' ∉ (splitHostPort hostport).1
  else ∀ host port, bracketedHost hostport = some (host, port) → Unbracketable host port

theorem splitHostPort_wire_iff (hostport : Str) :
    splitHostPort (hostForWire (splitHostPort hostport).1 ++ writtenPort (splitHostPort hostport).2) =
      splitHostPort hostport ↔ HostKept hostport := by
  have hport : ∀ n, (splitHostPort hostport).2 = some n → n < 2 ^ 16 :=
    fun n hn ↦ port_lt_of_splitHostPort hn
  unfold HostKept hostForWire
  split
  · exact splitHostPort_bracketed_iff hport
  · cases hb : bracketedHost hostport with
    | none =>
        constructor
        · rintro - host port ⟨⟩
        · intro _
          exact splitHostPort_written hb
    | some hp =>
        obtain ⟨host, port⟩ := hp
        obtain ⟨hhost, hlt⟩ := bracketedHost_eq_some hb
        have heq : splitHostPort hostport = (host, port) := by
          rw [splitHostPort_eq, hb, Option.getD_some]
        rw [heq, splitHostPort_unbracketed hhost hlt]
        constructor
        · rintro h host' port' ⟨⟩
          exact h
        · intro h
          exact h host port rfl

/-! ## User, host and port -/

theorem cutUserinfo_append (u : Str) {h : Str} (hat : '@' ∉ h) :
    cutUserinfo (u ++ '@' :: h) = (some u, h) := by
  rw [cutUserinfo, rsplitAt_append_cons u hat]

theorem cutUserinfo_of_not_mem {s : Str} (hat : '@' ∉ s) : cutUserinfo s = (none, s) := by
  rw [cutUserinfo, rsplitAt_eq_none hat]

/-- A user and a password are the text that they were read from. -/
theorem eq_of_cut (c : Char) (s : Str) : (Uri.cut c s).1 ++ behind c (Uri.cut c s).2 = s := by
  rw [Uri.cut]
  cases hsplit : Text.splitAt c s with
  | none => exact List.append_nil s
  | some ab =>
      obtain ⟨a, b⟩ := ab
      exact (eq_of_splitAt hsplit).1.symm

theorem userText_readUserinfo (ui host : Str) :
    userText (readUserinfo (some ui)).1 (readUserinfo (some ui)).2 host =
      ui ++ if host = [] then [] else ['@'] := by
  rw [readUserinfo, userText, eq_of_cut]

/-- White space at the end is not part of a number and not part of a host. -/
theorem readAuthority_trimEnd (scheme s : Str) :
    readAuthority scheme (cutUserinfo (trimEnd s)).1 (cutUserinfo (trimEnd s)).2 =
      readAuthority scheme (cutUserinfo s).1 (cutUserinfo s).2 := by
  have hread (ui : Option Str) (t : Str) :
      readAuthority scheme ui (trimEnd t) = readAuthority scheme ui t := by
    rw [readAuthority, readAuthority, trim_trimEnd, ← splitHostPort_trim (trimEnd t), trim_trimEnd,
      splitHostPort_trim]
  cases hsplit : rsplitAt '@' s with
  | none =>
      have hat := not_mem_of_rsplitAt hsplit
      have hat' : '@' ∉ trimEnd s := fun hmem ↦ hat ((List.rdropWhile_prefix _ s).subset hmem)
      rw [cutUserinfo_of_not_mem hat, cutUserinfo_of_not_mem hat']
      exact hread none s
  | some uh =>
      obtain ⟨u, h⟩ := uh
      obtain ⟨rfl, hat⟩ := eq_of_rsplitAt hsplit
      have hat' : '@' ∉ trimEnd h := fun hmem ↦ hat ((List.rdropWhile_prefix _ h).subset hmem)
      rw [trimEnd_append_cons u h (by decide), cutUserinfo_append u hat, cutUserinfo_append u hat']
      exact hread (some u) h

/-- The number of a `tel:` URI comes without a password, a user of another one with a host. -/
structure AuthorityKept (scheme : Str) (userinfo : Option Str) (hostport : Str) : Prop where
  number : scheme = "tel" → ∀ ui ∈ userinfo, ':' ∉ ui
  host_ne_nil : scheme ≠ "tel" → userinfo ≠ none → (splitHostPort hostport).1 ≠ []
  host : scheme ≠ "tel" → HostKept hostport

theorem eq_of_cutUserinfo {s u : Str} (h : (cutUserinfo s).1 = some u) :
    s = u ++ '@' :: (cutUserinfo s).2 := by
  unfold cutUserinfo at h ⊢
  cases hsplit : rsplitAt '@' s with
  | none =>
      rw [hsplit] at h
      cases h
  | some uh =>
      obtain ⟨u', h'⟩ := uh
      rw [hsplit] at h
      cases h
      exact (eq_of_rsplitAt hsplit).1

theorem at_not_mem_writtenPort (port : Option Nat) : '@' ∉ writtenPort port := by
  cases port with
  | none => exact List.not_mem_nil
  | some n =>
      rw [writtenPort, List.mem_cons, not_or]
      exact ⟨by decide, not_mem_dec (by decide) n⟩

theorem mem_hostForWire {c : Char} {host : Str} (h : c ∈ hostForWire host) :
    c ∈ host ∨ c = '[' ∨ c = ']' := by
  unfold hostForWire at h
  split at h
  · simpa [or_comm, or_assoc] using h
  · exact .inl h

/-- The text behind the separator. -/
def wire (hp : Str × Option Nat) : Str := hostForWire hp.1 ++ writtenPort hp.2

theorem at_not_mem_wire {hostport : Str} (hat : '@' ∉ hostport) :
    '@' ∉ wire (splitHostPort hostport) := by
  rw [wire, List.mem_append]
  rintro (hmem | hmem)
  · rcases mem_hostForWire hmem with h | h | h
    · exact hat (splitHostPort_subset hostport h)
    · cases h
    · cases h
  · exact at_not_mem_writtenPort _ hmem

/-- The password of a `tel:` URI does not come back with its number. -/
theorem tel_with_password_lost {number password : Str} {s : Str}
    (htext : s = number ++ ':' :: password) :
    ¬ (trim (cutUserinfo s).2 = number ∧ (readUserinfo (cutUserinfo s).1).2 = some password) := by
  rintro ⟨hnumber, hpassword⟩
  cases hcut : (cutUserinfo s).1 with
  | none =>
      rw [hcut] at hpassword
      cases hpassword
  | some u =>
      rw [hcut, readUserinfo] at hpassword
      -- All of it would have to be longer than it is.
      have hlength := congrArg List.length (eq_of_cutUserinfo hcut)
      have hu := congrArg List.length (eq_of_cut ':' u)
      have hle : number.length ≤ (cutUserinfo s).2.length := by
        rw [← hnumber]
        exact (length_trimEnd_le _).trans (List.dropWhile_sublist _).length_le
      rw [hpassword, behind, List.length_append, List.length_cons] at hu
      rw [htext, List.length_append, List.length_append, List.length_cons, List.length_cons,
        ← htext] at hlength
      omega

theorem readUserinfo_snd_eq_none_iff {userinfo : Option Str} :
    (readUserinfo userinfo).2 = none ↔ ∀ ui ∈ userinfo, ':' ∉ ui := by
  cases userinfo with
  | none =>
      constructor
      · rintro - ui ⟨⟩
      · intro _
        rfl
  | some ui =>
      rw [readUserinfo, Uri.cut]
      cases hsplit : Text.splitAt ':' ui with
      | none =>
          constructor
          · rintro - ui' ⟨⟩
            exact not_mem_of_splitAt hsplit
          · intro _
            rfl
      | some ab =>
          obtain ⟨a, b⟩ := ab
          constructor
          · rintro ⟨⟩
          · intro h
            exact absurd (by simp [(eq_of_splitAt hsplit).1]) (h ui rfl)

theorem readAuthority_text_tel (userinfo : Option Str) {hostport : Str} (hat : '@' ∉ hostport) :
    readAuthority "tel"
        (cutUserinfo (authorityText (readAuthority "tel" userinfo hostport))).1
        (cutUserinfo (authorityText (readAuthority "tel" userinfo hostport))).2 =
      readAuthority "tel" userinfo hostport ↔ ∀ ui ∈ userinfo, ':' ∉ ui := by
  have hread (ui : Option Str) (h : Str) :
      readAuthority "tel" ui h = (some (trim h), (readUserinfo ui).2, [], none) := if_pos rfl
  have htext : authorityText (readAuthority "tel" userinfo hostport) =
      trim hostport ++ behind ':' (readUserinfo userinfo).2 := by
    rw [hread, authorityText, userText]
    simp [hostForWire, writtenPort]
  rw [← readUserinfo_snd_eq_none_iff, htext, hread, hread]
  cases hpw : (readUserinfo userinfo).2 with
  | none =>
      have hat' : '@' ∉ trim hostport := fun hmem ↦ hat (mem_of_mem_trim hmem)
      rw [behind, List.append_nil, cutUserinfo_of_not_mem hat', trim_trim]
      exact iff_of_true rfl rfl
  | some pw =>
      refine iff_of_false ?_ (by simp)
      intro h
      simp only [Prod.mk.injEq, Option.some.injEq] at h
      exact tel_with_password_lost rfl ⟨h.1, h.2.1⟩

theorem readAuthority_text_sip {scheme : Str} (hscheme : scheme ≠ "tel") (userinfo : Option Str)
    {hostport : Str} (hat : '@' ∉ hostport) :
    readAuthority scheme
        (cutUserinfo (authorityText (readAuthority scheme userinfo hostport))).1
        (cutUserinfo (authorityText (readAuthority scheme userinfo hostport))).2 =
      readAuthority scheme userinfo hostport ↔
      (userinfo ≠ none → (splitHostPort hostport).1 ≠ []) ∧ HostKept hostport := by
  have hread (ui : Option Str) (h : Str) : readAuthority scheme ui h =
      ((readUserinfo ui).1, (readUserinfo ui).2, splitHostPort h) := if_neg hscheme
  have htext : authorityText (readAuthority scheme userinfo hostport) =
      userText (readUserinfo userinfo).1 (readUserinfo userinfo).2 (splitHostPort hostport).1 ++
        wire (splitHostPort hostport) := by
    rw [hread, authorityText, wire]
  have hkept : splitHostPort (wire (splitHostPort hostport)) = splitHostPort hostport ↔
      HostKept hostport := splitHostPort_wire_iff hostport
  have hnot := at_not_mem_wire hat
  rw [htext, hread, hread]
  cases userinfo with
  | none =>
      rw [readUserinfo, userText, List.nil_append, cutUserinfo_of_not_mem hnot]
      simpa [readUserinfo] using hkept
  | some ui =>
      rw [userText_readUserinfo]
      by_cases hhost : (splitHostPort hostport).1 = []
      · refine iff_of_false ?_ fun h ↦ h.1 (by simp) hhost
        intro h
        -- The user can only come back with a separator, but there is none between it and the port.
        rw [if_pos hhost, List.append_nil] at h
        cases hcut : (cutUserinfo (ui ++ wire (splitHostPort hostport))).1 with
        | none =>
            rw [hcut] at h
            cases (Prod.mk.inj h).1
        | some ui' =>
            rw [hcut, readUserinfo, readUserinfo] at h
            simp only [Prod.mk.injEq, Option.some.injEq] at h
            have hui : ui' = ui := by rw [← eq_of_cut ':' ui', h.1, h.2.1, eq_of_cut]
            have htext := eq_of_cutUserinfo hcut
            rw [hui] at htext
            have hport := List.append_cancel_left htext
            rw [wire, hhost] at hport
            cases hp : (splitHostPort hostport).2 with
            | none =>
                rw [hp] at hport
                cases hport
            | some n =>
                rw [hp] at hport
                cases hport
      · rw [if_neg hhost, List.append_assoc, List.singleton_append, cutUserinfo_append ui hnot]
        simpa [hhost] using hkept

theorem readAuthority_text_iff (scheme : Str) (userinfo : Option Str) {hostport : Str}
    (hat : '@' ∉ hostport) :
    readAuthority scheme
        (cutUserinfo (authorityText (readAuthority scheme userinfo hostport))).1
        (cutUserinfo (authorityText (readAuthority scheme userinfo hostport))).2 =
      readAuthority scheme userinfo hostport ↔ AuthorityKept scheme userinfo hostport := by
  by_cases hscheme : scheme = "tel"
  · subst hscheme
    rw [readAuthority_text_tel userinfo hat]
    constructor
    · intro h
      exact ⟨fun _ ↦ h, fun hne ↦ absurd rfl hne, fun hne ↦ absurd rfl hne⟩
    · intro h
      exact h.number rfl
  · rw [readAuthority_text_sip hscheme userinfo hat]
    constructor
    · rintro ⟨hhost, hkept⟩
      exact ⟨fun htel ↦ absurd htel hscheme, fun _ ↦ hhost, fun _ ↦ hkept⟩
    · intro h
      exact ⟨h.host_ne_nil hscheme, h.host hscheme⟩

/-! ## The round trip -/

/-- A URI whose pieces find their places again: the number or the host does, and the last
parameter or header has no white space at its end. -/
structure Uri.Pieces.Kept (p : Uri.Pieces) : Prop where
  authority : AuthorityKept p.scheme p.userinfo p.hostport
  last : ∀ t ∈ (paramKind.pieces p.params ++ headerKind.pieces p.headers).getLast?, trimEnd t = t

theorem Uri.Pieces.uri_eq_iff {p q : Uri.Pieces} (hscheme : p.scheme = q.scheme) :
    p.uri = q.uri ↔
      readAuthority q.scheme p.userinfo p.hostport = readAuthority q.scheme q.userinfo q.hostport ∧
      paramKind.readAll p.params = paramKind.readAll q.params ∧
      headerKind.readAll p.headers = headerKind.readAll q.headers := by
  simp only [Uri.Pieces.uri, Uri.mk.injEq, hscheme, true_and, Prod.ext_iff]
  tauto

/-- Nothing that ends the user or the host is written there. -/
theorem not_mem_authorityText {p : Uri.Pieces} {c : Char}
    (hc : c ≠ ':' ∧ c ≠ '@' ∧ c ≠ '[' ∧ c ≠ ']' ∧ c.isDigit = false)
    (huser : ∀ ui ∈ p.userinfo, c ∉ ui) (hhost : c ∉ p.hostport) :
    c ∉ authorityText (readAuthority p.scheme p.userinfo p.hostport) := by
  have hport (port : Option Nat) : c ∉ writtenPort port := by
    cases port with
    | none => exact List.not_mem_nil
    | some n =>
        rw [writtenPort, List.mem_cons, not_or]
        exact ⟨hc.1, not_mem_dec hc.2.2.2.2 n⟩
  have hpassword : c ∉ behind ':' (readUserinfo p.userinfo).2 := by
    cases hui : p.userinfo with
    | none => exact List.not_mem_nil
    | some ui =>
        intro hmem
        refine huser ui hui ?_
        rw [← eq_of_cut ':' ui]
        exact List.mem_append_right _ hmem
  rw [readAuthority]
  by_cases hscheme : p.scheme = "tel"
  · rw [if_pos hscheme, authorityText, userText]
    simp only [hostForWire, writtenPort, List.not_mem_nil, false_and, if_false, if_true,
      List.append_nil, List.mem_append, not_or]
    exact ⟨fun hmem ↦ hhost (mem_of_mem_trim hmem), hpassword⟩
  · rw [if_neg hscheme, authorityText]
    dsimp only
    rw [List.mem_append, List.mem_append]
    rintro (hmem | hmem | hmem)
    · cases hui : p.userinfo with
      | none =>
          rw [hui] at hmem
          cases hmem
      | some ui =>
          rw [hui, userText_readUserinfo, List.mem_append] at hmem
          rcases hmem with hmem | hmem
          · exact huser ui hui hmem
          · split at hmem
            · cases hmem
            · exact hc.2.1 (List.mem_singleton.mp hmem)
    · rcases mem_hostForWire hmem with h | h | h
      · exact hhost (splitHostPort_subset _ h)
      · exact hc.2.2.1 h
      · exact hc.2.2.2.1 h
    · exact hport _ hmem

namespace FieldKind

variable {α : Type} {k : FieldKind α}

theorem joined_of_ne_nil {xs : List α} (h : xs ≠ []) : k.joined xs = some (k.join xs) :=
  if_neg (by simpa using h)

theorem readAll_joined (s : Str) :
    k.readAll ((k.joined (k.readAll s)).getD []) = k.readAll s := by
  by_cases h : k.readAll s = []
  · rw [h]
    exact readAll_nil
  · rw [joined_of_ne_nil h, Option.getD_some, readAll_join]

theorem not_mem_joined {c : Char} (hc : c.isAlpha = false) (hsep : c ≠ k.sep) {s : Str}
    (hs : c ∉ s) : ∀ t ∈ k.joined (k.readAll s), c ∉ t := by
  intro t ht hmem
  have htext : ∀ t ∈ (k.readAll s).map k.text, ∀ x ∈ t, x ≠ c := by
    intro t ht x hx heq
    obtain ⟨y, hy, rfl⟩ := List.mem_map.mp ht
    obtain ⟨piece, hpiece, hread⟩ := List.mem_filterMap.mp hy
    have hsub := (not_mem_of_mem_splitOn (List.mem_filter.mp hpiece).1).2
    refine hs (hsub ?_)
    rw [← mem_lower_iff hc, ← k.lower_text piece y hread, mem_lower_iff hc]
    exact heq ▸ hx
  unfold joined at ht
  split at ht
  · cases ht
  · obtain rfl := Option.some.inj ht
    exact forall_mem_intercalate (by simpa using hsep.symm) htext c hmem rfl

end FieldKind

theorem Uri.pieces_show {p : Uri.Pieces} (hscheme : p.scheme ∈ (["sip", "sips", "tel"] : List Str)) :
    Uri.pieces p.uri.show = some (cutRest p.scheme (trimEnd
      (authorityText (readAuthority p.scheme p.userinfo p.hostport) ++
        (behind ';' (paramKind.joined (paramKind.readAll p.params)) ++
          behind '?' (headerKind.joined (headerKind.readAll p.headers)))))) := by
  have hall : ∀ t ∈ (["sip", "sips", "tel"] : List Str),
      ':' ∉ t ∧ trimStart t = t ∧ trim t = t ∧ lower t = t := by decide
  obtain ⟨hcolon, hstart, htrim, hlower⟩ := hall _ hscheme
  have hshow := Uri.show_eq p.uri
  rw [Uri.pieces, hshow, trim_append_cons _ _ (by decide)]
  have hsame : p.uri.scheme = p.scheme := rfl
  rw [hsame, hstart, splitAt_append_cons hcolon, Option.bind_some, htrim, hlower, if_pos hscheme]
  rfl

/-- What is read of the text without white space at its end decides. -/
theorem Uri.parse_show_of_trim {p : Uri.Pieces} (hp : p.Clean) {auth : Str}
    (params headers : Option Str) (hauth : '?' ∉ auth ∧ ';' ∉ auth)
    (hread : readAuthority p.scheme (cutUserinfo auth).1 (cutUserinfo auth).2 =
      readAuthority p.scheme
        (cutUserinfo (authorityText (readAuthority p.scheme p.userinfo p.hostport))).1
        (cutUserinfo (authorityText (readAuthority p.scheme p.userinfo p.hostport))).2)
    (hparams : ∀ ps ∈ params, '?' ∉ ps)
    (htrim : trimEnd (authorityText (readAuthority p.scheme p.userinfo p.hostport) ++
        (behind ';' (paramKind.joined (paramKind.readAll p.params)) ++
          behind '?' (headerKind.joined (headerKind.readAll p.headers)))) =
      auth ++ (behind ';' params ++ behind '?' headers)) :
    Uri.parse p.uri.show = some p.uri ↔
      AuthorityKept p.scheme p.userinfo p.hostport ∧
        paramKind.readAll (params.getD []) = paramKind.readAll p.params ∧
          headerKind.readAll (headers.getD []) = headerKind.readAll p.headers := by
  rw [Uri.parse_eq_pieces, Uri.pieces_show hp.scheme, Option.map_some, Option.some.injEq, htrim,
    cutRest_text p.scheme hauth hparams]
  have hcut := Uri.Pieces.uri_eq_iff (q := p) (p :=
    { scheme := p.scheme
      userinfo := (cutUserinfo auth).1
      hostport := (cutUserinfo auth).2
      params := params.getD []
      headers := headers.getD [] }) rfl
  dsimp only at hcut
  rw [hcut, hread, readAuthority_text_iff p.scheme p.userinfo hp.hostport.1]

theorem Uri.parse_show_pieces {p : Uri.Pieces} (hp : p.Clean) :
    Uri.parse p.uri.show = some p.uri ↔ p.Kept := by
  have hauth : '?' ∉ authorityText (readAuthority p.scheme p.userinfo p.hostport) ∧
      ';' ∉ authorityText (readAuthority p.scheme p.userinfo p.hostport) :=
    ⟨not_mem_authorityText (by decide) (fun ui hui ↦ (hp.userinfo ui hui).1) hp.hostport.2.1,
      not_mem_authorityText (by decide) (fun ui hui ↦ (hp.userinfo ui hui).2) hp.hostport.2.2⟩
  have hparams : ∀ ps ∈ paramKind.joined (paramKind.readAll p.params), '?' ∉ ps :=
    FieldKind.not_mem_joined (by decide) (by decide) hp.params
  by_cases hheaders : headerKind.readAll p.headers = []
  · have hnone : headerKind.joined (headerKind.readAll p.headers) = none := by
      rw [hheaders]
      rfl
    have hlast : (paramKind.pieces p.params ++ headerKind.pieces p.headers).getLast? =
        (paramKind.pieces p.params).getLast? := by
      rw [FieldKind.readAll_eq_nil_iff.mp hheaders, List.append_nil]
    by_cases hps : paramKind.readAll p.params = []
    -- Nothing stands behind the host.
    · have hauth' : '?' ∉ trimEnd (authorityText (readAuthority p.scheme p.userinfo p.hostport)) ∧
          ';' ∉ trimEnd (authorityText (readAuthority p.scheme p.userinfo p.hostport)) :=
        ⟨fun hmem ↦ hauth.1 ((List.rdropWhile_prefix _ _).subset hmem),
          fun hmem ↦ hauth.2 ((List.rdropWhile_prefix _ _).subset hmem)⟩
      rw [Uri.parse_show_of_trim hp none none hauth'
        (readAuthority_trimEnd _ _) (by rintro ps ⟨⟩)
        (by rw [hnone, hps, FieldKind.joined, List.isEmpty_nil, if_pos rfl, behind, behind,
          List.append_nil, List.append_nil, List.append_nil])]
      constructor
      · rintro ⟨ha, -, -⟩
        refine ⟨ha, ?_⟩
        rw [hlast, FieldKind.readAll_eq_nil_iff.mp hps]
        rintro t ⟨⟩
      · intro h
        exact ⟨h.authority, hps ▸ FieldKind.readAll_nil, hheaders ▸ FieldKind.readAll_nil⟩
    -- The last parameter is at the end.
    · have hsome := FieldKind.joined_of_ne_nil (k := paramKind) hps
      have hparams' : ∀ ps ∈ some (trimEnd (paramKind.join (paramKind.readAll p.params))),
          '?' ∉ ps := by
        rintro ps ⟨⟩ hmem
        exact hparams _ hsome ((List.rdropWhile_prefix _ _).subset hmem)
      rw [Uri.parse_show_of_trim hp (some _) none hauth rfl hparams'
        (by
          rw [hnone, hsome, behind, behind, behind, List.append_nil, List.append_nil]
          exact trimEnd_append_cons _ _ (by decide))]
      rw [Option.getD_some, FieldKind.readAll_trimEnd_join, FieldKind.trimEnd_join_iff hps]
      constructor
      · rintro ⟨ha, ht, -⟩
        exact ⟨ha, hlast ▸ ht⟩
      · intro h
        exact ⟨h.authority, hlast ▸ h.last, hheaders ▸ FieldKind.readAll_nil⟩
  -- The last header is at the end.
  · have hsome := FieldKind.joined_of_ne_nil (k := headerKind) hheaders
    have hlast : (paramKind.pieces p.params ++ headerKind.pieces p.headers).getLast? =
        (headerKind.pieces p.headers).getLast? :=
      List.getLast?_append_of_ne_nil _ (mt FieldKind.readAll_eq_nil_iff.mpr hheaders)
    rw [Uri.parse_show_of_trim hp _ (some (trimEnd (headerKind.join (headerKind.readAll p.headers))))
      hauth rfl hparams
      (by
        rw [hsome, behind, ← List.append_assoc, trimEnd_append_cons _ _ (by decide),
          List.append_assoc]
        rfl)]
    rw [FieldKind.readAll_joined, Option.getD_some, FieldKind.readAll_trimEnd_join,
      FieldKind.trimEnd_join_iff hheaders]
    constructor
    · rintro ⟨ha, -, ht⟩
      exact ⟨ha, hlast ▸ ht⟩
    · intro h
      exact ⟨h.authority, rfl, hlast ▸ h.last⟩

/-- A URI survives being written out exactly when its pieces find their places again. -/
theorem Uri.parse_show_iff (s : Str) :
    (∀ u, Uri.parse s = some u → Uri.parse u.show = some u) ↔
      ∀ p, Uri.pieces s = some p → p.Kept := by
  constructor
  · intro h p hp
    refine (Uri.parse_show_pieces (Uri.clean_of_pieces hp)).mp (h p.uri ?_)
    rw [Uri.parse_eq_pieces, hp, Option.map_some]
  · intro h u hu
    rw [Uri.parse_eq_pieces, Option.map_eq_some_iff] at hu
    obtain ⟨p, hp, rfl⟩ := hu
    exact (Uri.parse_show_pieces (Uri.clean_of_pieces hp)).mpr (h p hp)

/-- A user without a host comes back as a host, and the password of a number as part of it. -/
theorem Uri.parse_show_changed :
    (∃ u, Uri.parse "sip:user@" = some u ∧ Uri.parse u.show ≠ some u) ∧
      ∃ u, Uri.parse "tel:a:b@c" = some u ∧ Uri.parse u.show ≠ some u := by
  constructor
  · exact ⟨_, rfl, by decide⟩
  · exact ⟨_, rfl, by decide⟩

/-- URIs that survive are told apart by their texts. -/
theorem Uri.eq_of_show_eq {p q : Uri.Pieces} (hp : p.Clean) (hq : q.Clean) (hpk : p.Kept)
    (hqk : q.Kept) (h : p.uri.show = q.uri.show) : p.uri = q.uri := by
  have hpu := (Uri.parse_show_pieces hp).mpr hpk
  rw [h, (Uri.parse_show_pieces hq).mpr hqk] at hpu
  exact (Option.some.inj hpu).symm

end Modem2Sip.Sip
