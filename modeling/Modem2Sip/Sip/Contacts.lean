import Modem2Sip.Sip.UriRoundTrip

/-!
# Lists of name-addr values

`split_contacts` in `sip/core.rs` and `NameAddr::parse` in `sip/uri.rs`.  Both know quotation
marks and angle brackets, and neither knows the backslash that takes the meaning from a
quotation mark.  What either of them does is first said for any text, then for the entries of
a field, whose display names and values are quoted the way the grammar of SIP asks for.
-/

namespace Modem2Sip.Sip

open Text

/-! ## Text whose marks have their partners -/

/-- Read without regard to backslashes, every quotation mark and every opening bracket has its
partner, and commas only stand between partners. -/
inductive Paired : Str → Prop
  | nil : Paired []
  | other {c : Char} {s : Str} (hc : c ≠ '"' ∧ c ≠ '<' ∧ c ≠ ',') (hs : Paired s) :
      Paired (c :: s)
  | quoted {q s : Str} (hq : '"' ∉ q) (hs : Paired s) : Paired ('"' :: q ++ '"' :: s)
  | angled {q s : Str} (hq : '>' ∉ q) (hs : Paired s) : Paired ('<' :: q ++ '>' :: s)

theorem Paired.append {a b : Str} (ha : Paired a) (hb : Paired b) : Paired (a ++ b) := by
  induction ha with
  | nil => exact hb
  | other hc _ ih => exact .other hc ih
  | quoted hq _ ih =>
      rw [List.append_assoc, List.cons_append]
      exact .quoted hq ih
  | angled hq _ ih =>
      rw [List.append_assoc, List.cons_append]
      exact .angled hq ih

/-- What is not paired has a comma on its own, or a mark without a partner. -/
inductive Unpaired : Str → Prop
  | comma {a : Str} (ha : Paired a) (b : Str) : Unpaired (a ++ ',' :: b)
  | quote {a q : Str} (ha : Paired a) (hq : '"' ∉ q) : Unpaired (a ++ '"' :: q)
  | angle {a q : Str} (ha : Paired a) (hq : '>' ∉ q) : Unpaired (a ++ '<' :: q)

theorem Unpaired.append {a s : Str} (ha : Paired a) (hs : Unpaired s) : Unpaired (a ++ s) := by
  cases hs with
  | comma hb b =>
      rw [← List.append_assoc]
      exact .comma (ha.append hb) b
  | quote hb hq =>
      rw [← List.append_assoc]
      exact .quote (ha.append hb) hq
  | angle hb hq =>
      rw [← List.append_assoc]
      exact .angle (ha.append hb) hq

theorem paired_or_unpaired (s : Str) : Paired s ∨ Unpaired s := by
  -- Induction on the length, since a pair is passed over in one step.
  induction hn : s.length using Nat.strongRecOn generalizing s with
  | _ n ih =>
    cases s with
    | nil => exact .inl .nil
    | cons c s =>
        -- What stands before the rest is paired.
        have hrest (a t : Str) (ha : Paired a) (hlt : t.length < n) :
            Paired (a ++ t) ∨ Unpaired (a ++ t) := by
          rcases ih t.length hlt t rfl with h | h
          · exact .inl (ha.append h)
          · exact .inr (h.append ha)
        by_cases hquote : c = '"'
        · subst hquote
          by_cases hmem : '"' ∈ s
          · obtain ⟨q, t, rfl, hq⟩ := List.eq_append_cons_of_mem hmem
            have h := hrest ('"' :: q ++ '"' :: []) t (.quoted hq .nil)
              (by rw [← hn]; simp only [List.length_cons, List.length_append]; omega)
            simpa using h
          · exact .inr (.quote .nil hmem)
        · by_cases hangle : c = '<'
          · subst hangle
            by_cases hmem : '>' ∈ s
            · obtain ⟨q, t, rfl, hq⟩ := List.eq_append_cons_of_mem hmem
              have h := hrest ('<' :: q ++ '>' :: []) t (.angled hq .nil)
                (by rw [← hn]; simp only [List.length_cons, List.length_append]; omega)
              simpa using h
            · exact .inr (.angle .nil hmem)
          · by_cases hcomma : c = ','
            · subst hcomma
              exact .inr (.comma .nil s)
            · exact hrest [c] s (.other ⟨hquote, hangle, hcomma⟩ .nil)
                (by rw [← hn, List.length_cons]; omega)

/-! ## The scanner -/

/-- Put a text in front of the first piece. -/
def inFront (a : Str) (pieces : List Str) : List Str := pieces.modifyHead (a ++ ·)

@[simp] theorem inFront_cons (a p : Str) (ps : List Str) : inFront a (p :: ps) = (a ++ p) :: ps := rfl

theorem inFront_nil (ps : List Str) : inFront [] ps = ps := by
  cases ps with
  | nil => rfl
  | cons p ps => rfl

theorem inFront_append (a b : Str) (ps : List Str) :
    inFront (a ++ b) ps = inFront a (inFront b ps) := by
  cases ps with
  | nil => rfl
  | cons p ps => rw [inFront_cons, inFront_cons, inFront_cons, List.append_assoc]

theorem modifyHead_eq_inFront (c : Char) (ps : List Str) :
    ps.modifyHead (c :: ·) = inFront [c] ps := rfl

theorem splitContactsFrom_other {c : Char} (hc : c ≠ '"' ∧ c ≠ '<' ∧ c ≠ ',') (s : Str) :
    splitContactsFrom false false (c :: s) = inFront [c] (splitContactsFrom false false s) := by
  rw [splitContactsFrom, if_neg (fun h ↦ hc.1 h.1), if_neg (fun h ↦ hc.2.1 h.1)]
  by_cases hclose : c = '>'
  · rw [if_pos ⟨hclose, by decide⟩, modifyHead_eq_inFront]
  · rw [if_neg (fun h ↦ hclose h.1), if_neg (fun h ↦ hc.2.2 h.1), modifyHead_eq_inFront]

/-- Behind a quotation mark everything is passed over up to the next one. -/
theorem splitContactsFrom_inQuote {q : Str} (hq : '"' ∉ q) (s : Str) :
    splitContactsFrom false true (q ++ s) = inFront q (splitContactsFrom false true s) := by
  induction q with
  | nil => exact (inFront_nil _).symm
  | cons c q ih =>
      obtain ⟨hc, hq⟩ := Lines.ne_of_not_mem_cons hq
      rw [List.cons_append, splitContactsFrom, if_neg (fun h ↦ hc h.1), if_neg (by simp),
        if_neg (by simp), if_neg (by simp), ih hq, modifyHead_eq_inFront, ← inFront_append]
      rfl

/-- And behind an opening bracket up to the closing one. -/
theorem splitContactsFrom_inAngle {q : Str} (hq : '>' ∉ q) (s : Str) :
    splitContactsFrom true false (q ++ s) = inFront q (splitContactsFrom true false s) := by
  induction q with
  | nil => exact (inFront_nil _).symm
  | cons c q ih =>
      obtain ⟨hc, hq⟩ := Lines.ne_of_not_mem_cons hq
      have hstep : splitContactsFrom true false (c :: (q ++ s)) =
          inFront [c] (splitContactsFrom true false (q ++ s)) := by
        rw [splitContactsFrom, if_neg (by simp)]
        by_cases hopen : c = '<'
        · rw [if_pos ⟨hopen, by decide⟩, modifyHead_eq_inFront]
        · rw [if_neg (fun h ↦ hopen h.1), if_neg (fun h ↦ hc h.1), if_neg (by simp),
            modifyHead_eq_inFront]
      rw [List.cons_append, hstep, ih hq, ← inFront_append]
      rfl

theorem splitContactsFrom_quote (s : Str) :
    splitContactsFrom false false ('"' :: s) = inFront ['"'] (splitContactsFrom false true s) := rfl

theorem splitContactsFrom_angle (s : Str) :
    splitContactsFrom false false ('<' :: s) = inFront ['<'] (splitContactsFrom true false s) := rfl

/-- A paired text is passed over as a whole. -/
theorem splitContactsFrom_paired {a : Str} (ha : Paired a) (s : Str) :
    splitContactsFrom false false (a ++ s) = inFront a (splitContactsFrom false false s) := by
  induction ha with
  | nil => exact (inFront_nil _).symm
  | other hc _ ih =>
      rw [List.cons_append, splitContactsFrom_other hc, ih, ← inFront_append]
      rfl
  | @quoted q t hq _ ih =>
      have hclose : splitContactsFrom false true ('"' :: (t ++ s)) =
          inFront ['"'] (splitContactsFrom false false (t ++ s)) := rfl
      rw [List.append_assoc, List.cons_append, List.cons_append, splitContactsFrom_quote,
        splitContactsFrom_inQuote hq, hclose, ih, ← inFront_append, ← inFront_append,
        ← inFront_append]
      simp
  | @angled q t hq _ ih =>
      have hclose : splitContactsFrom true false ('>' :: (t ++ s)) =
          inFront ['>'] (splitContactsFrom false false (t ++ s)) := rfl
      rw [List.append_assoc, List.cons_append, List.cons_append, splitContactsFrom_angle,
        splitContactsFrom_inAngle hq, hclose, ih, ← inFront_append, ← inFront_append,
        ← inFront_append]
      simp

/-- Entries that are paired are told apart by the commas between them. -/
theorem splitContactsFrom_intercalate {t : Str} {ts : List Str} (h : ∀ x ∈ t :: ts, Paired x) :
    splitContactsFrom false false ([',', ' '].intercalate (t :: ts)) = t :: ts.map (' ' :: ·) := by
  induction ts generalizing t with
  | nil =>
      have hone := splitContactsFrom_paired (h t List.mem_cons_self) []
      rw [List.append_nil] at hone
      rw [List.intercalate_singleton, hone, splitContactsFrom, inFront_cons, List.append_nil]
      rfl
  | cons t' ts ih =>
      have hnext (s : Str) : splitContactsFrom false false (',' :: ' ' :: s) =
          [] :: inFront [' '] (splitContactsFrom false false s) := rfl
      rw [List.intercalate_cons_cons, List.append_assoc,
        splitContactsFrom_paired (h t List.mem_cons_self)]
      rw [List.cons_append, List.cons_append, List.nil_append, hnext,
        ih fun x hx ↦ h x (List.mem_cons_of_mem t hx), inFront_cons, inFront_cons, List.append_nil,
        List.map_cons]
      rfl

theorem splitContacts_intercalate {ts : List Str} (h : ∀ t ∈ ts, Paired t)
    (htrim : ∀ t ∈ ts, trim t = t) (hne : ∀ t ∈ ts, t ≠ []) :
    splitContacts ([',', ' '].intercalate ts) = ts := by
  cases ts with
  | nil => rfl
  | cons t ts =>
      have hblank : (ts.map (' ' :: ·)).map trim = ts := by
        have hsame : ∀ x ∈ ts, (trim ∘ (' ' :: ·)) x = id x := by
          intro x hx
          exact (htrim x (List.mem_cons_of_mem t hx) : trim x = x)
        rw [List.map_map, List.map_congr_left hsame, List.map_id]
      rw [splitContacts, splitContactsFrom_intercalate h, List.map_cons, hblank,
        htrim t List.mem_cons_self, List.filter_eq_self]
      intro x hx
      simpa using hne x hx

theorem exists_splitContactsFrom (i q : Bool) (s : Str) :
    ∃ p ps, splitContactsFrom i q s = p :: ps := by
  refine List.exists_cons_of_ne_nil ?_
  induction s generalizing i q with
  | nil => exact List.cons_ne_nil _ _
  | cons c s ih =>
      rw [splitContactsFrom]
      split
      · exact mt List.modifyHead_eq_nil_iff.mp (ih i (!q))
      · split
        · exact mt List.modifyHead_eq_nil_iff.mp (ih true q)
        · split
          · exact mt List.modifyHead_eq_nil_iff.mp (ih false q)
          · split
            · exact List.cons_ne_nil _ _
            · exact mt List.modifyHead_eq_nil_iff.mp (ih i q)

/-- The first piece of an unpaired text ends too soon, or not before the comma that follows. -/
theorem splitContactsFrom_unpaired {t : Str} (ht : Unpaired t) (s : Str) :
    ∃ p ps, splitContactsFrom false false (t ++ ',' :: s) = p :: ps ∧
      ((∃ u, t = p ++ ',' :: u) ∨ ∃ u, p = t ++ ',' :: u) := by
  cases ht with
  | @comma a ha b =>
      refine ⟨a, splitContactsFrom false false (b ++ ',' :: s), ?_, .inl ⟨b, rfl⟩⟩
      have hcut : splitContactsFrom false false (',' :: (b ++ ',' :: s)) =
          [] :: splitContactsFrom false false (b ++ ',' :: s) := rfl
      rw [List.append_assoc, List.cons_append, splitContactsFrom_paired ha, hcut, inFront_cons,
        List.append_nil]
  | @quote a q ha hq =>
      obtain ⟨u, us, hu⟩ := exists_splitContactsFrom false true s
      refine ⟨a ++ '"' :: q ++ ',' :: u, us, ?_, .inr ⟨u, rfl⟩⟩
      have hpass : splitContactsFrom false true (',' :: s) =
          inFront [','] (splitContactsFrom false true s) := rfl
      rw [List.append_assoc, List.cons_append, splitContactsFrom_paired ha, splitContactsFrom_quote,
        splitContactsFrom_inQuote hq, hpass, hu]
      simp
  | @angle a q ha hq =>
      obtain ⟨u, us, hu⟩ := exists_splitContactsFrom true false s
      refine ⟨a ++ '<' :: q ++ ',' :: u, us, ?_, .inr ⟨u, rfl⟩⟩
      have hpass : splitContactsFrom true false (',' :: s) =
          inFront [','] (splitContactsFrom true false s) := rfl
      rw [List.append_assoc, List.cons_append, splitContactsFrom_paired ha, splitContactsFrom_angle,
        splitContactsFrom_inAngle hq, hpass, hu]
      simp

theorem splitContacts_unpaired {c : Char} {t : Str} (hc : isWhitespace c = false) (hcomma : c ≠ ',')
    (ht : Unpaired (c :: t)) (s : Str) :
    (splitContacts (c :: t ++ ',' :: s)).head? ≠ some (c :: t) := by
  obtain ⟨p, ps, hsplit, hp⟩ := splitContactsFrom_unpaired ht s
  -- The first piece begins like the text, so that it is not dropped.
  obtain ⟨p, rfl⟩ : ∃ p', p = c :: p' := by
    rcases hp with ⟨u, hu⟩ | ⟨u, rfl⟩
    · cases p with
      | nil => exact absurd (List.cons.inj hu).1 hcomma
      | cons x p => exact ⟨p, by rw [(List.cons.inj hu).1]⟩
    · exact ⟨t ++ ',' :: u, rfl⟩
  have htrim : trim (c :: p) = c :: trimEnd p := trim_append_cons [] p hc
  have hhead : (splitContacts (c :: t ++ ',' :: s)).head? = some (c :: trimEnd p) := by
    rw [splitContacts, hsplit, List.map_cons, htrim, List.filter_cons_of_pos (by simp)]
    rfl
  rw [hhead]
  intro heq
  have hlength := congrArg List.length (Option.some.inj heq)
  rcases hp with ⟨u, hu⟩ | ⟨u, hu⟩
  · have hle := length_trimEnd_le p
    have hlong := congrArg List.length hu
    simp only [List.length_cons, List.length_append] at hlength hlong
    omega
  · have hp : p = t ++ ',' :: u := (List.cons.inj hu).2
    have hend : trimEnd (t ++ ',' :: u) = t ++ ',' :: trimEnd u := trimEnd_append_cons t u (by decide)
    rw [hp, hend] at hlength
    simp only [List.length_cons, List.length_append] at hlength
    omega

/-! ## Entries -/

/-- The text of a quoted string: quotation marks and backslashes have a backslash before them. -/
def escape (s : Str) : Str := s.flatMap fun c ↦ if c = '"' ∨ c = '\\' then ['\\', c] else [c]

theorem mem_escape_iff {c : Char} (hc : c ≠ '\\') {s : Str} : c ∈ escape s ↔ c ∈ s := by
  rw [escape, List.mem_flatMap]
  constructor
  · rintro ⟨x, hx, hmem⟩
    split at hmem
    · rcases List.mem_cons.mp hmem with h | h
      · exact absurd h hc
      · exact List.mem_singleton.mp h ▸ hx
    · exact List.mem_singleton.mp hmem ▸ hx
  · intro h
    refine ⟨c, h, ?_⟩
    split
    · exact List.mem_cons_of_mem _ List.mem_cons_self
    · exact List.mem_cons_self

/-- A name or a value without quotation marks around it. -/
structure BareWord (s : Str) : Prop where
  ne_nil : s ≠ []
  chars : ∀ c ∈ s, isWhitespace c = false ∧ c ∉ ['"', '<', '>', ',', ';', '=']

theorem BareWord.trim {s : Str} (h : BareWord s) : Text.trim s = s := trim_eq_self fun c hc ↦ (h.chars c hc).1

theorem BareWord.not_mem {s : Str} (h : BareWord s) {c : Char} (hc : c ∈ ['"', '<', '>', ',', ';', '=']) :
    c ∉ s := fun hmem ↦ (h.chars c hmem).2 hc

inductive FieldValue where
  | absent
  | word (t : Str) (ht : BareWord t)
  | quoted (t : Str)

/-- The value as it is written, and as it is kept. -/
def FieldValue.raw : FieldValue → Str
  | .absent => []
  | .word t _ => t
  | .quoted t => '"' :: escape t ++ ['"']

/-- A parameter of a field: `tag=x`, `lr`, `+sip.instance="<urn:uuid:1>"`. -/
structure FieldParam where
  name : Str
  value : FieldValue
  word : BareWord name

namespace FieldParam

variable (p : FieldParam)

def text : Str :=
  match p.value with
  | .absent => p.name
  | .word t _ => p.name ++ '=' :: t
  | .quoted t => p.name ++ '=' :: '"' :: escape t ++ ['"']

/-- What is to be kept of it: names are kept in lower case. -/
def kept : Str × Str := (lower p.name, p.value.raw)

/-- A quoted value has no semicolon. -/
def Whole : Prop := ∀ t, p.value = .quoted t → ';' ∉ t

variable {p}

theorem trim_raw (v : FieldValue) : trim v.raw = v.raw := by
  cases v with
  | absent => rfl
  | word t ht => exact ht.trim
  | quoted t =>
      refine (trim_append_cons ('"' :: escape t) [] (by decide)).trans ?_
      rw [trimStart_cons (by decide)]
      rfl

theorem text_eq : p.text = p.name ∨ p.text = p.name ++ '=' :: p.value.raw := by
  unfold text
  cases p.value with
  | absent => exact .inl rfl
  | word t ht => exact .inr rfl
  | quoted t => exact .inr (List.append_assoc _ _ _)

theorem trim_text : trim p.text = p.text := by
  rcases text_eq (p := p) with h | h
  · rw [h, p.word.trim]
  · have hname : trimStart p.name = p.name :=
      trimStart_of_forall fun c hc ↦ (p.word.chars c hc).1
    have hraw : trimEnd p.value.raw = p.value.raw := by
      rw [← trim_raw, trimEnd_trim]
    rw [h, trim_append_cons _ _ (by decide), hname, hraw]

theorem parseFieldParam_text : NameAddr.parseFieldParam p.text = p.kept := by
  have heq := p.word.not_mem (c := '=') (by decide)
  have hvalue (v : Str) (hv : trim v = v) :
      NameAddr.parseFieldParam (p.name ++ '=' :: v) = (lower p.name, v) := by
    rw [NameAddr.parseFieldParam, splitAt_append_cons heq]
    dsimp only
    rw [p.word.trim, hv]
  unfold kept text
  have hraw := trim_raw p.value
  cases hp : p.value with
  | absent =>
      dsimp only
      rw [NameAddr.parseFieldParam, splitAt_eq_none heq]
      rfl
  | word t ht =>
      rw [hp] at hraw
      exact hvalue t hraw
  | quoted t =>
      rw [hp] at hraw
      have h := hvalue _ hraw
      dsimp only
      rw [List.append_assoc]
      exact h

theorem text_cons (p : FieldParam) : ∃ c t, p.text = c :: t ∧ isWhitespace c = false ∧ c ≠ ';' := by
  obtain ⟨c, n, hn⟩ := List.exists_cons_of_ne_nil p.word.ne_nil
  have hmem : c ∈ p.name := hn ▸ List.mem_cons_self
  have hc := p.word.chars c hmem
  refine ⟨c, ?_⟩
  rcases text_eq (p := p) with h | h
  · exact ⟨n, h.trans hn, hc.1, fun heq ↦ hc.2 (by rw [heq]; decide)⟩
  · exact ⟨n ++ '=' :: p.value.raw, by rw [h, hn, List.cons_append], hc.1,
      fun heq ↦ hc.2 (by rw [heq]; decide)⟩

theorem semicolon_not_mem_text_iff : ';' ∉ p.text ↔ p.Whole := by
  have hname := p.word.not_mem (c := ';') (by decide)
  unfold Whole text
  cases hp : p.value with
  | absent => simp [hname]
  | word t ht => simp [hname, ht.not_mem (c := ';') (by decide)]
  | quoted t => simp [hname, mem_escape_iff (c := ';') (by decide)]

end FieldParam

/-- An entry but for its URI. -/
structure Shape where
  display : Option Str
  params : List FieldParam

namespace Shape

variable (sh : Shape)

/-- What stands in front of the URI. -/
def front : Str :=
  match sh.display with
  | some d => '"' :: escape d ++ ['"', ' ']
  | none => []

/-- What stands behind it. -/
def back : Str := sh.params.flatMap fun p ↦ ';' :: p.text

/-- The display name has no quotation mark. -/
def Plain : Prop := ∀ d, sh.display = some d → '"' ∉ d

/-- What the scanners need: no quotation mark in the display name, no semicolon in a quoted
value, and the marks and commas of the parameters in pairs. -/
structure Legible : Prop where
  display : sh.Plain
  whole : ∀ p ∈ sh.params, p.Whole
  paired : Paired sh.back

end Shape

/-- A URI in angle brackets, with what is around it. -/
structure Entry where
  shape : Shape
  target : Str
  uri : Uri
  no_close : '>' ∉ target
  parse : Uri.parse target = some uri

namespace Entry

variable (e : Entry)

def text : Str := e.shape.front ++ '<' :: e.target ++ '>' :: e.shape.back

end Entry

/-- The entries are told apart, and each of them gives its URI and its parameters. -/
structure ReadBack (es : List Entry) : Prop where
  split : splitContacts ([',', ' '].intercalate (es.map Entry.text)) = es.map Entry.text
  parse : ∀ e ∈ es, ∃ n, NameAddr.parse e.text = some n ∧ n.uri = e.uri ∧
    n.params = e.shape.params.map FieldParam.kept

/-! ## One entry -/

namespace Shape

variable {sh : Shape}

theorem back_eq (hne : sh.params ≠ []) :
    sh.back = ';' :: [';'].intercalate (sh.params.map FieldParam.text) := by
  obtain ⟨p, ps, hps⟩ := List.exists_cons_of_ne_nil hne
  rw [back, hps, List.flatMap_cons, List.map_cons, Lines.intercalate_cons, List.flatMap_map]
  rfl

theorem trimEnd_back : trimEnd sh.back = sh.back := by
  rcases List.eq_nil_or_concat sh.params with hnil | ⟨ps, p, hps⟩
  · rw [back, hnil]
    rfl
  · obtain ⟨c, t, htext, -, -⟩ := p.text_cons
    have htrim : trimEnd p.text = p.text := by
      rw [← FieldParam.trim_text, trimEnd_trim]
    have hback : sh.back = (ps.flatMap fun p ↦ ';' :: p.text) ++ [';'] ++ p.text := by
      rw [back, hps, List.concat_eq_append, List.flatMap_append]
      simp
    rw [hback]
    exact trimEnd_append _ (by simp [htext]) htrim

theorem trimStart_back : trimStart sh.back = sh.back := by
  cases hps : sh.params with
  | nil =>
      rw [back, hps]
      rfl
  | cons p ps =>
      rw [back_eq (by simp [hps])]
      exact trimStart_cons (by decide) _

/-- The pieces between the semicolons. -/
def fieldPieces (sh : Shape) : List Str :=
  (((trimStartMatches ';' sh.back).splitOn ';').map trim).filter (· != [])

theorem trimStartMatches_back : trimStartMatches ';' sh.back =
    [';'].intercalate (sh.params.map FieldParam.text) := by
  cases hps : sh.params with
  | nil =>
      rw [back, hps]
      rfl
  | cons p ps =>
      obtain ⟨c, t, htext, -, hc⟩ := p.text_cons
      have hjoin : [';'].intercalate ((p :: ps).map FieldParam.text) =
          c :: (t ++ (ps.map FieldParam.text).flatMap ([';'] ++ ·)) := by
        rw [List.map_cons, Lines.intercalate_cons, htext]
        rfl
      rw [back_eq (by simp [hps]), hps, hjoin, trimStartMatches,
        List.dropWhile_cons_of_pos (by decide), List.dropWhile_cons_of_neg (by simpa using hc)]

/-- The pieces are the parameters if these are whole. -/
theorem fieldPieces_of_whole (h : ∀ p ∈ sh.params, p.Whole) :
    sh.fieldPieces = sh.params.map FieldParam.text := by
  have hsplit (hne : sh.params ≠ []) : ([';'].intercalate (sh.params.map FieldParam.text)).splitOn ';' =
      sh.params.map FieldParam.text := by
    refine List.splitOn_intercalate ';' ?_ (by simpa using hne)
    intro t ht
    obtain ⟨p, hp, rfl⟩ := List.mem_map.mp ht
    exact FieldParam.semicolon_not_mem_text_iff.mpr (h p hp)
  have htrim : (sh.params.map FieldParam.text).map trim = sh.params.map FieldParam.text := by
    rw [List.map_map]
    exact List.map_congr_left fun p _ ↦ FieldParam.trim_text
  rw [fieldPieces, trimStartMatches_back]
  by_cases hne : sh.params = []
  · rw [hne]
    rfl
  · rw [hsplit hne, htrim, List.filter_eq_self]
    intro t ht
    obtain ⟨p, hp, rfl⟩ := List.mem_map.mp ht
    obtain ⟨c, t, htext, -, -⟩ := p.text_cons
    simp [htext]

/-- The pieces between semicolons that are not blank. -/
def found (s : Str) : List Str := ((s.splitOn ';').map trim).filter (· != [])

theorem found_append (a b : Str) : found (a ++ ';' :: b) = found a ++ found b := by
  rw [found, List.splitOn_append_cons_self, List.map_append, List.filter_append]
  rfl

theorem length_found_pos {s : Str} {c : Char} (hmem : c ∈ s) (hc : c ≠ ';')
    (hstays : isWhitespace c = false) : 0 < (found s).length := by
  obtain ⟨piece, hpiece, hin⟩ : ∃ piece ∈ s.splitOn ';', c ∈ piece := by
    by_contra hno
    have hall : ∀ piece ∈ s.splitOn ';', ∀ x ∈ piece, x ≠ c :=
      fun piece hpiece x hx heq ↦ hno ⟨piece, hpiece, heq ▸ hx⟩
    have hsep : ∀ x ∈ [';'], x ≠ c := by simpa using hc.symm
    refine forall_mem_intercalate hsep hall c ?_ rfl
    rwa [List.intercalate_splitOn]
  obtain ⟨a, b, rfl⟩ := List.append_of_mem hin
  refine List.length_pos_of_mem (a := trim (a ++ c :: b)) ?_
  refine List.mem_filter.mpr ⟨List.mem_map_of_mem hpiece, ?_⟩
  rw [trim_append_cons a b hstays]
  simp

/-- A parameter that is not whole is found in more than one piece. -/
theorem length_found_text (p : FieldParam) :
    0 < (found p.text).length ∧ (¬ p.Whole → 1 < (found p.text).length) := by
  obtain ⟨c, t, htext, hstays, hc⟩ := p.text_cons
  refine ⟨length_found_pos (htext ▸ List.mem_cons_self) hc hstays, fun hno ↦ ?_⟩
  have hmem : ';' ∈ p.text := by
    by_contra hmem
    exact hno (FieldParam.semicolon_not_mem_text_iff.mp hmem)
  obtain ⟨v, hv⟩ : ∃ v, p.value = .quoted v := by
    by_contra hall
    exact hno fun v hv ↦ absurd ⟨v, hv⟩ hall
  -- It begins with its name and ends with a quotation mark.
  have hend : p.text = p.name ++ '=' :: '"' :: escape v ++ ['"'] := by
    rw [FieldParam.text, hv]
  obtain ⟨a, b, hab, ha⟩ := List.eq_append_cons_of_mem hmem
  have hfirst : c ∈ a := by
    cases a with
    | nil =>
        rw [htext] at hab
        exact absurd (List.cons.inj hab).1 hc
    | cons x a =>
        rw [htext] at hab
        rw [(List.cons.inj hab).1]
        exact List.mem_cons_self
  have hlast : '"' ∈ b := by
    rcases List.eq_nil_or_concat b with hnil | ⟨b', x, hb⟩
    · rw [hnil, hend] at hab
      have h := (List.append_inj' hab rfl).2
      cases h
    · rw [hb, List.concat_eq_append, hend, ← List.cons_append, ← List.append_assoc] at hab
      have h := (List.append_inj' hab rfl).2
      rw [hb, List.concat_eq_append, ← h]
      exact List.mem_append_right b' List.mem_cons_self
  rw [hab, found_append, List.length_append]
  have h1 := length_found_pos hfirst hc hstays
  have h2 := length_found_pos hlast (by decide) (by decide)
  omega

theorem length_found_intercalate (ps : List FieldParam) :
    ps.length ≤ (found ([';'].intercalate (ps.map FieldParam.text))).length ∧
      ((∃ p ∈ ps, ¬ p.Whole) →
        ps.length < (found ([';'].intercalate (ps.map FieldParam.text))).length) := by
  induction ps with
  | nil =>
      refine ⟨Nat.zero_le _, ?_⟩
      rintro ⟨p, hp, -⟩
      cases hp
  | cons p ps ih =>
      obtain ⟨hpos, hmany⟩ := length_found_text p
      cases ps with
      | nil =>
          rw [List.map_singleton, List.intercalate_singleton, List.length_singleton]
          refine ⟨hpos, ?_⟩
          rintro ⟨q, hq, hno⟩
          rw [List.mem_singleton.mp hq] at hno
          exact hmany hno
      | cons q qs =>
          obtain ⟨hle, hlt⟩ := ih
          rw [List.map_cons, List.map_cons, List.intercalate_cons_cons, List.append_assoc,
            List.singleton_append, found_append, List.length_append, List.length_cons]
          rw [List.map_cons] at hle hlt
          refine ⟨by omega, ?_⟩
          rintro ⟨x, hx, hno⟩
          rcases List.mem_cons.mp hx with rfl | hx
          · have h := hmany hno
            omega
          · have h := hlt ⟨x, hx, hno⟩
            omega

/-- The pieces are more than the parameters if one of these is not whole. -/
theorem length_fieldPieces (h : ∃ p ∈ sh.params, ¬ p.Whole) :
    sh.params.length < sh.fieldPieces.length := by
  rw [fieldPieces, trimStartMatches_back]
  exact (length_found_intercalate sh.params).2 h

end Shape

namespace Entry

variable {e : Entry}

theorem text_cons (e : Entry) :
    ∃ c t, e.text = c :: t ∧ isWhitespace c = false ∧ c ≠ ',' := by
  unfold text Shape.front
  cases e.shape.display with
  | none => exact ⟨'<', _, rfl, by decide, by decide⟩
  | some d => exact ⟨'"', _, rfl, by decide, by decide⟩

theorem trim_text (e : Entry) : trim e.text = e.text := by
  have hstart : trimStart (e.shape.front ++ '<' :: e.target) = e.shape.front ++ '<' :: e.target := by
    unfold Shape.front
    cases e.shape.display with
    | none => exact trimStart_cons (by decide) _
    | some d => exact trimStart_cons (by decide) _
  rw [text, trim_append_cons _ _ (by decide), hstart, Shape.trimEnd_back]

theorem parseTarget_text (e : Entry) :
    NameAddr.parseTarget ('<' :: (e.target ++ '>' :: e.shape.back)) =
      some (e.target, e.shape.back) := by
  have hstrip : stripPrefix ['<'] ('<' :: (e.target ++ '>' :: e.shape.back)) =
      some (e.target ++ '>' :: e.shape.back) := stripPrefix_append ['<'] _
  rw [NameAddr.parseTarget, hstrip]
  dsimp only
  rw [splitAt_append_cons e.no_close, Option.bind_eq_bind, Option.bind_some, Shape.trimStart_back]

theorem parseDisplay_text (h : e.shape.Plain) :
    NameAddr.parseDisplay e.text =
      some (e.shape.display.map escape, '<' :: (e.target ++ '>' :: e.shape.back)) := by
  unfold text Shape.front
  cases hd : e.shape.display with
  | none =>
      have hstrip : stripPrefix ['"'] ([] ++ '<' :: e.target ++ '>' :: e.shape.back) = none := rfl
      rw [NameAddr.parseDisplay, hstrip]
      rfl
  | some d =>
      have hquote : '"' ∉ escape d := by
        rw [mem_escape_iff (by decide)]
        exact h d hd
      have hshape : ('"' :: escape d ++ ['"', ' ']) ++ '<' :: e.target ++ '>' :: e.shape.back =
          ['"'] ++ (escape d ++ '"' :: (' ' :: '<' :: (e.target ++ '>' :: e.shape.back))) := by simp
      rw [hshape, NameAddr.parseDisplay, stripPrefix_append]
      dsimp only
      rw [splitAt_append_cons hquote, Option.bind_eq_bind, Option.bind_some]
      rfl

theorem parse_text (h : e.shape.Plain) : NameAddr.parse e.text = some
    { display := e.shape.display.map escape
      uri := e.uri
      params := e.shape.fieldPieces.map NameAddr.parseFieldParam } := by
  rw [NameAddr.parse, e.trim_text, parseDisplay_text h]
  simp only [Option.bind_eq_bind, Option.bind_some, parseTarget_text, e.parse]
  rfl

/-- What stands in front of the parameters is paired, whatever the URI is. -/
theorem paired_text (h : e.shape.Plain) :
    ∃ a, e.text = a ++ e.shape.back ∧ Paired a := by
  refine ⟨e.shape.front ++ ('<' :: e.target ++ '>' :: []), by simp [text], ?_⟩
  refine Paired.append ?_ (.angled e.no_close .nil)
  unfold Shape.front
  cases hd : e.shape.display with
  | none => exact .nil
  | some d =>
      have hquote : '"' ∉ escape d := by
        rw [mem_escape_iff (by decide)]
        exact h d hd
      exact .quoted hquote (.other (by decide) .nil)

end Entry

/-! ## A quotation mark in the display name -/

/-- A long number, which no display name of a given length has room for. -/
def telTarget (n : Nat) : Str := "tel:" ++ List.replicate n '1'

def telUri (n : Nat) : Uri where
  scheme := "tel"
  user := some (List.replicate n '1')
  password := none
  host := []
  port := none
  params := []
  headers := []

theorem not_mem_number {c : Char} (hc : c ≠ '1') (n : Nat) : c ∉ List.replicate n '1' :=
  fun hmem ↦ hc (List.eq_of_mem_replicate hmem)

theorem not_mem_telTarget {c : Char} (hc : c ∉ ("tel:1" : Str)) (n : Nat) : c ∉ telTarget n := by
  have hsplit : ("tel:1" : Str) = "tel:" ++ ['1'] := rfl
  rw [hsplit, List.mem_append, not_or, List.mem_singleton] at hc
  rw [telTarget, List.mem_append, not_or]
  exact ⟨hc.1, not_mem_number hc.2 n⟩

theorem trim_number (n : Nat) : trim (List.replicate n '1') = List.replicate n '1' := by
  refine trim_eq_self fun c hc ↦ ?_
  rw [List.eq_of_mem_replicate hc]
  decide

theorem trimEnd_telTarget (n : Nat) : trimEnd (telTarget n) = telTarget n := by
  have h : trimEnd (List.replicate n '1') = List.replicate n '1' := by
    rw [← trim_number, trimEnd_trim]
  refine (trimEnd_append_cons "tel" (List.replicate n '1') (by decide)).trans ?_
  rw [h]
  rfl

theorem parse_telTarget (n : Nat) : Uri.parse (telTarget n) = some (telUri n) := by
  have hstart : trimStart (telTarget n) = telTarget n := trimStart_cons (by decide) _
  have htrim : trim (telTarget n) = telTarget n := by rw [trim, hstart, trimEnd_telTarget]
  have hsplit : Text.splitAt ':' (telTarget n) = some ("tel".toList, List.replicate n '1') :=
    splitAt_append_cons (a := "tel".toList) (by decide) _
  have hlower : lower (trim "tel".toList) = ("tel" : Str) := by decide
  have hcut (c : Char) (hc : c ≠ '1') :
      Uri.cut c (List.replicate n '1') = (List.replicate n '1', none) := by
    rw [Uri.cut, splitAt_eq_none (not_mem_number hc n)]
  rw [Uri.parse_eq_pieces, Uri.pieces, htrim, hsplit, Option.bind_some]
  dsimp only
  rw [hlower, if_pos (by decide), cutRest, hcut '?' (by decide)]
  dsimp only
  rw [hcut ';' (by decide)]
  dsimp only
  rw [cutUserinfo_of_not_mem (not_mem_number (by decide) n), Option.map_some, Uri.Pieces.uri,
    readAuthority]
  dsimp only
  rw [if_pos rfl, trim_number]
  rfl

/-- A text that is short, or ends with `w` behind something short. -/
def ShortBefore (w : Str) (m : Nat) (x : Str) : Prop :=
  x.length ≤ m ∨ ∃ z : Str, z.length ≤ m ∧ x = z ++ w

theorem ShortBefore.cut {w x : Str} {m : Nat} {c : Char} (hc : c ∉ w) (h : ShortBefore w m x) :
    ShortBefore w m (Uri.cut c x).1 := by
  rw [cut_fst]
  rcases h with h | ⟨z, hz, rfl⟩
  · exact .inl ((List.takeWhile_prefix _).length_le.trans h)
  · by_cases hmem : c ∈ z
    · obtain ⟨a, b, rfl, ha⟩ := List.eq_append_cons_of_mem hmem
      rw [List.append_assoc, List.cons_append, before_append_cons _ ha]
      rw [List.length_append] at hz
      exact .inl (by omega)
    · have hno : c ∉ z ++ w := by
        rw [List.mem_append, not_or]
        exact ⟨hmem, hc⟩
      rw [before_of_not_mem hno]
      exact .inr ⟨z, hz, rfl⟩

theorem ShortBefore.cutUserinfo {w x : Str} {m : Nat} (hat : '@' ∉ w) (h : ShortBefore w m x) :
    ShortBefore w m (cutUserinfo x).2 := by
  cases hcut : (Sip.cutUserinfo x).1 with
  | none =>
      have hsame : (Sip.cutUserinfo x).2 = x := by
        unfold Sip.cutUserinfo at hcut ⊢
        cases hsplit : rsplitAt '@' x with
        | none => rfl
        | some uh =>
            rw [hsplit] at hcut
            cases hcut
      rwa [hsame]
  | some u =>
      have hx := eq_of_cutUserinfo hcut
      rcases h with h | ⟨z, hz, heq⟩
      · have hlen := congrArg List.length hx
        rw [List.length_append, List.length_cons] at hlen
        exact .inl (by omega)
      · rw [heq] at hx
        rcases List.append_eq_append_iff.mp hx with ⟨b, -, hb⟩ | ⟨b, hb, hw⟩
        -- The separator is not in what stands at the end.
        · exact absurd (hb ▸ List.mem_append_right b List.mem_cons_self) hat
        · cases b with
          | nil =>
              rw [List.nil_append] at hw
              exact absurd (hw ▸ List.mem_cons_self) hat
          | cons c b =>
              rw [List.cons_append] at hw
              rw [hb, List.length_append, List.length_cons] at hz
              exact .inr ⟨b, by omega, heq ▸ (List.cons.inj hw).2⟩

/-- The number of a text that is not the whole of a `tel:` URI. -/
theorem user_of_parse_tel {s w : Str} {m : Nat} (hw : '?' ∉ w ∧ ';' ∉ w ∧ '@' ∉ w)
    (hcolon : ':' ∈ w) (hend : trimEnd w = w)
    (hs : s.length ≤ m ∨ ∃ z : Str, z.length ≤ m ∧ '"' ∈ z ∧ s = z ++ w) {u : Uri}
    (hu : Uri.parse s = some u) (htel : u.scheme = "tel") {t : Str} (ht : u.user = some t) :
    t.length ≤ m ∨ ':' ∈ t := by
  have hlength (x : Str) : (trim x).length ≤ x.length :=
    (length_trimEnd_le _).trans (List.dropWhile_sublist _).length_le
  rw [Uri.parse_eq_pieces, Option.map_eq_some_iff] at hu
  obtain ⟨p, hp, rfl⟩ := hu
  have hscheme : p.scheme = "tel" := htel
  have huser : t = trim p.hostport := by
    rw [Uri.Pieces.uri, readAuthority, if_pos hscheme] at ht
    exact (Option.some.inj ht).symm
  obtain ⟨⟨sc, rest⟩, hsplit, hp⟩ := Option.bind_eq_some_iff.mp hp
  split at hp
  · obtain rfl := Option.some.inj hp
    obtain ⟨htrim, hsc⟩ := eq_of_splitAt hsplit
    have hrest : ShortBefore w m rest := by
      rcases hs with hs | ⟨z, hz, hquote, rfl⟩
      · have hlen := congrArg List.length htrim
        rw [List.length_append, List.length_cons] at hlen
        have hle := hlength s
        exact .inl (by omega)
      · -- A quotation mark is not part of a scheme, so that the colon stands before `w`.
        have hno : '"' ∉ sc := by
          intro hmem
          obtain ⟨a, b, rfl⟩ := List.append_of_mem hmem
          have hin : '"' ∈ lower (trim (a ++ '"' :: b)) := by
            rw [mem_lower_iff (by decide), trim_append_cons a b (by decide)]
            exact List.mem_append_right _ List.mem_cons_self
          rw [show lower (trim (a ++ '"' :: b)) = "tel" from hscheme] at hin
          exact absurd hin (by decide)
        obtain ⟨z₁, z₂, rfl⟩ := List.append_of_mem hquote
        have hshape : trim ((z₁ ++ '"' :: z₂) ++ w) = (trimStart z₁ ++ '"' :: z₂) ++ w := by
          rw [List.append_assoc, List.cons_append, trim_append_cons _ _ (by decide),
            trimEnd_append z₂ (List.ne_nil_of_mem hcolon) hend, List.append_assoc]
          rfl
        rw [hshape] at htrim
        rcases List.append_eq_append_iff.mp htrim with ⟨b, hb, -⟩ | ⟨b, hb, hw'⟩
        · refine absurd ?_ hno
          rw [hb]
          exact List.mem_append_left b (List.mem_append_right _ List.mem_cons_self)
        · cases b with
          | nil =>
              refine absurd ?_ hno
              rw [List.append_nil] at hb
              exact hb ▸ List.mem_append_right _ List.mem_cons_self
          | cons c b =>
              have hlen := congrArg List.length hb
              have hle : (trimStart z₁).length ≤ z₁.length := (List.dropWhile_sublist _).length_le
              simp only [List.length_append, List.length_cons] at hlen hz
              exact .inr ⟨b, by omega, (List.cons.inj hw').2⟩
    have hhost : ShortBefore w m (cutRest (lower (trim sc)) rest).hostport :=
      ((hrest.cut hw.1).cut hw.2.1).cutUserinfo hw.2.2
    rw [huser]
    rcases hhost with h | ⟨z, -, h⟩
    · exact .inl ((hlength _).trans h)
    · obtain ⟨a, b, rfl⟩ := List.append_of_mem hcolon
      rw [h, ← List.append_assoc, trim_append_cons _ _ (by decide)]
      exact .inr (List.mem_append_right _ List.mem_cons_self)
  · cases hp

theorem Shape.back_cases (sh : Shape) : sh.back = [] ∨ ∃ r, sh.back = ';' :: r := by
  by_cases hne : sh.params = []
  · exact .inl (by rw [Shape.back, hne]; rfl)
  · exact .inr ⟨_, Shape.back_eq hne⟩

/-- What is taken for the URI behind a quotation mark that is none. -/
theorem parseTarget_of_quote {sh : Shape} {n : Nat} {y us ps : Str}
    (h : NameAddr.parseTarget (y ++ '"' :: ' ' :: '<' :: (telTarget n ++ '>' :: sh.back)) =
      some (us, ps)) :
    us.length ≤ y.length + 3 ∨ ∃ z : Str, z.length ≤ y.length + 3 ∧ '"' ∈ z ∧
      (us = z ++ telTarget n ∨ us = z ++ (telTarget n ++ ['>'])) := by
  by_cases hangle : ['<'].isPrefixOf y
  -- An opening bracket in the display name: up to the closing one.
  · obtain ⟨y, rfl⟩ := List.isPrefixOf_iff_prefix.mp hangle
    have hstrip : stripPrefix ['<'] (['<'] ++ y ++ '"' :: ' ' :: '<' :: (telTarget n ++ '>' :: sh.back)) =
        some (y ++ '"' :: ' ' :: '<' :: (telTarget n ++ '>' :: sh.back)) := by
      rw [List.append_assoc]
      exact stripPrefix_append _ _
    rw [NameAddr.parseTarget, hstrip] at h
    dsimp only at h
    rw [Option.bind_eq_bind, Option.bind_eq_some_iff] at h
    obtain ⟨⟨a, b⟩, hsplit, heq⟩ := h
    obtain ⟨rfl, -⟩ := Prod.mk.inj (Option.some.inj heq)
    by_cases hmem : '>' ∈ y
    · obtain ⟨y₁, y₂, rfl, hy⟩ := List.eq_append_cons_of_mem hmem
      rw [List.append_assoc, List.cons_append, splitAt_append_cons hy] at hsplit
      obtain ⟨rfl, -⟩ := Prod.mk.inj (Option.some.inj hsplit)
      simp only [List.length_append, List.length_cons]
      exact .inl (by omega)
    · have hno : '>' ∉ y ++ '"' :: ' ' :: '<' :: telTarget n := by
        simp [hmem, not_mem_telTarget (c := '>') (by decide) n]
      have hshape : y ++ '"' :: ' ' :: '<' :: (telTarget n ++ '>' :: sh.back) =
          (y ++ '"' :: ' ' :: '<' :: telTarget n) ++ '>' :: sh.back := by simp
      rw [hshape, splitAt_append_cons hno] at hsplit
      obtain ⟨rfl, -⟩ := Prod.mk.inj (Option.some.inj hsplit)
      exact .inr ⟨y ++ ['"', ' ', '<'], by simp, by simp, .inl (by simp)⟩
  -- None: up to the first semicolon.
  · have hstrip : stripPrefix ['<'] (y ++ '"' :: ' ' :: '<' :: (telTarget n ++ '>' :: sh.back)) =
        none := by
      refine if_neg fun hpre ↦ hangle ?_
      cases y with
      | nil => exact absurd hpre (by simp)
      | cons c y => simpa using hpre
    rw [NameAddr.parseTarget, hstrip] at h
    dsimp only at h
    obtain ⟨rfl, -⟩ := Prod.mk.inj (Option.some.inj h)
    rw [cut_fst]
    by_cases hmem : ';' ∈ y
    · obtain ⟨y₁, y₂, rfl, hy⟩ := List.eq_append_cons_of_mem hmem
      rw [List.append_assoc, List.cons_append, before_append_cons _ hy]
      simp only [List.length_append, List.length_cons]
      exact .inl (by omega)
    · have hno : ';' ∉ y ++ '"' :: ' ' :: '<' :: (telTarget n ++ ['>']) := by
        simp [hmem, not_mem_telTarget (c := ';') (by decide) n]
      have hshape : y ++ '"' :: ' ' :: '<' :: (telTarget n ++ '>' :: sh.back) =
          (y ++ '"' :: ' ' :: '<' :: (telTarget n ++ ['>'])) ++ sh.back := by simp
      have hbefore : before ';' ((y ++ '"' :: ' ' :: '<' :: (telTarget n ++ ['>'])) ++ sh.back) =
          y ++ '"' :: ' ' :: '<' :: (telTarget n ++ ['>']) := by
        rcases sh.back_cases with hback | ⟨r, hback⟩
        · rw [hback, List.append_nil, before_of_not_mem hno]
        · rw [hback, before_append_cons r hno]
      rw [hshape, hbefore]
      exact .inr ⟨y ++ ['"', ' ', '<'], by simp, by simp, .inr (by simp)⟩

def Entry.tel (sh : Shape) (n : Nat) : Entry where
  shape := sh
  target := telTarget n
  uri := telUri n
  no_close := not_mem_telTarget (by decide) n
  parse := parse_telTarget n

/-- There is a URI that is not read behind such a display name. -/
theorem Entry.exists_not_parse {sh : Shape} (h : ¬ sh.Plain) :
    ∃ n, ∀ a, NameAddr.parse (Entry.tel sh n).text = some a → a.uri ≠ telUri n := by
  obtain ⟨d, hd, hquote⟩ : ∃ d, sh.display = some d ∧ '"' ∈ d := by
    by_contra hno
    exact h fun d hd hmem ↦ hno ⟨d, hd, hmem⟩
  obtain ⟨x, y, hxy, hx⟩ := List.eq_append_cons_of_mem ((mem_escape_iff (by decide)).mpr hquote)
  refine ⟨y.length + 4, fun a ha huri ↦ ?_⟩
  have hshape : (Entry.tel sh (y.length + 4)).text = ['"'] ++ (x ++ '"' :: (y ++ '"' :: ' ' ::
      '<' :: (telTarget (y.length + 4) ++ '>' :: sh.back))) := by
    rw [Entry.text, Entry.tel, Shape.front, hd]
    dsimp only
    rw [hxy]
    simp
  have hdisplay (t : Str) : NameAddr.parseDisplay (['"'] ++ (x ++ '"' :: (y ++ '"' :: t))) =
      some (some x, trimStart y ++ '"' :: t) := by
    rw [NameAddr.parseDisplay, stripPrefix_append]
    dsimp only
    rw [splitAt_append_cons hx, Option.bind_eq_bind, Option.bind_some,
      trimStart_append_cons y t (by decide)]
  rw [NameAddr.parse, Entry.trim_text, hshape, hdisplay] at ha
  simp only [Option.bind_eq_bind, Option.bind_some, Option.bind_eq_some_iff] at ha
  obtain ⟨⟨us, ps⟩, htarget, u, hu, ha⟩ := ha
  obtain rfl : u = telUri (y.length + 4) := by
    rw [← huri, ← Option.some.inj ha]
  have hle : (trimStart y).length ≤ y.length := (List.dropWhile_sublist _).length_le
  -- The number would have to be short, or to have a colon in it.
  have hlong {w : Str} (hw : '?' ∉ w ∧ ';' ∉ w ∧ '@' ∉ w) (hcolon : ':' ∈ w) (hend : trimEnd w = w)
      (hs : us.length ≤ (trimStart y).length + 3 ∨
        ∃ z : Str, z.length ≤ (trimStart y).length + 3 ∧ '"' ∈ z ∧ us = z ++ w) : False := by
    rcases user_of_parse_tel hw hcolon hend hs hu rfl rfl with h | h
    · rw [List.length_replicate] at h
      omega
    · exact not_mem_number (by decide) _ h
  have hcolon : ':' ∈ telTarget (y.length + 4) :=
    List.mem_append_left _ (by decide : ':' ∈ ("tel:" : Str))
  have hno (c : Char) (hc : c ∉ ("tel:1" : Str)) : c ∉ telTarget (y.length + 4) :=
    not_mem_telTarget hc _
  have hno' (c : Char) (hc : c ∉ ("tel:1" : Str)) (hc' : c ≠ '>') :
      c ∉ telTarget (y.length + 4) ++ ['>'] := by
    rw [List.mem_append, not_or, List.mem_singleton]
    exact ⟨hno c hc, hc'⟩
  rcases parseTarget_of_quote htarget with h | ⟨z, hz, hquote, h | h⟩
  · exact hlong ⟨hno _ (by decide), hno _ (by decide), hno _ (by decide)⟩ hcolon
      (trimEnd_telTarget _) (.inl h)
  · exact hlong ⟨hno _ (by decide), hno _ (by decide), hno _ (by decide)⟩ hcolon
      (trimEnd_telTarget _) (.inr ⟨z, hz, hquote, h⟩)
  · exact hlong ⟨hno' _ (by decide) (by decide), hno' _ (by decide) (by decide),
      hno' _ (by decide) (by decide)⟩ (List.mem_append_left _ hcolon)
      (trimEnd_concat _ (by decide)) (.inr ⟨z, hz, hquote, h⟩)

/-! ## Which entries are read back -/

theorem readBack_of_legible {es : List Entry} (h : ∀ e ∈ es, e.shape.Legible) : ReadBack es := by
  refine ⟨splitContacts_intercalate ?_ ?_ ?_, ?_⟩
  · intro t ht
    obtain ⟨e, he, rfl⟩ := List.mem_map.mp ht
    obtain ⟨a, ha, hpaired⟩ := Entry.paired_text (h e he).display
    rw [ha]
    exact hpaired.append (h e he).paired
  · intro t ht
    obtain ⟨e, -, rfl⟩ := List.mem_map.mp ht
    exact e.trim_text
  · intro t ht
    obtain ⟨e, -, rfl⟩ := List.mem_map.mp ht
    obtain ⟨c, t, hct, -, -⟩ := e.text_cons
    simp [hct]
  · intro e he
    refine ⟨_, Entry.parse_text (h e he).display, rfl, ?_⟩
    rw [Shape.fieldPieces_of_whole (h e he).whole, List.map_map]
    exact List.map_congr_left fun p _ ↦ FieldParam.parseFieldParam_text

/-- All lists of entries of a kind are read back exactly if every shape of this kind is legible. -/
theorem readBack_iff (kind : Shape → Prop) :
    (∀ es : List Entry, (∀ e ∈ es, kind e.shape) → ReadBack es) ↔ ∀ sh, kind sh → sh.Legible := by
  constructor
  · intro h sh hsh
    have hplain : sh.Plain := by
      by_contra hno
      obtain ⟨n, hn⟩ := Entry.exists_not_parse hno
      have hback := h [Entry.tel sh n] (by simpa [Entry.tel] using hsh)
      obtain ⟨a, ha, huri, -⟩ := hback.parse _ List.mem_cons_self
      exact hn a ha huri
    have htwo := h [Entry.tel sh 0, Entry.tel sh 0] (by simpa [Entry.tel] using hsh)
    refine ⟨hplain, ?_, ?_⟩
    · by_contra hno
      obtain ⟨p, hp, hwhole⟩ : ∃ p ∈ sh.params, ¬ p.Whole := by simpa using hno
      obtain ⟨a, ha, -, hparams⟩ := htwo.parse _ List.mem_cons_self
      rw [Entry.parse_text hplain] at ha
      obtain rfl := Option.some.inj ha
      have hlength := congrArg List.length hparams
      rw [List.length_map, List.length_map] at hlength
      exact absurd hlength (Shape.length_fieldPieces ⟨p, hp, hwhole⟩).ne'
    · rcases paired_or_unpaired sh.back with hback | hback
      · exact hback
      -- The first of two entries would not be cut off where it ends.
      · exfalso
        obtain ⟨a, ha, hpaired⟩ := Entry.paired_text (e := Entry.tel sh 0) hplain
        obtain ⟨c, t, hct, hc, hcomma⟩ := (Entry.tel sh 0).text_cons
        have hunpaired : Unpaired (c :: t) := by
          rw [← hct, ha]
          exact hback.append hpaired
        refine splitContacts_unpaired hc hcomma hunpaired (' ' :: (Entry.tel sh 0).text) ?_
        have hsplit := htwo.split
        rw [List.map_cons, List.map_singleton, List.intercalate_cons_cons,
          List.intercalate_singleton, List.append_assoc] at hsplit
        rw [← hct]
        exact congrArg List.head? hsplit
  · intro h es hes
    exact readBack_of_legible fun e he ↦ h e.shape (hes e he)

/-- `"5\" modem" <sip:a@h>;expires=0`. -/
def fiveInch : Entry where
  shape :=
    { display := some "5\" modem".toList
      params := [⟨"expires".toList, .word "0".toList ⟨by decide, by decide⟩, ⟨by decide, by decide⟩⟩] }
  target := "sip:a@h".toList
  uri := Uri.new (some "a".toList) "h".toList none
  no_close := by decide
  parse := by decide

set_option maxRecDepth 2000 in
/-- The entry is not read at all, and in front of another one it is not told apart from it. -/
theorem fiveInch_not_readBack : ¬ ReadBack [fiveInch] ∧
    (splitContacts (fiveInch.text ++ ", <sip:b@h>;expires=3600")).length = 1 := by
  constructor
  · intro h
    obtain ⟨n, hn, -⟩ := h.parse fiveInch List.mem_cons_self
    have hnone : NameAddr.parse fiveInch.text = none := by decide
    rw [hnone] at hn
    cases hn
  · decide

end Modem2Sip.Sip
