import Modem2Sip.Lib.Lines
import Modem2Sip.Sip.Message

/-!
# SIP messages on the wire

The other half of `sip/message.rs`: how a message is written to a datagram and how a
datagram is read.  `char::to_uppercase` is a parameter; only what it does with ASCII
characters matters for the names that the gateway writes.
-/

namespace Modem2Sip.Sip

open Text

/-! ## Writing -/

section Encode

variable (toUppercase : Char → Str)

/-- The first character, and every one after a hyphen, in upper case if `upper` says so. -/
def capitalise (upper : Bool) : Str → Str
  | [] => []
  | c :: s => (if upper then toUppercase c else [c]) ++ capitalise (c == '-') s

/-- A header name as it is written. -/
def pretty (name : Str) : Str :=
  let canon := canonical name
  if canon = "call-id" then "Call-ID"
  else if canon = "cseq" then "CSeq"
  else if canon = "www-authenticate" then "WWW-Authenticate"
  else if canon = "mime-version" then "MIME-Version"
  else capitalise toUppercase true canon

/-- A value without what would end its line early. -/
def headerSafe (value : Str) : Str :=
  if (utf8 value).any fun b ↦ b < 0x20 || b == 0x7F then value.filter fun c ↦ !isControl c
  else value

/-- One line of the header, without its end. -/
def headerLine (bodyLen : Nat) (field : Str × Str) : Str :=
  if field.1 = "content-length" then "Content-Length: " ++ dec bodyLen
  else pretty toUppercase field.1 ++ ": " ++ headerSafe field.2

/-- The lines of a message up to the empty one. -/
def headLines (startLine : Str) (headers : Headers) (bodyLen : Nat) : List Str :=
  headerSafe startLine :: headers.fields.map (headerLine toUppercase bodyLen) ++
    (if headers.fields.any (·.1 == "content-length") then []
      else ["Content-Length: " ++ dec bodyLen])

def serialize (startLine : Str) (headers : Headers) (body : List UInt8) : List UInt8 :=
  let head := (headLines toUppercase startLine headers body.length).flatMap (· ++ ['\r', '\n'])
  utf8 (head ++ ['\r', '\n']) ++ body

def Request.startLine (r : Request) : Str := r.method.asStr ++ " " ++ r.uri.show ++ " SIP/2.0"

def Request.encode (r : Request) : List UInt8 :=
  serialize toUppercase r.startLine r.headers r.body

def Response.startLine (r : Response) : Str := "SIP/2.0 " ++ dec r.code ++ " " ++ r.reason

def Response.encode (r : Response) : List UInt8 :=
  serialize toUppercase r.startLine r.headers r.body

end Encode

/-! ## Reading -/

inductive Message where
  | request (r : Request)
  | response (r : Response)
deriving DecidableEq, Repr

/-- Where the head ends and where the body starts. -/
def findBodyStart (buf : List UInt8) : Nat × Nat :=
  match Lines.findSub [13, 10, 13, 10] buf with
  | some pos => (pos, pos + 4)
  | none =>
    match Lines.findSub [10, 10] buf with
    | some pos => (pos, pos + 2)
    | none => (buf.length, buf.length)

/-- A line feed and what follows it: a line that continues the one before is put behind it. -/
def unfoldLine (line : Str) : Str :=
  if [' '].isPrefixOf line || ['\t'].isPrefixOf line then ' ' :: trimStart line
  else ['\r', '\n'] ++ line

/-- Line endings made equal and continued lines joined. -/
def unfold (head : Str) : Str :=
  match (Lines.replacePair '\r' '\n' '\n' head).splitOn '\n' with
  | [] => []
  | line :: lines => line ++ lines.flatMap unfoldLine

/-- A header line; one without a colon is passed over. -/
def parseHeaderLine (line : Str) : Option (Str × Str) :=
  (splitAt ':' line).map fun (name, value) ↦ (canonical name, trim value)

/-- The body as far as `Content-Length` says, if it says so and there is as much. -/
def trimBody (headers : Headers) (body : List UInt8) : List UInt8 :=
  match (headers.get "content-length").bind fun v ↦ parseU64 (trim v) with
  | some len => if len ≤ body.length then body.take len else body
  | none => body

def Message.parseStart (start : Str) (headers : Headers) (body : List UInt8) : Option Message :=
  if ("SIP/" : Str).isPrefixOf start then do
    let (_, rest) ← splitAt ' ' start
    let (code, reason) := Uri.cut ' ' rest
    let code ← parseU16 code
    some (.response { code, reason := reason.getD [], headers, body })
  else
    match words start with
    | method :: uri :: _ => do
      let method ← Method.parse method
      let uri ← Uri.parse uri
      some (.request { method, uri, headers, body })
    | _ => none

def Message.parse (buf : List UInt8) : Option Message := do
  let (headEnd, bodyStart) := findBodyStart buf
  let head ← fromUtf8 (buf.take headEnd)
  let body := buf.drop bodyStart
  match (Lines.splitPair '\r' '\n' (unfold head)).filter (· != []) with
  | [] => none
  | start :: lines =>
    let headers : Headers := ⟨lines.filterMap parseHeaderLine⟩
    parseStart start headers (trimBody headers body)

def Message.encode (toUppercase : Char → Str) : Message → List UInt8
  | .request r => r.encode toUppercase
  | .response r => r.encode toUppercase

/-! ## Header names -/

/-- A character of a header name: ASCII, no colon, white space or control character. -/
def tokenChar (c : Char) : Bool :=
  c.toNat < 128 && c != ':' && !isWhitespace c && !isControl c

/-- A header name under which the gateway keeps a field. -/
structure Token (name : Str) : Prop where
  canonical : Sip.canonical name = name
  ne_nil : name ≠ []
  chars : ∀ c ∈ name, tokenChar c = true

theorem ascii_of_tokenChar {c : Char} (h : tokenChar c = true) : c.toNat < 128 := by
  simp only [tokenChar, Bool.and_eq_true, decide_eq_true_eq] at h
  exact h.1.1.1

theorem tokenChar_toUpper {c : Char} (h : tokenChar c = true) : tokenChar c.toUpper = true := by
  have hall : ∀ n < 128, tokenChar (Char.ofNat n) = true → tokenChar (Char.ofNat n).toUpper = true := by
    decide
  exact forall_ascii (p := fun c ↦ tokenChar c = true → tokenChar c.toUpper = true) hall
    (ascii_of_tokenChar h) h

theorem toLower_toUpper_of_tokenChar {c : Char} (h : tokenChar c = true) :
    c.toUpper.toLower = c.toLower := by
  have hall : ∀ n < 128, (Char.ofNat n).toUpper.toLower = (Char.ofNat n).toLower := by
    decide
  exact forall_ascii (p := fun c ↦ c.toUpper.toLower = c.toLower) hall (ascii_of_tokenChar h)

theorem not_isWhitespace_of_tokenChar {c : Char} (h : tokenChar c = true) :
    isWhitespace c = false := by
  simp only [tokenChar, Bool.and_eq_true, Bool.not_eq_true'] at h
  exact h.1.2

theorem trim_token {s : Str} (h : ∀ c ∈ s, tokenChar c = true) : trim s = s :=
  trim_eq_self fun c hc ↦ not_isWhitespace_of_tokenChar (h c hc)

/-- Only the letters matter to a canonical name, not their case. -/
theorem canonical_congr {m n : Str} (h : lower (trim m) = lower (trim n)) :
    canonical m = canonical n := by
  simp only [canonical, h]

section Names

variable {toUppercase : Char → Str}

theorem capitalise_token (hupper : ∀ c, c.toNat < 128 → toUppercase c = [c.toUpper]) {s : Str}
    (h : ∀ c ∈ s, tokenChar c = true) (upper : Bool) :
    (∀ c ∈ capitalise toUppercase upper s, tokenChar c = true) ∧
      lower (capitalise toUppercase upper s) = lower s := by
  induction s generalizing upper with
  | nil => exact ⟨by simp [capitalise], rfl⟩
  | cons c s ih =>
      have hc := h c List.mem_cons_self
      obtain ⟨htok, hlow⟩ := ih (fun d hd ↦ h d (List.mem_cons_of_mem c hd)) (c == '-')
      cases upper with
      | false =>
          have heq : capitalise toUppercase false (c :: s) =
              c :: capitalise toUppercase (c == '-') s := by
            simp [capitalise]
          rw [heq]
          exact ⟨List.forall_mem_cons.mpr ⟨hc, htok⟩, congrArg (c.toLower :: ·) hlow⟩
      | true =>
          have heq : capitalise toUppercase true (c :: s) =
              c.toUpper :: capitalise toUppercase (c == '-') s := by
            simp [capitalise, hupper c (ascii_of_tokenChar hc)]
          rw [heq]
          refine ⟨List.forall_mem_cons.mpr ⟨tokenChar_toUpper hc, htok⟩, ?_⟩
          rw [lower, List.map_cons, toLower_toUpper_of_tokenChar hc]
          exact congrArg (c.toLower :: ·) hlow

/-- A name as it is written is a name, and read back it is the same. -/
theorem Token.pretty (hupper : ∀ c, c.toNat < 128 → toUppercase c = [c.toUpper]) {name : Str}
    (h : Token name) :
    (∀ c ∈ pretty toUppercase name, tokenChar c = true) ∧ pretty toUppercase name ≠ [] ∧
      Sip.canonical (pretty toUppercase name) = name := by
  obtain ⟨hcanon, hne, hchars⟩ := h
  unfold Sip.pretty
  rw [hcanon]
  dsimp only
  split
  · rename_i heq
    rw [heq]
    decide
  · split
    · rename_i heq
      rw [heq]
      decide
    · split
      · rename_i heq
        rw [heq]
        decide
      · split
        · rename_i heq
          rw [heq]
          decide
        · obtain ⟨htok, hlow⟩ := capitalise_token hupper hchars true
          refine ⟨htok, ?_, ?_⟩
          · intro hnil
            rw [hnil] at hlow
            exact hne (List.map_eq_nil_iff.mp hlow.symm)
          · rw [canonical_congr (n := name) (by rw [trim_token htok, trim_token hchars, hlow]), hcanon]

end Names

/-! ## Values -/

theorem isControl_of_lt {c : Char} (h : c.toNat < 0x20) : isControl c = true := by
  simp [isControl, h]

/-- A sanitised value has nothing in it that ends a line. -/
theorem le_of_mem_headerSafe {v : Str} {c : Char} (hc : c ∈ headerSafe v) : 0x20 ≤ c.toNat := by
  by_contra hlt
  have hlt : c.toNat < 0x20 := by omega
  unfold headerSafe at hc
  split at hc
  · have := (List.mem_filter.mp hc).2
    simp [isControl_of_lt hlt] at this
  · rename_i hany
    refine hany (List.any_eq_true.mpr ⟨_, (mem_utf8_of_ascii (by omega)).mpr hc, ?_⟩)
    have hb : UInt8.ofNat c.toNat < 0x20 := by
      rw [UInt8.lt_iff_toNat_lt]
      simp
      omega
    simp [hb]

/-- Text without control characters is left alone. -/
theorem headerSafe_eq_self {v : Str} (h : ∀ c ∈ v, isControl c = false) : headerSafe v = v := by
  unfold headerSafe
  split
  · exact List.filter_eq_self.mpr fun c hc ↦ by simp [h c hc]
  · rfl

theorem le_of_isPlain {c : Char} (h : isPlain c = true) : 0x20 ≤ c.toNat := by
  simp only [isPlain, Bool.and_eq_true, decide_eq_true_eq] at h
  exact h.1

theorem not_isControl_of_isPlain {c : Char} (h : isPlain c = true) : isControl c = false := by
  simp only [isPlain, Bool.and_eq_true, decide_eq_true_eq] at h
  simp only [isControl, Bool.or_eq_false_iff, Bool.and_eq_false_iff, decide_eq_false_iff_not]
  omega

/-- Plain text in front changes nothing. -/
theorem headerSafe_append {p : Str} (hp : Plain p) (v : Str) :
    headerSafe (p ++ v) = p ++ headerSafe v := by
  have hbytes : (utf8 p).any (fun b ↦ b < 0x20 || b == 0x7F) = false := by
    rw [List.any_eq_false]
    intro b hb
    obtain ⟨c, hc, hmem⟩ := List.mem_flatMap.mp hb
    have hplain := hp c hc
    simp only [isPlain, Bool.and_eq_true, decide_eq_true_eq] at hplain
    rw [utf8EncodeChar_of_ascii (by omega), List.mem_singleton] at hmem
    have hn : b.toNat = c.toNat := by
      rw [hmem]
      simp
      omega
    simp only [Bool.or_eq_true, decide_eq_true_eq, beq_iff_eq, UInt8.lt_iff_toNat_lt,
      ← UInt8.toNat_inj, hn, UInt8.reduceToNat]
    omega
  have hfilter : p.filter (fun c ↦ !isControl c) = p :=
    List.filter_eq_self.mpr fun c hc ↦ by simp [not_isControl_of_isPlain (hp c hc)]
  unfold headerSafe
  rw [utf8_append, List.any_append, hbytes, Bool.false_or, List.filter_append, hfilter]
  split <;> rfl

/-! ## Reading back the lines -/

/-- A line that ends nowhere before its end. -/
structure Line (l : Str) : Prop where
  ne_nil : l ≠ []
  le : ∀ c ∈ l, 0x20 ≤ c.toNat

theorem Line.not_mem {l : Str} (h : Line l) {c : Char} (hc : c.toNat < 0x20) : c ∉ l := by
  intro hmem
  have := h.le c hmem
  omega

/-- Does the line continue the one before? -/
def Continues (l : Str) : Prop :=
  ([' '].isPrefixOf l || ['\t'].isPrefixOf l) = true

theorem unfold_intercalate {start : Str} {lines : List Str} (h : ∀ l ∈ start :: lines, Line l)
    (hfold : ∀ l ∈ lines, ¬ Continues l) :
    unfold (['\r', '\n'].intercalate (start :: lines)) =
      ['\r', '\n'].intercalate (start :: lines) := by
  have hsplit : (['\n'].intercalate (start :: lines)).splitOn '\n' = start :: lines :=
    List.splitOn_intercalate '\n' (fun l hl ↦ (h l hl).not_mem (by decide)) (by simp)
  have hkeep : lines.flatMap unfoldLine = lines.flatMap (['\r', '\n'] ++ ·) := by
    rw [List.flatMap_def, List.flatMap_def]
    refine congrArg _ (List.map_congr_left fun l hl ↦ ?_)
    exact if_neg (hfold l hl)
  unfold Sip.unfold
  rw [Lines.replacePair_intercalate '\n' fun l hl ↦ (h l hl).not_mem (by decide), hsplit]
  dsimp only
  rw [hkeep]
  exact (Lines.intercalate_cons ['\r', '\n'] start lines).symm

/-- The message that a head of these lines and this body are read as. -/
def Message.ofLines (start : Str) (lines : List Str) (body : List UInt8) : Option Message :=
  parseStart start ⟨lines.filterMap parseHeaderLine⟩
    (trimBody ⟨lines.filterMap parseHeaderLine⟩ body)

/-- The lines of a head are read back, whatever the body is. -/
theorem Message.parse_lines {start : Str} {lines : List Str} (h : ∀ l ∈ start :: lines, Line l)
    (hfold : ∀ l ∈ lines, ¬ Continues l) (body : List UInt8) :
    Message.parse (utf8 ((start :: lines).flatMap (· ++ ['\r', '\n']) ++ ['\r', '\n']) ++ body) =
      Message.ofLines start lines body := by
  have hcr : utf8 ['\r', '\n'] = [13, 10] := by decide
  -- The head, which is what stands before the first empty line.
  have hbuf : utf8 ((start :: lines).flatMap (· ++ ['\r', '\n']) ++ ['\r', '\n']) ++ body =
      [13, 10].intercalate ((start :: lines).map utf8) ++ 13 :: 10 :: 13 :: 10 :: body := by
    rw [Lines.flatMap_append_eq (by simp), utf8_append, utf8_append, utf8_intercalate, hcr]
    simp
  have hbytes : ∀ l ∈ (start :: lines).map utf8, l ≠ [] ∧ (13 : UInt8) ∉ l := by
    intro l hl
    obtain ⟨s, hs, rfl⟩ := List.mem_map.mp hl
    refine ⟨fun hnil ↦ (h s hs).ne_nil (utf8_injective hnil), ?_⟩
    exact mt (mem_utf8_of_ascii (c := '\r') (by decide)).mp ((h s hs).not_mem (by decide))
  have hhead : [13, 10].intercalate ((start :: lines).map utf8) =
      utf8 (['\r', '\n'].intercalate (start :: lines)) := by
    rw [utf8_intercalate, hcr]
  have hfind := Lines.findSub_intercalate (a := (13 : UInt8)) (b := 10) (by decide) (by simp)
    hbytes body
  have hfrom : fromUtf8 ([13, 10].intercalate ((start :: lines).map utf8)) =
      some (['\r', '\n'].intercalate (start :: lines)) := fromUtf8_eq_some.mpr hhead.symm
  have hsplit : (Lines.splitPair '\r' '\n' (Sip.unfold (['\r', '\n'].intercalate
      (start :: lines)))).filter (· != []) = start :: lines := by
    rw [unfold_intercalate h hfold, Lines.splitPair_intercalate (by simp)
      fun l hl ↦ (h l hl).not_mem (by decide)]
    exact List.filter_eq_self.mpr fun l hl ↦ by simpa using (h l hl).ne_nil
  rw [hbuf]
  unfold Message.parse
  simp only [findBodyStart, hfind, List.take_left]
  rw [hfrom]
  simp only [Option.bind_eq_bind, Option.bind_some, hsplit]
  rw [← List.drop_drop, List.drop_left]
  rfl

/-! ## The round trip -/

/-- What becomes of a field: its value sanitised and trimmed, a length put right. -/
def fieldOnWire (bodyLen : Nat) (field : Str × Str) : Str × Str :=
  if field.1 = "content-length" then (field.1, dec bodyLen)
  else (field.1, trim (headerSafe field.2))

/-- The fields as they are read back; without a `Content-Length` there is one more. -/
def Headers.onWire (h : Headers) (bodyLen : Nat) : Headers :=
  ⟨h.fields.map (fieldOnWire bodyLen) ++
    (if h.fields.any (·.1 == "content-length") then []
      else [(("content-length" : Str), dec bodyLen)])⟩

def Message.onWire : Message → Message
  | .request r => .request { r with headers := r.headers.onWire r.body.length }
  | .response r =>
    .response { r with
      reason := headerSafe r.reason
      headers := r.headers.onWire r.body.length }

def Message.headers : Message → Headers
  | .request r => r.headers
  | .response r => r.headers

/-- A URI that fits into a start line and is read back from there. -/
structure Uri.Writable (u : Uri) : Prop where
  chars : ∀ c ∈ u.show, isWhitespace c = false ∧ isControl c = false
  parse : Uri.parse u.show = some u

theorem Method.asStr_word (m : Method) :
    m.asStr ≠ [] ∧ ∀ c ∈ m.asStr, isWhitespace c = false ∧ isControl c = false := by
  cases m <;> decide

/-- What the start line asks for: a writable URI, or a status code of 16 bits. -/
def Message.StartsWell : Message → Prop
  | .request r => r.uri.Writable
  | .response r => r.code < 2 ^ 16

section RoundTrip

variable {toUppercase : Char → Str}

theorem le_of_tokenChar {c : Char} (h : tokenChar c = true) : 0x20 ≤ c.toNat := by
  simp only [tokenChar, Bool.and_eq_true, Bool.not_eq_true'] at h
  by_contra hlt
  simp [isControl_of_lt (c := c) (by omega)] at h

/-- A written field is a line, continues none, and is read back. -/
theorem headerLine_spec (hupper : ∀ c, c.toNat < 128 → toUppercase c = [c.toUpper])
    {field : Str × Str} (h : Token field.1) (n : Nat) :
    Line (headerLine toUppercase n field) ∧ ¬ Continues (headerLine toUppercase n field) ∧
      parseHeaderLine (headerLine toUppercase n field) = some (fieldOnWire n field) := by
  -- Any line that is a name, a colon and a value.
  have hline (name value : Str) (hname : ∀ c ∈ name, tokenChar c = true) (hne : name ≠ [])
      (hvalue : ∀ c ∈ value, 0x20 ≤ c.toNat) :
      Line (name ++ ": " ++ value) ∧ ¬ Continues (name ++ ": " ++ value) ∧
        parseHeaderLine (name ++ ": " ++ value) = some (canonical name, trim value) := by
    have hcolon : ∀ c ∈ name, (c == ':') = false := by
      intro c hc
      have := hname c hc
      simp only [tokenChar, Bool.and_eq_true, bne_iff_ne, ne_eq] at this
      simpa using this.1.1.2
    refine ⟨⟨by simp [hne], ?_⟩, ?_, ?_⟩
    · intro c hc
      rcases (by simpa [or_assoc] using hc : c ∈ name ∨ c = ':' ∨ c = ' ' ∨ c ∈ value) with
        hc | rfl | rfl | hc
      · exact le_of_tokenChar (hname c hc)
      · decide
      · decide
      · exact hvalue c hc
    · obtain ⟨c, name, rfl⟩ := List.exists_cons_of_ne_nil hne
      have hspace := not_isWhitespace_of_tokenChar (hname c List.mem_cons_self)
      intro hcont
      rcases (by simpa [Continues] using hcont : ' ' = c ∨ '\t' = c) with rfl | rfl
      · exact absurd hspace (by decide)
      · exact absurd hspace (by decide)
    · have hcut : splitAt ':' (name ++ ": " ++ value) = some (name, ' ' :: value) := by
        rw [List.append_assoc]
        exact splitOnce_append hcolon (beq_self_eq_true ':')
      have htrim : trim (' ' :: value) = trim value := by
        simp [trim, trimStart, show isWhitespace ' ' = true by decide]
      rw [parseHeaderLine, hcut, ← htrim]
      rfl
  by_cases hlen : field.1 = "content-length"
  · have hwritten : headerLine toUppercase n field = "Content-Length" ++ ": " ++ dec n := by
      rw [headerLine, if_pos hlen]
      rfl
    have hname : canonical "Content-Length" = field.1 := by
      rw [hlen]
      decide
    rw [hwritten, fieldOnWire, if_pos hlen]
    have hspec := hline "Content-Length" (dec n) (by decide) (by decide)
      fun c hc ↦ le_of_isPlain (plain_dec n c hc)
    rwa [hname, trim_eq_self (isWhitespace_of_mem_dec n)] at hspec
  · obtain ⟨htok, hne, hcanon⟩ := h.pretty hupper
    rw [headerLine, if_neg hlen, fieldOnWire, if_neg hlen]
    have hspec := hline _ (headerSafe field.2) htok hne fun c hc ↦ le_of_mem_headerSafe hc
    rwa [hcanon] at hspec

/-- The fields of a message, and the length that is put behind them if there is none. -/
theorem headLines_eq (start : Str) (h : Headers) (n : Nat) :
    headLines toUppercase start h n =
      headerSafe start :: (h.fields ++ (if h.fields.any (·.1 == "content-length") then []
        else [(("content-length" : Str), ([] : Str))])).map (headerLine toUppercase n) := by
  rw [headLines, List.map_append]
  split
  · rfl
  · rfl

theorem Headers.onWire_eq (h : Headers) (n : Nat) :
    h.onWire n =
      ⟨(h.fields ++ (if h.fields.any (·.1 == "content-length") then []
        else [(("content-length" : Str), ([] : Str))])).map (fieldOnWire n)⟩ := by
  rw [Headers.onWire, List.map_append]
  split
  · rfl
  · rfl

theorem token_contentLength : Token "content-length" := ⟨by decide, by decide, by decide⟩

/-- What is written is read back, up to the start line. -/
theorem parse_serialize (hupper : ∀ c, c.toNat < 128 → toUppercase c = [c.toUpper]) {start : Str}
    (hstart : headerSafe start ≠ []) {h : Headers} (hnames : ∀ f ∈ h.fields, Token f.1)
    (body : List UInt8) :
    Message.parse (serialize toUppercase start h body) =
      Message.parseStart (headerSafe start) (h.onWire body.length)
        (trimBody (h.onWire body.length) body) := by
  rw [serialize, headLines_eq, Headers.onWire_eq]
  generalize hfs : h.fields ++ _ = fs
  have hfs : ∀ f ∈ fs, Token f.1 := by
    intro f hf
    rw [← hfs] at hf
    rcases List.mem_append.mp hf with hf | hf
    · exact hnames f hf
    · split at hf
      · cases hf
      · rw [List.mem_singleton.mp hf]
        exact token_contentLength
  have hlines : ∀ l ∈ headerSafe start :: fs.map (headerLine toUppercase body.length), Line l := by
    rw [List.forall_mem_cons, List.forall_mem_map]
    exact ⟨⟨hstart, fun c hc ↦ le_of_mem_headerSafe hc⟩,
      fun f hf ↦ (headerLine_spec hupper (hfs f hf) _).1⟩
  have hfold : ∀ l ∈ fs.map (headerLine toUppercase body.length), ¬ Continues l :=
    List.forall_mem_map.mpr fun f hf ↦ (headerLine_spec hupper (hfs f hf) _).2.1
  have hparsed : (fs.map (headerLine toUppercase body.length)).filterMap parseHeaderLine =
      fs.map (fieldOnWire body.length) := by
    rw [List.filterMap_map, ← List.filterMap_eq_map]
    exact List.filterMap_congr fun f hf ↦ (headerLine_spec hupper (hfs f hf) _).2.2
  rw [Message.parse_lines hlines hfold, Message.ofLines, hparsed]

/-- The body is as long as its `Content-Length` says. -/
theorem trimBody_onWire (h : Headers) (body : List UInt8) :
    trimBody (h.onWire body.length) body = body := by
  have hget : (h.onWire body.length).get "content-length" = some (dec body.length) := by
    have hcanon : canonical "content-length" = "content-length" := token_contentLength.canonical
    rw [Headers.get, hcanon]
    cases hfind : (h.onWire body.length).fields.find? (·.1 == ("content-length" : Str)) with
    | none =>
        exfalso
        rw [List.find?_eq_none] at hfind
        by_cases hany : h.fields.any (·.1 == "content-length") = true
        · obtain ⟨f, hf, hname⟩ := List.any_eq_true.mp hany
          refine hfind (fieldOnWire body.length f) ?_ ?_
          · exact List.mem_append_left _ (List.mem_map_of_mem hf)
          · rw [fieldOnWire, if_pos (beq_iff_eq.mp hname)]
            exact hname
        · refine hfind ("content-length", dec body.length) ?_ (by simp)
          rw [Headers.onWire, if_neg hany]
          exact List.mem_append_right _ (List.mem_singleton_self _)
    | some f =>
        have hname := List.find?_some hfind
        have hmem := List.mem_of_find?_eq_some hfind
        rw [Headers.onWire, List.mem_append, List.mem_map] at hmem
        rcases hmem with ⟨f', -, rfl⟩ | hmem
        · unfold fieldOnWire at hname ⊢
          split at hname
          · rename_i hlen
            rw [if_pos hlen]
            rfl
          · rename_i hlen
            exact absurd (beq_iff_eq.mp hname) hlen
        · split at hmem
          · cases hmem
          · rw [List.mem_singleton.mp hmem]
            rfl
  rw [trimBody, hget, Option.bind_some, trim_eq_self (isWhitespace_of_mem_dec _)]
  -- A length that no machine word holds is no number to the parser.
  rw [show parseU64 (dec body.length) = (some body.length).filter (· < 2 ^ 64) from
    parseUnsigned_dec_eq _ _, Option.filter_some]
  by_cases hsize : body.length < 2 ^ 64
  · rw [if_pos (by simpa using hsize)]
    simp
  · rw [if_neg (by simpa using hsize)]

/-- The start line of a request as it is written. -/
theorem headerSafe_startLine_request {r : Request} (huri : r.uri.Writable) :
    headerSafe r.startLine = r.method.asStr ++ ' ' :: (r.uri.show ++ ' ' :: "SIP/2.0") := by
  have hclean : ∀ c ∈ r.startLine, isControl c = false := by
    intro c hc
    rcases (by simpa [Request.startLine, or_assoc] using hc :
      c ∈ r.method.asStr ∨ c = ' ' ∨ c ∈ r.uri.show ∨ c ∈ (" SIP/2.0" : Str)) with hc | rfl | hc | hc
    · exact (r.method.asStr_word.2 c hc).2
    · decide
    · exact (huri.chars c hc).2
    · exact (by decide : ∀ c ∈ (" SIP/2.0" : Str), isControl c = false) c hc
  have hblank : (" SIP/2.0" : Str) = ' ' :: "SIP/2.0" := rfl
  rw [headerSafe_eq_self hclean, Request.startLine, hblank, List.append_assoc, List.append_assoc]
  rfl

theorem parseStart_request {r : Request} (huri : r.uri.Writable) (h : Headers) (body : List UInt8) :
    Message.parseStart (headerSafe r.startLine) h body =
      some (.request { r with headers := h, body := body }) := by
  have hmethod := r.method.asStr_word
  have hne : r.uri.show ≠ [] := by
    intro hnil
    have := huri.parse
    rw [hnil] at this
    exact absurd this (by simp [Uri.parse, trim, trimStart, trimEnd, splitAt, splitOnce])
  have hwords : words (r.method.asStr ++ ' ' :: (r.uri.show ++ ' ' :: "SIP/2.0")) =
      [r.method.asStr, r.uri.show, "SIP/2.0"] := by
    rw [words_append_cons hmethod.1 (fun c hc ↦ (hmethod.2 c hc).1) (by decide),
      words_append_cons hne (fun c hc ↦ (huri.chars c hc).1) (by decide),
      words_singleton (by decide) (by decide)]
  have hver : ¬ ("SIP/" : Str).isPrefixOf (r.method.asStr ++ ' ' :: (r.uri.show ++ ' ' ::
      "SIP/2.0")) = true := by
    cases r.method <;> exact Bool.false_ne_true
  rw [headerSafe_startLine_request huri, Message.parseStart, if_neg hver, hwords]
  simp only [Option.bind_eq_bind, Method.parse_asStr, huri.parse, Option.bind_some]

/-- The start line of a response as it is written. -/
theorem headerSafe_startLine_response (r : Response) :
    headerSafe r.startLine = "SIP/2.0" ++ ' ' :: (dec r.code ++ ' ' :: headerSafe r.reason) := by
  have hplain : Plain ("SIP/2.0 " ++ dec r.code ++ " ") := by
    rw [plain_append, plain_append]
    exact ⟨⟨by decide, plain_dec _⟩, by decide⟩
  have hblank : ("SIP/2.0 " : Str) = "SIP/2.0" ++ [' '] ∧ (" " : Str) = [' '] := ⟨rfl, rfl⟩
  unfold Response.startLine
  refine (headerSafe_append hplain r.reason).trans ?_
  simp only [hblank, List.append_assoc, List.cons_append, List.nil_append]

theorem parseStart_response {r : Response} (hcode : r.code < 2 ^ 16) (h : Headers)
    (body : List UInt8) :
    Message.parseStart (headerSafe r.startLine) h body =
      some (.response { code := r.code, reason := headerSafe r.reason, headers := h, body }) := by
  have hcut {a : Str} (b : Str) (ha : ∀ x ∈ a, (x == ' ') = false) :
      splitAt ' ' (a ++ ' ' :: b) = some (a, b) :=
    splitOnce_append ha (beq_self_eq_true ' ')
  have hdec : ∀ x ∈ dec r.code, (x == ' ') = false := by
    intro x hx
    have := isWhitespace_of_mem_dec r.code x hx
    rw [beq_eq_false_iff_ne]
    rintro rfl
    exact absurd this (by decide)
  have hparse : parseU16 (dec r.code) = some r.code := by
    rw [parseU16, parseUnsigned_dec hcode]
  have hver : ("SIP/" : Str).isPrefixOf ("SIP/2.0" ++ ' ' :: (dec r.code ++ ' ' ::
      headerSafe r.reason)) = true := rfl
  rw [headerSafe_startLine_response, Message.parseStart, if_pos hver, hcut _ (by decide)]
  simp only [Option.bind_eq_bind, Option.bind_some, Uri.cut, hcut _ hdec, hparse,
    Option.getD_some]

/-- **What is written is read back, and no value gets out of its line.** -/
theorem parse_encode (hupper : ∀ c, c.toNat < 128 → toUppercase c = [c.toUpper]) {m : Message}
    (hstart : m.StartsWell) (hnames : ∀ f ∈ m.headers.fields, Token f.1) :
    Message.parse (m.encode toUppercase) = some m.onWire := by
  cases m with
  | request r =>
      have hne : headerSafe r.startLine ≠ [] := by
        rw [headerSafe_startLine_request hstart]
        simp
      have hnames : ∀ f ∈ r.headers.fields, Token f.1 := hnames
      rw [Message.encode, Request.encode, parse_serialize hupper hne hnames, trimBody_onWire,
        parseStart_request hstart]
      rfl
  | response r =>
      have hne : headerSafe r.startLine ≠ [] := by
        rw [headerSafe_startLine_response]
        simp
      have hnames : ∀ f ∈ r.headers.fields, Token f.1 := hnames
      rw [Message.encode, Response.encode, parse_serialize hupper hne hnames, trimBody_onWire,
        parseStart_response hstart]
      rfl

end RoundTrip

/-- A message whose sender and subject try to write header lines of their own. -/
def injecting : Message :=
  .request
    { method := .message
      uri := Uri.new none "gw" none
      headers := ⟨[("from", "<sip:a@h>\r\nContact: <sip:evil@h>"), ("subject", " hi\nthere ")]⟩
      body := [13, 10, 13, 10] }

theorem parse_encode_injecting :
    Message.parse (injecting.encode fun c ↦ [c.toUpper]) = some injecting.onWire ∧
      injecting.onWire.headers.fields =
        ([("from", "<sip:a@h>Contact: <sip:evil@h>"), ("subject", "hithere"),
          ("content-length", "4")] : List (Str × Str)) := by
  refine ⟨parse_encode (fun _ _ ↦ rfl) ⟨by decide, by decide⟩ ?_, by decide⟩
  intro f hf
  rcases (by simpa [injecting, Message.headers] using hf : _ ∨ _) with rfl | rfl
  · exact ⟨by decide, by decide, by decide⟩
  · exact ⟨by decide, by decide, by decide⟩

/-- A response that was given two lengths. -/
def twoLengths : Response :=
  ⟨200, "OK", ⟨[("content-length", "0"), ("content-length", "7")]⟩, [65]⟩

/-- Two lengths are put right one by one: neither is taken out. -/
theorem two_lengths_stay_two :
    ¬ ∀ m : Message, m.StartsWell → (∀ f ∈ m.headers.fields, Token f.1) →
      ∃ m', Message.parse (m.encode fun c ↦ [c.toUpper]) = some m' ∧
        (m'.headers.getAll "content-length").length = 1 := by
  intro h
  have hnames : ∀ f ∈ twoLengths.headers.fields, Token f.1 := by
    intro f hf
    rcases (by simpa [twoLengths] using hf : _ ∨ _) with rfl | rfl
    · exact token_contentLength
    · exact token_contentLength
  obtain ⟨m', hparse, hone⟩ := h (.response twoLengths) (by decide : 200 < 2 ^ 16) hnames
  have htwo : (Message.parse (twoLengths.encode fun c ↦ [c.toUpper])).map
      (fun m ↦ (m.headers.getAll "content-length").length) = some 2 := by
    decide +kernel
  rw [show twoLengths.encode _ = (Message.response twoLengths).encode _ from rfl, hparse,
    Option.map_some, Option.some.injEq] at htwo
  omega

end Modem2Sip.Sip
