import Modem2Sip.Api.Request
import Modem2Sip.Lib.Net

/-!
# The HTTP request of the client

`mms/http.rs`: what is written to the MMSC, or to the proxy in front of it.  The URL is the content
location of a notification, so whoever sent an SMS chose it, and it goes into the first line and into
the `Host` field.
-/

namespace Modem2Sip.Mms.Http

open Text Net

structure HttpOptions where
  /-- "host:port" of a WAP/HTTP proxy. -/
  proxy : Option Str
  interface : Option Str
  localIp : Option IpAddr
  /-- In seconds. -/
  timeout : Nat
  userAgent : Str
  uaProfile : Option Str
  maxSize : Nat
  dnsServers : List IpAddr
deriving DecidableEq, Repr

structure Url where
  host : Str
  port : Nat
  path : Str
deriving DecidableEq, Repr

/-! ## The URL -/

/-- The authority ends at the first of these. -/
def endsAuthority (c : Char) : Bool := c == '/' || c == '?' || c == '#'

/-- The path and the query, with a slash in front. -/
def urlPath : Str → Str
  | [] => ['/']
  | c :: s => if c = '/' then c :: s else '/' :: c :: s

/-- `rsplit(c).next()`: what stands behind the last one, all of it when there is none. -/
def behind (c : Char) (s : Str) : Str := ((rsplitAt c s).map Prod.snd).getD s

/-- The host and the port of an authority.  The colons of an address in brackets separate nothing. -/
def hostPort (authority : Str) : Str × Nat :=
  match rsplitAt ':' authority with
  | some (h, p) =>
    if ':' ∉ h ∨ h.getLast? = some ']' then (h, (parseU16 p).getD 80) else (authority, 80)
  | none => (authority, 80)

def parseUrl (url : Str) : Except Str Url :=
  if (utf8 url).any fun b ↦ b < 0x20 || b == 0x7F then
    .error "MMS URL contains control characters"
  else
    match stripPrefix "http://" url with
    | none =>
      if (("https://" : Str)).isPrefixOf url then
        .error ("https MMSC URLs are not supported: " ++ url)
      else .error ("unsupported MMS URL: " ++ url)
    | some rest =>
      let authority := rest.takeWhile fun c ↦ !endsAuthority c
      let path := urlPath (rest.dropWhile fun c ↦ !endsAuthority c)
      let (host, port) := hostPort (behind '@' authority)
      if host = [] then .error ("MMS URL has no host: " ++ url) else .ok { host, port, path }

/-! ## The request -/

/-- `host_header`. -/
def hostHeader (url : Url) : Str := if url.port = 80 then url.host else url.host ++ ':' :: dec url.port

def requestLine (method target : Str) : Str := method ++ ' ' :: (target ++ " HTTP/1.1")

/-- A field that is there only if it has a value. -/
def optionalField (name : Str) (value : Option Str) : List (Str × Str) := value.toList.map (Head.field name)

/-- The fields in front of the length of the body. -/
def leadingFields (target : Url) (contentType : Option Str) (opts : HttpOptions) : List (Str × Str) :=
  [Head.field "Host" (hostHeader target), Head.field "User-Agent" opts.userAgent] ++
    optionalField "x-wap-profile" opts.uaProfile ++
    [Head.field "Accept" "application/vnd.wap.mms-message, */*", Head.field "Accept-Charset" "utf-8",
      Head.field "Connection" "close"] ++
    optionalField "Content-Type" contentType

def requestFields (target : Url) (contentType : Option Str) (opts : HttpOptions) (len : Nat) :
    List (Str × Str) := leadingFields target contentType opts ++ [Head.field "Content-Length" (dec len)]

/-- A request that is ready to be sent, and where to. -/
structure Prepared where
  connectHost : Str
  connectPort : Nat
  bytes : List UInt8
deriving DecidableEq, Repr

/-- Where to connect to, and the target of the request line: a proxy gets the URL as it is. -/
def route (url : Str) (target : Url) (proxy : Option Str) : Except Str (Str × Nat × Str) :=
  match proxy with
  | none => .ok (target.host, target.port, target.path)
  | some proxy =>
    match rsplitAt ':' proxy with
    | none => .error "mms.proxy must be host:port"
    | some (h, p) =>
      match parseU16 p with
      | none => .error "mms.proxy port"
      | some port => .ok (h, port, url)

/-- `request`, up to the resolution of the name. -/
def prepare (method url : Str) (contentType : Option Str) (body : Option (List UInt8))
    (opts : HttpOptions) : Except Str Prepared := do
  let target ← parseUrl url
  let (connectHost, connectPort, requestTarget) ← route url target opts.proxy
  let body := body.getD []
  return {
    connectHost
    connectPort
    bytes := Head.bytes (requestLine method requestTarget ::
      (requestFields target contentType opts body.length).map Head.line) body }

def get (url : Str) (opts : HttpOptions) : Except Str Prepared := prepare "GET" url none none opts

def post (url contentType : Str) (body : List UInt8) (opts : HttpOptions) : Except Str Prepared :=
  prepare "POST" url (some contentType) (some body) opts

/-! ## What is accepted as a URL -/

/-- An accepted URL has no control characters, and nothing else ends up in the request. -/
structure Parsed (url : Str) (target : Url) : Prop where
  le : ∀ c ∈ url, 0x20 ≤ c.toNat
  url_head : url.head? = some 'h'
  host_ne_nil : target.host ≠ []
  mem_host : ∀ c ∈ target.host, c ∈ url
  path_head : target.path.head? = some '/'
  mem_path : ∀ c ∈ target.path, c = '/' ∨ c ∈ url

theorem le_of_any_eq_false {url : Str}
    (h : ((utf8 url).any fun b ↦ b < 0x20 || b == 0x7F) = false) : ∀ c ∈ url, 0x20 ≤ c.toNat := by
  intro c hc
  by_contra hlt
  have hmem : UInt8.ofNat c.toNat ∈ utf8 url := by
    rw [← mem_utf8_of_ascii (c := c) (by omega)] at hc
    exact hc
  have := List.any_eq_false.mp h _ hmem
  simp only [Bool.or_eq_true, decide_eq_true_eq, not_or, UInt8.lt_iff_toNat_lt, UInt8.toNat_ofNat'] at this
  have h32 : (0x20 : UInt8).toNat = 32 := rfl
  omega

theorem mem_behind {c d : Char} {s : Str} (h : d ∈ behind c s) : d ∈ s := by
  unfold behind at h
  cases hsplit : rsplitAt c s with
  | none => rwa [hsplit] at h
  | some ab =>
    obtain ⟨a, b⟩ := ab
    rw [hsplit] at h
    rw [(eq_of_rsplitAt hsplit).1]
    exact List.mem_append_right a (List.mem_cons_of_mem c h)

theorem mem_hostPort {d : Char} {s : Str} (h : d ∈ (hostPort s).1) : d ∈ s := by
  unfold hostPort at h
  split at h
  · rename_i a b hsplit
    split at h
    · rw [(eq_of_rsplitAt hsplit).1]
      exact List.mem_append_left _ h
    · exact h
  · exact h

theorem urlPath_head (s : Str) : (urlPath s).head? = some '/' := by
  cases s with
  | nil => rfl
  | cons c s =>
    by_cases hc : c = '/'
    · rw [urlPath, if_pos hc, hc]
      rfl
    · rw [urlPath, if_neg hc]
      rfl

theorem mem_urlPath {d : Char} {s : Str} (h : d ∈ urlPath s) : d = '/' ∨ d ∈ s := by
  cases s with
  | nil => exact .inl (List.mem_singleton.mp h)
  | cons c s =>
    by_cases hc : c = '/'
    · rw [urlPath, if_pos hc] at h
      exact .inr h
    · rw [urlPath, if_neg hc] at h
      exact List.mem_cons.mp h

theorem parsed_of_parseUrl {url : Str} {target : Url} (h : parseUrl url = .ok target) :
    Parsed url target := by
  unfold parseUrl at h
  split at h
  · cases h
  rename_i hcontrol
  split at h
  · split at h <;> cases h
  rename_i rest hscheme
  have hurl : url = ("http://" : Str) ++ rest := by
    unfold stripPrefix at hscheme
    split at hscheme
    · rename_i hpre
      obtain ⟨t, ht⟩ := List.isPrefixOf_iff_prefix.mp hpre
      cases hscheme
      rw [← ht, List.drop_left]
    · cases hscheme
  have hrest {c : Char} (hc : c ∈ rest) : c ∈ url := hurl ▸ List.mem_append_right _ hc
  dsimp only at h
  split at h
  · cases h
  rename_i hhost
  cases h
  exact {
    le := le_of_any_eq_false (by simpa using hcontrol)
    url_head := by rw [hurl]; rfl
    host_ne_nil := hhost
    mem_host := fun c hc ↦ hrest ((List.takeWhile_sublist _).subset (mem_behind (mem_hostPort hc)))
    path_head := urlPath_head _
    mem_path := fun c hc ↦ (mem_urlPath hc).imp_right fun hc ↦
      hrest ((List.dropWhile_sublist _).subset hc) }

/-! ## What is written is one request -/

/-- A text that can be put into a line. -/
def Unbroken (s : Str) : Prop := '\r' ∉ s ∧ '\n' ∉ s

instance (s : Str) : Decidable (Unbroken s) := inferInstanceAs (Decidable (_ ∧ _))

theorem Unbroken.append {a b : Str} (ha : Unbroken a) (hb : Unbroken b) : Unbroken (a ++ b) :=
  ⟨List.not_mem_append ha.1 hb.1, List.not_mem_append ha.2 hb.2⟩

theorem unbroken_dec (n : Nat) : Unbroken (dec n) :=
  ⟨(plain_dec n).not_mem (by decide), (plain_dec n).not_mem (by decide)⟩

theorem Parsed.unbroken {url : Str} {target : Url} (h : Parsed url target) :
    Unbroken url ∧ Unbroken target.host ∧ Unbroken target.path := by
  have hurl {c : Char} (hc : c.toNat < 0x20) : c ∉ url := fun hmem ↦ by
    have := h.le c hmem
    omega
  refine ⟨⟨hurl (by decide), hurl (by decide)⟩, ⟨?_, ?_⟩, ?_, ?_⟩
  · exact fun hmem ↦ hurl (by decide) (h.mem_host _ hmem)
  · exact fun hmem ↦ hurl (by decide) (h.mem_host _ hmem)
  · exact fun hmem ↦ (h.mem_path _ hmem).elim (by decide) (hurl (by decide))
  · exact fun hmem ↦ (h.mem_path _ hmem).elim (by decide) (hurl (by decide))

theorem unbroken_hostHeader {target : Url} (h : Unbroken target.host) :
    Unbroken (hostHeader target) := by
  unfold hostHeader
  split
  · exact h
  · obtain ⟨hcr, hlf⟩ := unbroken_dec target.port
    exact h.append ⟨List.not_mem_cons_of_ne_of_not_mem (by decide) hcr,
      List.not_mem_cons_of_ne_of_not_mem (by decide) hlf⟩

/-- The names of the fields in front of the length. -/
def leadingNames : List Str :=
  ["Host", "User-Agent", "x-wap-profile", "Accept", "Accept-Charset", "Connection", "Content-Type"]

/-- What the operator configures, and the type of the body, have no line ends in them. -/
structure Settled (contentType : Option Str) (opts : HttpOptions) : Prop where
  userAgent : Unbroken opts.userAgent
  uaProfile : ∀ p ∈ opts.uaProfile, Unbroken p
  contentType : ∀ ct ∈ contentType, Unbroken ct

theorem leadingFields_spec {target : Url} {contentType : Option Str} {opts : HttpOptions}
    (hhost : Unbroken target.host) (h : Settled contentType opts) :
    ∀ f ∈ leadingFields target contentType opts, f.1 ∈ leadingNames ∧ Unbroken f.2 := by
  intro f hf
  simp only [leadingFields, optionalField, List.mem_append, List.mem_cons, List.not_mem_nil, or_false,
    List.mem_map, Option.mem_toList] at hf
  rcases hf with (((rfl | rfl) | ⟨p, hp, rfl⟩) | rfl | rfl | rfl) | ⟨ct, hct, rfl⟩
  · exact ⟨show ("Host" : Str) ∈ leadingNames by decide, unbroken_hostHeader hhost⟩
  · exact ⟨show ("User-Agent" : Str) ∈ leadingNames by decide, h.userAgent⟩
  · exact ⟨show ("x-wap-profile" : Str) ∈ leadingNames by decide, h.uaProfile p hp⟩
  · exact ⟨by decide, by decide⟩
  · exact ⟨by decide, by decide⟩
  · exact ⟨by decide, by decide⟩
  · exact ⟨show ("Content-Type" : Str) ∈ leadingNames by decide, h.contentType ct hct⟩

theorem names_ok : ∀ n ∈ leadingNames ++ [("Content-Length" : Str)],
    ':' ∉ n ∧ trim n = n ∧ n ≠ [] ∧ Unbroken n := by decide

theorem leadingNames_ne : ∀ n ∈ leadingNames, eqIgnoreCase n "content-length" = false := by decide

theorem requestFields_spec {target : Url} {contentType : Option Str} {opts : HttpOptions} (len : Nat)
    (hhost : Unbroken target.host) (h : Settled contentType opts) :
    ∀ f ∈ requestFields target contentType opts len,
      f.1 ∈ leadingNames ++ [("Content-Length" : Str)] ∧ Unbroken f.2 := by
  intro f hf
  rcases List.mem_append.mp hf with hf | hf
  · obtain ⟨hname, hvalue⟩ := leadingFields_spec hhost h f hf
    exact ⟨List.mem_append_left _ hname, hvalue⟩
  · rw [List.mem_singleton.mp hf]
    exact ⟨List.mem_append_right _ (List.mem_singleton_self _), unbroken_dec len⟩

/-- The first line, and what the server makes of it: the target as far as the first white space. -/
theorem words_requestLine {method target : Str} (hmethod : method = "GET" ∨ method = "POST")
    (htarget : ∀ c ∈ target.head?, isWhitespace c = false) (hne : target ≠ []) :
    (words (requestLine method target))[0]? = some method ∧
      (words (requestLine method target))[1]? = some (target.takeWhile fun c ↦ !isWhitespace c) := by
  have hword : method ≠ [] ∧ ∀ c ∈ method, isWhitespace c = false := by
    rcases hmethod with rfl | rfl <;> decide
  obtain ⟨first, rest, rfl⟩ := List.exists_cons_of_ne_nil hne
  have hfirst : isWhitespace first = false := htarget first rfl
  -- What is behind the target starts with a blank, if the target itself has none.
  obtain ⟨c, s, hc, hsplit⟩ : ∃ c s, isWhitespace c = true ∧ (first :: rest) ++ (" HTTP/1.1" : Str) =
      ((first :: rest).takeWhile fun c ↦ !isWhitespace c) ++ c :: s := by
    cases hdrop : (first :: rest).dropWhile fun c ↦ !isWhitespace c with
    | nil =>
      refine ⟨' ', "HTTP/1.1", by decide, ?_⟩
      have hall := List.takeWhile_append_dropWhile (p := fun c ↦ !isWhitespace c) (l := first :: rest)
      rw [hdrop, List.append_nil] at hall
      rw [hall]
      rfl
    | cons c s =>
      have hhead := List.head?_dropWhile_not (fun c ↦ !isWhitespace c) (first :: rest)
      rw [hdrop] at hhead
      refine ⟨c, s ++ " HTTP/1.1", by simpa using hhead, ?_⟩
      have hall := List.takeWhile_append_dropWhile (p := fun c ↦ !isWhitespace c) (l := first :: rest)
      rw [hdrop] at hall
      rw [← List.cons_append, ← List.append_assoc, hall]
  have hwords : words (requestLine method (first :: rest)) =
      method :: ((first :: rest).takeWhile fun c ↦ !isWhitespace c) :: words s := by
    rw [requestLine, words_append_cons hword.1 hword.2 (by decide), hsplit, words_append_cons _ _ hc]
    · rw [List.takeWhile_cons_of_pos (by rw [hfirst]; rfl)]
      exact List.cons_ne_nil _ _
    · intro d hd
      have := List.mem_takeWhile_imp hd
      simpa using this
  rw [hwords]
  exact ⟨rfl, rfl⟩

/-- The target that goes into the request line. -/
def requestTarget (url : Str) (target : Url) (opts : HttpOptions) : Str :=
  if opts.proxy = none then target.path else url

theorem route_ok {url : Str} {target : Url} {opts : HttpOptions} {r : Str × Nat × Str}
    (h : route url target opts.proxy = .ok r) : r.2.2 = requestTarget url target opts := by
  unfold route at h
  unfold requestTarget
  cases hproxy : opts.proxy with
  | none =>
    rw [hproxy] at h
    cases h
    rfl
  | some proxy =>
    rw [hproxy] at h
    dsimp only at h
    split at h
    · cases h
    split at h
    · cases h
    · cases h
      rfl

/-- A prepared request, taken apart. -/
theorem bytes_of_prepare {method url : Str} {contentType : Option Str} {body : Option (List UInt8)}
    {opts : HttpOptions} {p : Prepared} (h : prepare method url contentType body opts = .ok p) :
    ∃ target, parseUrl url = .ok target ∧
      p.bytes = Head.bytes (requestLine method (requestTarget url target opts) ::
        (requestFields target contentType opts (body.getD []).length).map Head.line)
          (body.getD []) := by
  unfold prepare at h
  cases hurl : parseUrl url with
  | error e =>
    rw [hurl] at h
    cases h
  | ok target =>
    rw [hurl] at h
    cases hroute : route url target opts.proxy with
    | error e =>
      replace h : (route url target opts.proxy >>= _) = _ := h
      rw [hroute] at h
      cases h
    | ok r =>
      replace h : (route url target opts.proxy >>= _) = _ := h
      rw [hroute] at h
      cases h
      exact ⟨target, rfl, by rw [← route_ok hroute]⟩

theorem requestTarget_spec {url : Str} {target : Url} (opts : HttpOptions) (h : Parsed url target) :
    Unbroken (requestTarget url target opts) ∧ requestTarget url target opts ≠ [] ∧
      ∀ c ∈ (requestTarget url target opts).head?, isWhitespace c = false := by
  obtain ⟨hurl, -, hpath⟩ := h.unbroken
  have hhead {s : Str} {d : Char} (hd : s.head? = some d) (hdark : isWhitespace d = false) :
      s ≠ [] ∧ ∀ c ∈ s.head?, isWhitespace c = false := by
    refine ⟨?_, ?_⟩
    · rintro rfl
      cases hd
    · rintro c hc
      rwa [← Option.some.inj (hd.symm.trans hc)]
  unfold requestTarget
  split
  · exact ⟨hpath, hhead h.path_head (by decide)⟩
  · exact ⟨hurl, hhead h.url_head (by decide)⟩

section ReadBack

variable {method url : Str} {contentType : Option Str} {body : Option (List UInt8)}
  {opts : HttpOptions}

/-- The request that a prepared one is read as. -/
def requestRead (method url : Str) (target : Url) (contentType : Option Str) (body : List UInt8)
    (opts : HttpOptions) : Api.HttpRequest where
  method
  path := (Api.splitTarget ((requestTarget url target opts).takeWhile fun c ↦ !isWhitespace c)).1
  query := (Api.splitTarget ((requestTarget url target opts).takeWhile fun c ↦ !isWhitespace c)).2
  headers := (requestFields target contentType opts body.length).map fun f ↦ (f.1, trim f.2)
  body

theorem parseLines_request {target : Url} (hmethod : method = "GET" ∨ method = "POST")
    (h : Parsed url target) (hset : Settled contentType opts) (len : Nat) :
    Api.parseLines (requestLine method (requestTarget url target opts) ::
        (requestFields target contentType opts len).map Head.line) =
      { requestRead method url target contentType [] opts with
        headers := (requestFields target contentType opts len).map fun f ↦ (f.1, trim f.2) } := by
  obtain ⟨-, hne, hhead⟩ := requestTarget_spec opts h
  obtain ⟨hfirst, hsecond⟩ := words_requestLine hmethod hhead hne
  have hfields : Head.fields ((requestFields target contentType opts len).map Head.line) =
      (requestFields target contentType opts len).map fun f ↦ (f.1, trim f.2) := by
    refine Head.fields_map_line fun f hf ↦ ?_
    obtain ⟨hname, -⟩ := requestFields_spec len h.unbroken.2.1 hset f hf
    obtain ⟨hcolon, htrim, -⟩ := names_ok f.1 hname
    exact ⟨hcolon, htrim⟩
  unfold Api.parseLines requestRead
  dsimp only [List.head?_cons, Option.getD_some, List.tail_cons]
  rw [hfirst, hsecond, hfields]
  rfl

theorem contentLength_request {w : Nat} {target : Url} (h : Parsed url target)
    (hset : Settled contentType opts) (r : Api.HttpRequest) {len : Nat} (hlen : len < 2 ^ w)
    (hr : r.headers = (requestFields target contentType opts len).map fun f ↦ (f.1, trim f.2)) :
    Api.contentLength w r = len := by
  have hother : ((leadingFields target contentType opts).map fun f ↦ (f.1, trim f.2)).find?
      (fun kv ↦ eqIgnoreCase kv.1 "content-length") = none := by
    rw [List.find?_eq_none]
    intro kv hkv
    obtain ⟨f, hf, rfl⟩ := List.mem_map.mp hkv
    obtain ⟨hname, -⟩ := leadingFields_spec h.unbroken.2.1 hset f hf
    simpa using leadingNames_ne f.1 hname
  have hdec : trim (dec len) = dec len := trim_eq_self (isWhitespace_of_mem_dec len)
  have hlast : ([Head.field "Content-Length" (dec len)].map fun f ↦ (f.1, trim f.2)).find?
      (fun kv ↦ eqIgnoreCase kv.1 "content-length") = some (Head.field "Content-Length" (dec len)) := by
    rw [List.map_singleton, List.find?_singleton]
    exact (if_pos (show eqIgnoreCase "Content-Length" "content-length" = true by decide)).trans
      (congrArg some (Prod.ext rfl hdec))
  have hheader : r.header "content-length" = some (dec len) := by
    unfold Api.HttpRequest.header
    rw [hr, requestFields, List.map_append, List.find?_append, hother, hlast]
    rfl
  rw [Api.contentLength, hheader, Option.bind_some, hdec, parseUnsigned_dec hlen]
  rfl

/-- Whatever URL a notification names, what is sent for it is read as one request, with the fields
that were meant and no others, and with the whole body. -/
theorem readRequest_prepare (w : Nat) {p : Prepared} (hmethod : method = "GET" ∨ method = "POST")
    (hset : Settled contentType opts) (hprep : prepare method url contentType body opts = .ok p)
    (hw : (body.getD []).length < 2 ^ w) (hbody : (body.getD []).length ≤ 32 * 1024 * 1024)
    (hfits : Api.HeadFits p.bytes) (c : Cut p.bytes) (hc : Api.Small c) :
    ∃ target, parseUrl url = .ok target ∧ Api.readRequest w c.connection =
      .ok (some (requestRead method url target contentType (body.getD []) opts)) := by
  obtain ⟨target, hurl, hbytes⟩ := bytes_of_prepare hprep
  have hparsed := parsed_of_parseUrl hurl
  have hlines : ∀ l ∈ requestLine method (requestTarget url target opts) ::
      (requestFields target contentType opts (body.getD []).length).map Head.line, Head.Line l := by
    obtain ⟨htarget, -⟩ := requestTarget_spec opts hparsed
    have hword : Unbroken method ∧ method ≠ [] := by rcases hmethod with rfl | rfl <;> decide
    refine List.forall_mem_cons.mpr ⟨?_, ?_⟩
    · have hline := hword.1.append ((show Unbroken [' '] by decide).append
        (htarget.append (show Unbroken " HTTP/1.1" by decide)))
      exact ⟨List.append_ne_nil_of_left_ne_nil hword.2 _, hline.1, hline.2⟩
    · intro l hl
      obtain ⟨f, hf, rfl⟩ := List.mem_map.mp hl
      obtain ⟨hname, hvalue⟩ := requestFields_spec _ hparsed.unbroken.2.1 hset f hf
      obtain ⟨-, -, hne, hname⟩ := names_ok f.1 hname
      exact Head.line_line ⟨hne, hname.1, hname.2⟩ hvalue.1 hvalue.2
  have hread := parseLines_request hmethod hparsed hset (body.getD []).length
  have hlen := contentLength_request (w := w) hparsed hset _ hw (congrArg Api.HttpRequest.headers hread)
  refine ⟨target, hurl, ?_⟩
  rw [Api.readRequest_of_cut w hfits c hc, hbytes,
    Api.requestOf_bytes w (List.cons_ne_nil _ _) hlines, hlen, if_neg (Nat.not_lt.mpr hbody),
    List.take_length, hread]
  rfl

end ReadBack

namespace Sample

def options : HttpOptions where
  proxy := none
  interface := none
  localIp := none
  timeout := 60
  userAgent := "modem2sip"
  uaProfile := none
  maxSize := 2 * 1024 * 1024
  dnsServers := []

/-- What is sent for the content location `http://mmsc.example?id=42`. -/
def prepared : Prepared where
  connectHost := "mmsc.example"
  connectPort := 80
  bytes := Head.bytes ["GET /?id=42 HTTP/1.1", "Host: mmsc.example", "User-Agent: modem2sip",
    "Accept: application/vnd.wap.mms-message, */*", "Accept-Charset: utf-8", "Connection: close",
    "Content-Length: 0"] []

end Sample

open Sample in
theorem readRequest_prepare_ok : ∃ target, parseUrl "http://mmsc.example?id=42" = .ok target ∧
    Api.readRequest 64 ⟨[prepared.bytes], none⟩ =
      .ok (some (requestRead "GET" "http://mmsc.example?id=42" target none [] options)) := by
  have hprep : prepare "GET" "http://mmsc.example?id=42" none none options = .ok prepared := by
    decide +kernel
  have hset : Settled none options := ⟨by decide, by rintro _ ⟨⟩, by rintro _ ⟨⟩⟩
  have hfind : find prepared.bytes [13, 10, 13, 10] = some 170 := by decide +kernel
  have hfits : Api.HeadFits prepared.bytes :=
    Api.headFits_of_find hfind (Nat.le_of_ble_eq_true rfl)
  have hlen : prepared.bytes.length ≤ 4096 := by decide +kernel
  have hne : prepared.bytes ≠ [] := by
    intro hnil
    rw [hnil] at hfind
    cases hfind
  let c : Cut prepared.bytes :=
    ⟨[prepared.bytes], List.forall_mem_singleton.mpr hne, List.append_nil _⟩
  have hsmall : Api.Small c := by
    intro r hr
    rwa [List.mem_singleton.mp hr]
  exact readRequest_prepare 64 (.inl rfl) hset hprep (by decide) (Nat.zero_le _) hfits c hsmall

end Modem2Sip.Mms.Http
