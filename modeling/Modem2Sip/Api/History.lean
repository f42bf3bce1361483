import Modem2Sip.Api.Answer
import Modem2Sip.Api.Route

/-!
# Reading the history

A client of the API reads all messages by pages.  Meanwhile the gateway goes on storing messages; the
pages show every message that was there at the first of them once, and none that came in later.
-/

namespace Modem2Sip.Api

open Text Mms.Http Store

/-! ## Asking with `GET` -/

/-- A token that a client can present: on one line, with no blanks around it. -/
structure Presentable (token : Str) : Prop where
  ne_nil : token ≠ []
  neat : Neat token
  length : token.length ≤ 8192

def authFields (token : Option Str) : List (Str × Str) :=
  token.toList.map fun token ↦ Head.field "Authorization" ("Bearer " ++ token)

/-- What a client sends that asks for a target. -/
def getRequest (token : Option Str) (target : Str) : List UInt8 :=
  Head.bytes (requestLine "GET" target :: (authFields token).map Head.line) []

/-- A target of a request line. -/
structure Target (target : Str) : Prop where
  ne_nil : target ≠ []
  dark : ∀ c ∈ target, isWhitespace c = false
  length : target.length ≤ 4096

/-- The request that it is read as. -/
def asked (token : Option Str) (target : Str) : HttpRequest where
  method := "GET"
  path := (splitTarget target).1
  query := (splitTarget target).2
  headers := authFields token
  body := []

variable {token : Option Str} {target : Str}

theorem neat_bearer {token : Str} (h : Presentable token) : Neat ("Bearer " ++ token) := by
  obtain ⟨htrim, hcr, hlf⟩ := h.neat
  refine ⟨trim_of_ends ?_ ?_, List.not_mem_append (by decide) hcr,
    List.not_mem_append (by decide) hlf⟩
  · rintro _ ⟨⟩
    decide
  · rcases trim_cases token with hnil | ⟨-, t, c, hc, hlast⟩
    · exact absurd (htrim.symm.trans hnil) h.ne_nil
    · rw [← htrim, hlast, ← List.append_assoc, List.getLast?_concat]
      rintro _ ⟨⟩
      exact hc

theorem authFields_spec (h : ∀ t ∈ token, Presentable t) : (authFields token).length ≤ 1 ∧
    ∀ f ∈ authFields token, f.1 = "Authorization" ∧ Neat f.2 ∧ f.2.length ≤ 8199 := by
  cases token with
  | none => exact ⟨Nat.zero_le _, List.forall_mem_nil _⟩
  | some t =>
      refine ⟨Nat.le_refl _, List.forall_mem_singleton.mpr ⟨rfl, neat_bearer (h t rfl), ?_⟩⟩
      have hbearer : ("Bearer " : Str).length = 7 := by decide
      have ht := (h t rfl).length
      change (("Bearer " : Str) ++ t).length ≤ 8199
      rw [List.length_append, hbearer]
      omega

theorem fields_authFields (h : ∀ t ∈ token, Presentable t) :
    Head.fields ((authFields token).map Head.line) = authFields token := by
  have hname : ':' ∉ ("Authorization" : Str) ∧ trim "Authorization" = "Authorization" := by decide
  rw [Head.fields_map_line fun f hf ↦ ((authFields_spec h).2 f hf).1 ▸ hname]
  refine (List.map_congr_left fun f hf ↦ ?_).trans (List.map_id _)
  exact Prod.ext rfl ((authFields_spec h).2 f hf).2.1.1

theorem header_authFields {r : HttpRequest} (hr : r.headers = authFields token) :
    r.header "authorization" = token.map (fun t ↦ ("Bearer " : Str) ++ t) ∧
      r.header "content-length" = none := by
  have hsame : eqIgnoreCase "Authorization" "authorization" = true := by decide
  have hother : eqIgnoreCase "Authorization" "content-length" = false := by decide
  unfold HttpRequest.header
  rw [hr]
  cases token with
  | none => exact ⟨rfl, rfl⟩
  | some t =>
      constructor
      · rw [authFields, Option.toList_some, List.map_singleton, List.find?_singleton]
        exact congrArg (Option.map Prod.snd) (if_pos hsame)
      · rw [authFields, Option.toList_some, List.map_singleton, List.find?_singleton]
        exact congrArg (Option.map Prod.snd) (if_neg (ne_true_of_eq_false hother))

/-- Whoever presents the token may ask. -/
theorem authorized_authFields (h : ∀ t ∈ token, Presentable t) {r : HttpRequest}
    (hr : r.headers = authFields token) : authorized token r = true := by
  cases token with
  | none => rfl
  | some t =>
      have ht := h t rfl
      refine (authorized_some ht.ne_nil).mpr
        ⟨"Bearer " ++ t, t, (header_authFields hr).1, ?_, ht.neat.1⟩
      rw [(neat_bearer ht).1, stripPrefix_append]

theorem not_mem_target (h : Target target) {c : Char} (hc : isWhitespace c = true) : c ∉ target :=
  fun hmem ↦ Bool.false_ne_true ((h.dark c hmem).symm.trans hc)

theorem lines_getRequest (htoken : ∀ t ∈ token, Presentable t) (h : Target target) :
    ∀ l ∈ requestLine "GET" target :: (authFields token).map Head.line, Head.Line l := by
  refine List.forall_mem_cons.mpr ⟨?_, ?_⟩
  · have hget : Head.Line ("GET" : Str) := ⟨by decide, by decide, by decide⟩
    refine hget.append ?_ ?_
    · rw [List.mem_cons, List.mem_append, not_or, not_or]
      exact ⟨by decide, not_mem_target h (by decide), by decide⟩
    · rw [List.mem_cons, List.mem_append, not_or, not_or]
      exact ⟨by decide, not_mem_target h (by decide), by decide⟩
  · intro l hl
    obtain ⟨f, hf, rfl⟩ := List.mem_map.mp hl
    obtain ⟨hname, ⟨-, hcr, hlf⟩, -⟩ := (authFields_spec htoken).2 f hf
    have hline : Head.Line ("Authorization" : Str) := ⟨by decide, by decide, by decide⟩
    exact Head.line_line (hname ▸ hline) hcr hlf

theorem parseLines_getRequest (htoken : ∀ t ∈ token, Presentable t) (h : Target target) :
    parseLines (requestLine "GET" target :: (authFields token).map Head.line) =
      asked token target := by
  have hhead : ∀ c ∈ target.head?, isWhitespace c = false :=
    fun c hc ↦ h.dark c (List.mem_of_mem_head? hc)
  obtain ⟨hfirst, hsecond⟩ := words_requestLine (.inl rfl) hhead h.ne_nil
  have hwhole : (target.takeWhile fun c ↦ !isWhitespace c) = target :=
    List.takeWhile_eq_self_iff.mpr fun c hc ↦ by rw [h.dark c hc]; rfl
  rw [hwhole] at hsecond
  unfold parseLines asked
  dsimp only [List.head?_cons, Option.getD_some, List.tail_cons]
  rw [hfirst, hsecond, fields_authFields htoken]
  rfl

theorem length_requestLine (target : Str) : (requestLine "GET" target).length = target.length + 13 := by
  have hget : ("GET" : Str).length = 3 := by decide
  have hversion : (" HTTP/1.1" : Str).length = 9 := by decide
  unfold requestLine
  rw [List.length_append, List.length_cons, List.length_append, hget, hversion]
  omega

theorem headFits_getRequest (htoken : ∀ t ∈ token, Presentable t) (h : Target target) :
    HeadFits (getRequest token target) := by
  have hne := List.cons_ne_nil (requestLine "GET" target) ((authFields token).map Head.line)
  refine headFits_of_find (Head.findSub_bytes hne (lines_getRequest htoken h) []) ?_
  obtain ⟨hcount, hfields⟩ := authFields_spec htoken
  have hname : ("Authorization" : Str).length = 13 := by decide
  have hlines := Head.length_flatMap_line_le (a := 13) (b := 8199) fun f hf ↦
    ⟨((hfields f hf).1 ▸ hname).le, (hfields f hf).2.2⟩
  have hmul := Nat.mul_le_mul_right (13 + 8199 + 4) hcount
  have hbytes := length_bytes_nil hne
  have htext := length_utf8_le ((requestLine "GET" target ::
    (authFields token).map Head.line).flatMap (· ++ Head.crlf) ++ Head.crlf)
  have hcrlf : Head.crlf.length = 2 := rfl
  have htarget := h.length
  rw [Head.bytes, List.append_nil] at hbytes
  rw [hbytes, List.flatMap_cons, List.length_append, List.length_append, List.length_append,
    hcrlf, length_requestLine] at htext
  omega

/-- What a client sends is read as what it asks, however it is cut. -/
theorem readRequest_getRequest (w : Nat) (htoken : ∀ t ∈ token, Presentable t) (h : Target target)
    (c : Cut (getRequest token target)) (hc : Small c) :
    readRequest w c.connection = .ok (some (asked token target)) := by
  have hlen : contentLength w (asked token target) = 0 := by
    have hnone := (header_authFields (r := asked token target) rfl).2
    unfold contentLength
    rw [hnone]
    rfl
  rw [readRequest_of_cut w (headFits_getRequest htoken h) c hc, getRequest,
    requestOf_bytes w (List.cons_ne_nil _ _) (lines_getRequest htoken h),
    parseLines_getRequest htoken h, hlen, if_neg (Nat.not_lt.mpr (Nat.zero_le _)), List.take_zero]
  rfl

/-- And is answered as that. -/
theorem serve_getRequest (w : Nat) (htoken : ∀ t ∈ token, Presentable t) (h : Target target)
    (s : State) (c : Cut (getRequest token target)) (hc : Small c) :
    serve w token s c.connection = some (reply token s (asked token target)) := by
  rw [serve, readRequest_getRequest w htoken h c hc]

/-! ## Asking for a page -/

/-- The messages before a message, if one is given. -/
def beforePart (before : Option Int) : Str :=
  before.toList.flatMap fun b ↦ ("&before=" : Str) ++ decInt b

def pageQuery (n : Nat) (before : Option Int) : Str := ("limit=" : Str) ++ (dec n ++ beforePart before)

/-- The target of the next page. -/
def pageTarget (n : Nat) (before : Option Int) : Str := ("/messages" : Str) ++ '?' :: pageQuery n before

/-- The last message of a page, before which the next one starts. -/
def cursor (before : Option Int) (page : List StoredMessage) : Option Int :=
  Paging.next before (page.map fun m ↦ (m.id : Int))

/-- A number in the range of `i64`. -/
def InI64 (n : Int) : Prop := -2 ^ 63 ≤ n ∧ n < 2 ^ 63

theorem isWhitespace_of_mem_decInt (n : Int) : ∀ c ∈ decInt n, isWhitespace c = false := by
  cases n with
  | ofNat n => exact isWhitespace_of_mem_dec n
  | negSucc n => exact List.forall_mem_cons.mpr ⟨by decide, isWhitespace_of_mem_dec (n + 1)⟩

theorem length_decInt_le {n : Int} (h : InI64 n) : (decInt n).length ≤ 20 := by
  have hpow : 2 ^ 63 < 10 ^ 19 := by decide
  cases n with
  | ofNat n =>
      have hlt : n < 2 ^ 63 := Int.ofNat_lt.mp h.2
      exact (length_dec_le (k := 19) (by decide) (hlt.trans hpow)).trans (by decide)
  | negSucc n =>
      have hle : n + 1 ≤ 2 ^ 63 := by
        have := h.1
        omega
      exact Nat.succ_le_succ (length_dec_le (k := 19) (by decide) (hle.trans_lt hpow))

variable {n : Nat} {before : Option Int}

theorem beforePart_spec (h : ∀ b ∈ before, InI64 b) :
    (∀ c ∈ beforePart before, isWhitespace c = false) ∧ (beforePart before).length ≤ 28 := by
  cases before with
  | none => exact ⟨List.forall_mem_nil _, Nat.zero_le _⟩
  | some b =>
      have hkey : ("&before=" : Str).length = 8 := by decide
      have hblank : ∀ c ∈ ("&before=" : Str), isWhitespace c = false := by decide
      have hb := length_decInt_le (h b rfl)
      rw [beforePart, Option.toList_some, List.flatMap_singleton, List.length_append, hkey]
      exact ⟨List.forall_mem_append.mpr ⟨hblank, isWhitespace_of_mem_decInt b⟩, by omega⟩

theorem target_pageTarget (hn : n < 2 ^ 63) (hbefore : ∀ b ∈ before, InI64 b) :
    Target (pageTarget n before) where
  ne_nil := List.append_ne_nil_of_right_ne_nil _ (List.cons_ne_nil _ _)
  dark := by
    have hpath : ∀ c ∈ ("/messages" : Str), isWhitespace c = false := by decide
    have hkey : ∀ c ∈ ("limit=" : Str), isWhitespace c = false := by decide
    exact List.forall_mem_append.mpr ⟨hpath, List.forall_mem_cons.mpr ⟨by decide,
      List.forall_mem_append.mpr ⟨hkey, List.forall_mem_append.mpr
        ⟨isWhitespace_of_mem_dec n, (beforePart_spec hbefore).1⟩⟩⟩⟩
  length := by
    have hdec : (dec n).length ≤ 19 :=
      length_dec_le (by decide) (hn.trans (show 2 ^ 63 < 10 ^ 19 by decide))
    have hpath : ("/messages" : Str).length = 9 := by decide
    have hkey : ("limit=" : Str).length = 6 := by decide
    have hrest := (beforePart_spec hbefore).2
    unfold pageTarget pageQuery
    rw [List.length_append, List.length_cons, List.length_append, List.length_append, hpath, hkey]
    omega

/-- What is no percent sign stands for itself. -/
theorem percentBytes_eq {bs : List UInt8} (h : 37 ∉ bs) : percentBytes bs = bs := by
  induction bs with
  | nil => rw [percentBytes]
  | cons b bs ih =>
      obtain ⟨hb, hbs⟩ := Lines.ne_of_not_mem_cons h
      have hnone : percentByte b bs = none := if_neg hb
      rw [percentBytes, hnone]
      exact congrArg (b :: ·) (ih hbs)

theorem percentDecode_eq {s : Str} (h : '%' ∉ s) : percentDecode s = s := by
  have hbytes : (37 : UInt8) ∉ utf8 s := mt (mem_utf8_of_ascii (c := '%') (by decide)).mp h
  rw [percentDecode, percentBytes_eq hbytes, fromUtf8Lossy_utf8]

theorem splitTarget_pageTarget (n : Nat) (before : Option Int) :
    splitTarget (pageTarget n before) = (("/messages" : Str), pageQuery n before) := by
  have hpath : '?' ∉ ("/messages" : Str) := by decide
  exact congrArg (Option.getD · (pageTarget n before, [])) (splitAt_append_cons hpath _)

/-- The pairs of the query. -/
theorem pairs_pageQuery (n : Nat) (before : Option Int) :
    ((pageQuery n before).splitOn '&').filterMap (splitAt '=') =
      Head.field "limit" (dec n) :: before.toList.map fun b ↦ Head.field "before" (decInt b) := by
  have hdec : '&' ∉ dec n := not_mem_decInt (by decide) (by decide) (.ofNat n)
  have hlimit : '&' ∉ ("limit=" : Str) ++ dec n := List.not_mem_append (by decide) hdec
  have hfirst : splitAt '=' (("limit=" : Str) ++ dec n) = some (Head.field "limit" (dec n)) :=
    splitAt_append_cons (show '=' ∉ ("limit" : Str) by decide) _
  cases before with
  | none =>
      have hquery : pageQuery n none = ("limit=" : Str) ++ dec n :=
        congrArg (("limit=" : Str) ++ ·) (List.append_nil _)
      rw [hquery, List.splitOn_eq_singleton hlimit, List.filterMap_cons_some hfirst]
      rfl
  | some b =>
      have hsecond : '&' ∉ ("before=" : Str) ++ decInt b :=
        List.not_mem_append (by decide) (not_mem_decInt (by decide) (by decide) b)
      have hpair : splitAt '=' (("before=" : Str) ++ decInt b) =
          some (Head.field "before" (decInt b)) :=
        splitAt_append_cons (show '=' ∉ ("before" : Str) by decide) _
      have hquery : pageQuery n (some b) =
          (("limit=" : Str) ++ dec n) ++ '&' :: (("before=" : Str) ++ decInt b) := by
        unfold pageQuery beforePart
        rw [Option.toList_some, List.flatMap_singleton, List.append_assoc]
        rfl
      rw [hquery, List.splitOn_append_cons_self_of_not_mem hlimit, List.splitOn_eq_singleton hsecond,
        List.filterMap_cons_some hfirst, List.filterMap_cons_some hpair]
      rfl

/-- Both parameters arrive as they were meant; the limit is put within its bounds. -/
theorem listed_asked (hn : n < 2 ^ 63) (hbefore : ∀ b ∈ before, InI64 b) :
    listLimit (asked token (pageTarget n before)) = max 1 (min 500 (n : Int)) ∧
      listBefore (asked token (pageTarget n before)) = before := by
  have hpairs : ((asked token (pageTarget n before)).query.splitOn '&').filterMap (splitAt '=') =
      Head.field "limit" (dec n) :: before.toList.map fun b ↦ Head.field "before" (decInt b) := by
    rw [← pairs_pageQuery, asked, splitTarget_pageTarget]
  have hparse : parseI64 (dec n) = some (n : Int) :=
    parseI64_decInt (n := (n : Int)) (by omega) (by omega)
  have hdecode {m : Int} : percentDecode (decInt m) = decInt m :=
    percentDecode_eq (not_mem_decInt (by decide) (by decide) m)
  have hne : ("limit" : Str) ≠ "before" := by decide
  constructor
  · have hparam : (asked token (pageTarget n before)).queryParam "limit" = some (dec n) := by
      rw [HttpRequest.queryParam, hpairs, List.findSome?_cons_of_isSome]
      · exact (if_pos rfl).trans (congrArg some (hdecode (m := .ofNat n)))
      · rw [if_pos (show (Head.field "limit" (dec n)).1 = ("limit" : Str) from rfl)]
        rfl
    unfold listLimit
    rw [hparam, Option.bind_some, hparse]
    rfl
  · have hparam : (asked token (pageTarget n before)).queryParam "before" = before.map decInt := by
      rw [HttpRequest.queryParam, hpairs, List.findSome?_cons_of_isNone]
      · cases before with
        | none => rfl
        | some b =>
            rw [Option.toList_some, List.map_singleton, List.findSome?_singleton]
            exact (if_pos rfl).trans (congrArg some hdecode)
      · rw [if_neg (show (Head.field "limit" (dec n)).1 ≠ ("before" : Str) from hne)]
        rfl
    unfold listBefore
    rw [hparam]
    cases before with
    | none => rfl
    | some b => exact parseI64_decInt (hbefore b rfl).1 (hbefore b rfl).2

theorem endpoint_messages {r : HttpRequest} (hmethod : r.method = "GET") (hpath : r.path = "/messages") :
    endpoint r = .messages (listLimit r) (listBefore r) := by
  have hsegments : segments "/messages" = [("messages" : Str)] := by decide
  have hroot : ¬ (("messages" : Str) = "" ∨ ("messages" : Str) = "health") := by decide
  have hcards : ¬ ("messages" : Str) = "cards" := by decide
  unfold endpoint
  rw [hpath, hsegments]
  dsimp only
  rw [if_neg fun h ↦ hroot h.2, if_neg fun h ↦ hcards h.2, if_pos ⟨hmethod, rfl⟩]

/-- A page is answered with the messages that come next. -/
theorem serve_pageTarget (w : Nat) (htoken : ∀ t ∈ token, Presentable t) (hn : n < 2 ^ 63)
    (hbefore : ∀ b ∈ before, InI64 b) (s : State)
    (c : Cut (getRequest token (pageTarget n before))) (hc : Small c) :
    serve w token s c.connection =
      some (.messages (s.listMessages (max 1 (min 500 (n : Int))) before)) := by
  obtain ⟨hlimit, hlist⟩ : listLimit (asked token (pageTarget n before)) = max 1 (min 500 (n : Int)) ∧
      listBefore (asked token (pageTarget n before)) = before := listed_asked hn hbefore
  have hauthorized : authorized token (asked token (pageTarget n before)) = true :=
    authorized_authFields htoken rfl
  have hpath : (asked token (pageTarget n before)).path = "/messages" :=
    congrArg Prod.fst (splitTarget_pageTarget n before)
  rw [serve_getRequest w htoken (target_pageTarget hn hbefore) s c hc, reply, if_pos hauthorized,
    endpoint_messages rfl hpath, hlimit, hlist]

/-! ## Page after page -/

/-- A client that asks for the messages page by page, as far as it likes or until it gets none.  The
connections are cut in any way, and between two of them anything may go on. -/
inductive Reads (w : Nat) (token : Option Str) : Option Int → State → List (List StoredMessage) → Prop
  | stop (before : Option Int) (s : State) : Reads w token before s []
  | last {n : Nat} {before : Option Int} {s : State}
      (c : Cut (getRequest token (pageTarget n before))) : n < 2 ^ 63 → Small c →
      serve w token s c.connection = some (.messages []) → Reads w token before s [[]]
  | more {n : Nat} {before : Option Int} {s s' : State} {page : List StoredMessage}
      {pages : List (List StoredMessage)} (c : Cut (getRequest token (pageTarget n before))) :
      n < 2 ^ 63 → Small c → serve w token s c.connection = some (.messages page) → page ≠ [] →
      s.Goes s' → Reads w token (cursor before page) s' pages → Reads w token before s (page :: pages)

theorem nonneg_of_mem_ids {s : State} {b : Int} (hb : b ∈ s.ids) : 0 ≤ b := by
  obtain ⟨r, hr, rfl⟩ := List.mem_map.mp hb
  exact Int.natCast_nonneg _

/-- The cursor after a page that is not empty is the id of a message of it. -/
theorem cursor_eq {s : State} {limit : Int} (hlimit : 0 ≤ limit)
    (hne : s.listMessages limit before ≠ []) : ∃ b ∈ s.ids, Paging.Below before b ∧
      cursor before (s.listMessages limit before) = some b := by
  have hpage := State.map_id_listMessages s hlimit before
  have hne' : (s.listMessages limit before).map (fun m ↦ (m.id : Int)) ≠ [] :=
    mt List.map_eq_nil_iff.mp hne
  obtain ⟨b, hb⟩ := Option.ne_none_iff_exists'.mp (mt List.getLast?_eq_none_iff.mp hne')
  have hmem : b ∈ Paging.desc (s.ids.filter fun k ↦ Paging.Below before k) :=
    List.mem_of_mem_take (hpage ▸ List.mem_of_getLast? hb)
  obtain ⟨hids, hbelow⟩ := List.mem_filter.mp (Paging.mem_desc.mp hmem)
  refine ⟨b, hids, of_decide_eq_true hbelow, ?_⟩
  rw [cursor, Paging.next, hb, Option.some_or]

/-- What the client reads are pages of the ids.  Those that it comes to are in the range of `i64`. -/
theorem Reads.paging {w : Nat} (htoken : ∀ t ∈ token, Presentable t) {s : State}
    {pages : List (List StoredMessage)} (h : Reads w token before s pages)
    (hbefore : ∀ b ∈ before, InI64 b) (hids : ∀ k ∈ s.ids, Paging.Below before k → InI64 k) :
    Paging.Reads before s.ids (pages.map fun page ↦ page.map fun m ↦ (m.id : Int)) := by
  induction h with
  | stop before s => exact .stop before s.ids
  | @last n before s c hn hc hserve =>
      rw [serve_pageTarget w htoken hn hbefore s c hc] at hserve
      have hlimit : 0 ≤ max 1 (min 500 (n : Int)) := by omega
      have hpage := State.map_id_listMessages s hlimit before
      rw [Reply.messages.inj (Option.some.inj hserve)] at hpage
      exact .last (n := (max 1 (min 500 (n : Int))).toNat) (by omega) hpage.symm
  | @more n before s s' page pages c hn hc hserve hne hgoes _ ih =>
      rw [serve_pageTarget w htoken hn hbefore s c hc] at hserve
      obtain rfl := Reply.messages.inj (Option.some.inj hserve)
      have hlimit : 0 ≤ max 1 (min 500 (n : Int)) := by omega
      obtain ⟨b, hb, hbelow, hcursor⟩ := cursor_eq hlimit hne
      have hrange := hids b hb hbelow
      have hrest := ih (by rw [hcursor]; rintro _ ⟨⟩; exact hrange) (by
        rw [hcursor]
        exact fun k hk hlt ↦ ⟨(show (-2 ^ 63 : Int) ≤ 0 by decide).trans (nonneg_of_mem_ids hk),
          (hlt b rfl).trans hrange.2⟩)
      have hpage := State.map_id_listMessages s hlimit before
      rw [List.map_cons, hpage]
      rw [cursor, hpage] at hrest
      refine .more ?_ hgoes.grows s'.nodup_ids hrest
      rw [← hpage]
      exact mt List.map_eq_nil_iff.mp hne

/-- The pages that a client reads one after the other, while messages come in, show the messages that
were there at the first of them, the latest first and each of them once, as far as it reads; and all
of them once it has got an empty page. -/
theorem Reads.shows {w : Nat} (htoken : ∀ t ∈ token, Presentable t) {s : State}
    {pages : List (List StoredMessage)} (h : Reads w token none s pages)
    (hids : s.messages.lastId < 2 ^ 63) :
    (pages.flatten.map fun m ↦ (m.id : Int)) <+: Paging.desc s.ids ∧
      ([] ∈ pages → (pages.flatten.map fun m ↦ (m.id : Int)) = Paging.desc s.ids) := by
  have hpaging := h.paging htoken (by rintro _ ⟨⟩) fun k hk _ ↦ by
    obtain ⟨r, hr, rfl⟩ := List.mem_map.mp hk
    have := s.messages.id_le r hr
    exact ⟨by omega, by omega⟩
  have hall := Paging.filter_below_none s.ids
  rw [List.map_flatten]
  refine ⟨hall ▸ hpaging.flatten_prefix s.nodup_ids, fun hend ↦ ?_⟩
  rw [hpaging.flatten_eq s.nodup_ids (List.mem_map.mpr ⟨[], hend, rfl⟩), hall]

namespace Sample

def note (text externalId : Str) : NewMessage where
  kind := .sms
  direction := .incoming
  peer := "01012345678"
  ownNumber := none
  subject := none
  text := some text
  timestamp := none
  status := "received"
  externalId := some externalId
  raw := none

/-- A message is stored, and another one after the first look. -/
def first : State := { State.empty with messages := (Messages.empty.insertMessage (note "one" "a")).2 }

def second : State := { first with messages := (first.messages.insertMessage (note "two" "b")).2 }

def row : MessageRow := { note "one" "a" with id := 1, error := none }

theorem goes : first.Goes second := .single ⟨.insertMessage (note "two" "b"),
  (.ok (first.messages.insertMessage (note "two" "b")).1 : Except Str (Option Nat)), ⟨rfl, rfl⟩⟩

theorem listMessages_first : first.listMessages (max 1 (min 500 ((1 : Nat) : Int))) none =
    [first.stored row] := by
  have hrows : (first.messages.rows.filter fun r ↦ Paging.Below none (r.id : Int)) = [row] := by
    decide
  rw [State.listMessages, hrows, List.mergeSort_singleton]
  rfl

theorem listMessages_second : second.listMessages (max 1 (min 500 ((1 : Nat) : Int))) (some 1) = [] := by
  have hrows : (second.messages.rows.filter fun r ↦ Paging.Below (some 1) (r.id : Int)) = [] := by
    decide
  rw [State.listMessages, hrows, List.mergeSort_nil]
  rfl

end Sample

open Sample in
theorem shows_ok : ([[first.stored row], []].flatten.map fun m ↦ (m.id : Int)) =
    Paging.desc first.ids := by
  have htoken : ∀ t ∈ (none : Option Str), Presentable t := by rintro _ ⟨⟩
  have hone : ∀ b ∈ some (1 : Int), InI64 b := by
    rintro _ ⟨⟩
    exact ⟨by decide, by decide⟩
  let c : Cut (getRequest none (pageTarget 1 none)) :=
    ⟨[getRequest none (pageTarget 1 none)], by decide +kernel, List.append_nil _⟩
  let c' : Cut (getRequest none (pageTarget 1 (some 1))) :=
    ⟨[getRequest none (pageTarget 1 (some 1))], by decide +kernel, List.append_nil _⟩
  have hc : Small c := List.forall_mem_singleton.mpr (by decide +kernel)
  have hc' : Small c' := List.forall_mem_singleton.mpr (by decide +kernel)
  have hserve := serve_pageTarget 64 htoken (by decide) (by rintro _ ⟨⟩) first c hc
  have hserve' := serve_pageTarget 64 htoken (by decide) hone second c' hc'
  rw [listMessages_first] at hserve
  rw [listMessages_second] at hserve'
  have hreads : Reads 64 none none first [[first.stored row], []] :=
    .more c (by decide) hc hserve (List.cons_ne_nil _ _) goes (.last c' (by decide) hc' hserve')
  exact (Reads.shows htoken hreads (by decide)).2 (by simp)

end Modem2Sip.Api
