import Modem2Sip.Lib.Head
import Modem2Sip.Mms.Response

/-!
# Reading an HTTP request

`http_api.rs`: what the control API makes of the bytes of a connection.  The loops are those of the
client's `read_response` with other ends: a connection that is closed before the head is complete is
no request, and a body that is cut off is handed on as it is.  A read fills at most 4096 bytes.
-/

namespace Modem2Sip.Mms.Http.ReadLoop

variable {β : Type} {l : ReadLoop β}

/-- A loop that measures what it has only while it is looking: what it finds is what is in all the
bytes if no read takes what it has beyond its limit before that. -/
theorem run_of_stop_within (hlasting : l.Lasting) {k : Nat} {reads : List (List UInt8)}
    {buf : List UInt8} {b : β} (hreads : ∀ r ∈ reads, r ≠ [] ∧ r.length ≤ k)
    (hlimit : ∀ p r, l.stop p = none → r.length ≤ k → p ++ r <+: buf ++ reads.flatten →
      l.limit (p ++ r) = none)
    (hstop : l.stop (buf ++ reads.flatten) = some b) :
    ∃ buf' reads', l.run none reads buf = .ok (b, buf', reads') ∧ l.stop buf' = some b ∧
      buf' ++ reads'.flatten = buf ++ reads.flatten ∧ ∀ r ∈ reads', r ≠ [] ∧ r.length ≤ k := by
  induction reads generalizing buf with
  | nil =>
    rw [List.flatten_nil, List.append_nil] at hstop
    exact ⟨buf, [], by rw [run, hstop], hstop, rfl, hreads⟩
  | cons chunk reads ih =>
    obtain ⟨⟨hne, hk⟩, hrest⟩ := List.forall_mem_cons.mp hreads
    cases hnow : l.stop buf with
    | some b' =>
      obtain rfl : b' = b := Option.some.inj ((hlasting _ _ _ hnow).symm.trans hstop)
      exact ⟨buf, chunk :: reads, by rw [run, hnow], hnow, rfl, hreads⟩
    | none =>
      have happend : buf ++ (chunk :: reads).flatten = (buf ++ chunk) ++ reads.flatten := by
        rw [List.flatten_cons, List.append_assoc]
      rw [happend] at hlimit hstop ⊢
      have hrun : l.run none (chunk :: reads) buf = l.run none reads (buf ++ chunk) := by
        rw [run, hnow]
        dsimp only
        rw [if_neg hne, hlimit buf chunk hnow hk (List.prefix_append _ _)]
      rw [hrun]
      exact ih hrest hlimit hstop

end Modem2Sip.Mms.Http.ReadLoop

namespace Modem2Sip.Api

open Text Mms.Http

structure HttpRequest where
  method : Str
  path : Str
  query : Str
  headers : List (Str × Str)
  body : List UInt8
deriving DecidableEq, Repr

/-- `HttpRequest::header`: the first one of that name. -/
def HttpRequest.header (r : HttpRequest) (name : Str) : Option Str :=
  (r.headers.find? fun kv ↦ eqIgnoreCase kv.1 name).map Prod.snd

/-! ## The loops -/

/-- To the empty line; nothing comes of a connection that is closed before it. -/
def headLoop : ReadLoop (Option Nat) where
  stop buf := (find buf [13, 10, 13, 10]).map some
  closed _ := .ok none
  limit buf := if 64 * 1024 < buf.length then some "request headers too large" else none

/-- A body of announced length, or less of it. -/
def bodyLoop (len : Nat) : ReadLoop Unit where
  stop body := if body.length < len then none else some ()
  closed _ := .ok ()
  limit _ := none

/-! ## The head -/

/-- `split_once('?')` of the target, and no query without one. -/
def splitTarget (target : Str) : Str × Str := (splitAt '?' target).getD (target, [])

/-- The request that the lines of a head announce, with its body still to come. -/
def parseLines (lines : List Str) : HttpRequest :=
  let parts := words (lines.head?.getD [])
  let target := splitTarget ((parts[1]?).getD ['/'])
  { method := (parts[0]?).getD ("GET" : Str)
    path := target.1
    query := target.2
    headers := Head.fields lines.tail
    body := [] }

def parseHead (bytes : List UInt8) : HttpRequest :=
  parseLines (Lines.splitPair '\r' '\n' (fromUtf8Lossy bytes))

/-- The announced length of the body; what cannot be read announces none. -/
def contentLength (w : Nat) (r : HttpRequest) : Nat :=
  ((r.header "content-length").bind fun v ↦ parseUnsigned 10 (2 ^ w) (trim v)).getD 0

/-- `read_request`. -/
def readRequest (w : Nat) (stream : Connection) : Except Str (Option HttpRequest) :=
  match headLoop.run stream.failure stream.reads [] with
  | .error e => .error e
  | .ok (none, _, _) => .ok none
  | .ok (some headerEnd, buf, reads) =>
    let r := parseHead (buf.take headerEnd)
    if 32 * 1024 * 1024 < contentLength w r then .error "request body too large"
    else
      ((bodyLoop (contentLength w r)).run stream.failure reads (buf.drop (headerEnd + 4))).map
        fun (_, body, _) ↦ some { r with body := body.take (contentLength w r) }

/-! ## The request as a function of the bytes -/

theorem headLoop_lasting : headLoop.Lasting := by
  intro buf t b h
  obtain ⟨n, hn, rfl⟩ := Option.map_eq_some_iff.mp h
  exact congrArg (Option.map some) (Lines.findSub_append_right (by simp) hn t)

theorem bodyLoop_lasting (len : Nat) : (bodyLoop len).Lasting := by
  intro buf t b h
  change (if buf.length < len then none else some ()) = some b at h
  change (if (buf ++ t).length < len then none else some ()) = some b
  by_cases hlt : buf.length < len
  · rw [if_pos hlt] at h
    cases h
  · rw [List.length_append]
    exact if_neg (by omega)

/-- What is read of all the bytes at once. -/
def requestOf (w : Nat) (bytes : List UInt8) : Except Str (Option HttpRequest) :=
  match find bytes [13, 10, 13, 10] with
  | none => .ok none
  | some headerEnd =>
    let r := parseHead (bytes.take headerEnd)
    if 32 * 1024 * 1024 < contentLength w r then .error "request body too large"
    else .ok (some { r with body := (bytes.drop (headerEnd + 4)).take (contentLength w r) })

/-- The bytes whose head is certain to be complete before the limit is reached. -/
structure HeadFits (bytes : List UInt8) : Prop where
  complete : ∀ headerEnd, find bytes [13, 10, 13, 10] = some headerEnd →
    headerEnd + 3 + 4096 ≤ 64 * 1024
  incomplete : find bytes [13, 10, 13, 10] = none → bytes.length ≤ 64 * 1024

theorem headFits_of_find {bytes : List UInt8} {headerEnd : Nat}
    (h : find bytes [13, 10, 13, 10] = some headerEnd) (hle : headerEnd + 3 + 4096 ≤ 64 * 1024) :
    HeadFits bytes where
  complete n hn := by
    rw [h] at hn
    rwa [← Option.some.inj hn]
  incomplete hnone := by
    rw [h] at hnone
    cases hnone

/-- The lines of a head that was written are the lines that are read. -/
theorem requestOf_bytes (w : Nat) {lines : List Str} (hne : lines ≠ [])
    (h : ∀ l ∈ lines, Head.Line l) (body : List UInt8) :
    requestOf w (Head.bytes lines body) =
      if 32 * 1024 * 1024 < contentLength w (parseLines lines) then .error "request body too large"
      else .ok (some { parseLines lines with
        body := body.take (contentLength w (parseLines lines)) }) := by
  have hhead : parseHead (utf8 (Head.crlf.intercalate lines)) = parseLines lines := by
    rw [parseHead, fromUtf8Lossy_utf8, Head.splitPair_lines hne h]
  unfold requestOf find
  rw [Head.findSub_bytes hne h]
  dsimp only
  rw [Head.take_bytes hne, hhead, Head.drop_bytes hne]

variable {w : Nat} {reads : List (List UInt8)}

theorem bodyLoop_run (len : Nat) (body : List UInt8) (hne : ∀ r ∈ reads, r ≠ []) :
    ((bodyLoop len).run none reads body).map (fun r ↦ r.2.1.take len) =
      .ok ((body ++ reads.flatten).take len) := by
  by_cases hshort : (body ++ reads.flatten).length < len
  · rw [(bodyLoop len).run_of_closed (bodyLoop_lasting len) hne (fun _ _ ↦ rfl) (if_pos hshort)]
    rfl
  · obtain ⟨buf, reads', hrun, hstop, hall, -⟩ := (bodyLoop len).run_of_stop
      (bodyLoop_lasting len) hne (fun _ _ ↦ rfl) (if_neg hshort)
    have hlen : len ≤ buf.length := by
      by_contra hlt
      rw [show (bodyLoop len).stop buf = none from if_pos (Nat.lt_of_not_le hlt)] at hstop
      cases hstop
    rw [hrun, ← hall, List.take_append_of_le_length hlen]
    rfl

/-- What the loop over the head has measured is short while it is still looking. -/
theorem headLoop_limit {bytes p r : List UInt8} (hfits : HeadFits bytes)
    (hstop : headLoop.stop p = none) (hr : r.length ≤ 4096) (hp : p ++ r <+: bytes) :
    headLoop.limit (p ++ r) = none := by
  have hnone : find p [13, 10, 13, 10] = none := Option.map_eq_none_iff.mp hstop
  refine if_neg (Nat.not_lt.mpr ?_)
  cases hfind : find bytes [13, 10, 13, 10] with
  | none => exact hp.length_le.trans (hfits.incomplete hfind)
  | some n =>
    have hle := hfits.complete n hfind
    obtain ⟨t, ht⟩ := (List.prefix_append p r).trans hp
    rw [← ht] at hfind
    have hlt : p.length < n + 4 := Lines.lt_of_findSub_append (by simp) hnone hfind
    rw [List.length_append]
    omega

theorem readRequest_eq (hreads : ∀ r ∈ reads, r ≠ [] ∧ r.length ≤ 4096)
    (hfits : HeadFits reads.flatten) :
    readRequest w ⟨reads, none⟩ = requestOf w reads.flatten := by
  have hne : ∀ r ∈ reads, r ≠ [] := fun r hr ↦ (hreads r hr).1
  unfold readRequest requestOf
  cases hend : find reads.flatten [13, 10, 13, 10] with
  | none =>
    have hroom : ∀ p, p <+: [] ++ reads.flatten → headLoop.limit p = none := fun p hp ↦
      if_neg (Nat.not_lt.mpr (hp.length_le.trans (hfits.incomplete hend)))
    have hstop : headLoop.stop ([] ++ reads.flatten) = none := congrArg (Option.map some) hend
    rw [headLoop.run_of_closed headLoop_lasting hne hroom hstop]
    rfl
  | some n =>
    have hstop : headLoop.stop ([] ++ reads.flatten) = some (some n) :=
      congrArg (Option.map some) hend
    obtain ⟨buf, reads', hrun, hfound, hall, hreads'⟩ :=
      headLoop.run_of_stop_within headLoop_lasting hreads
        (fun p r hnot hr hp ↦ headLoop_limit hfits hnot hr hp) hstop
    have hat : find buf [13, 10, 13, 10] = some n := by
      obtain ⟨m, hm, heq⟩ := Option.map_eq_some_iff.mp hfound
      rwa [Option.some.inj heq] at hm
    have hbuf : n + 4 ≤ buf.length := Lines.le_length_of_findSub (by simp) hat
    rw [List.nil_append] at hall
    dsimp only
    rw [hrun, ← hall, List.take_append_of_le_length (by omega),
      List.drop_append_of_le_length hbuf]
    dsimp only
    by_cases hlarge : 32 * 1024 * 1024 < contentLength w (parseHead (buf.take n))
    · rw [if_pos hlarge, if_pos hlarge]
    · rw [if_neg hlarge, if_neg hlarge]
      have hbody := bodyLoop_run (contentLength w (parseHead (buf.take n))) (buf.drop (n + 4))
        fun r hr ↦ (hreads' r hr).1
      cases hloop : (bodyLoop (contentLength w (parseHead (buf.take n)))).run none reads'
          (buf.drop (n + 4)) with
      | error e =>
        rw [hloop] at hbody
        cases hbody
      | ok r =>
        rw [hloop] at hbody
        rw [← Except.ok.inj hbody]
        rfl

/-! ## Ways of cutting a request -/

/-- The reads of the API fill a buffer of 4096 bytes at most. -/
def Small {bytes : List UInt8} (c : Cut bytes) : Prop := ∀ r ∈ c.reads, r.length ≤ 4096

theorem readRequest_of_cut (w : Nat) {bytes : List UInt8} (hfits : HeadFits bytes) (c : Cut bytes)
    (hc : Small c) : readRequest w c.connection = requestOf w bytes := by
  obtain ⟨reads, hne, rfl⟩ := c
  exact readRequest_eq (fun r hr ↦ ⟨hne r hr, hc r hr⟩) hfits

/-- A request is read the same however it is cut, whatever the length of its body. -/
theorem readRequest_cut (w : Nat) {bytes : List UInt8} (hfits : HeadFits bytes) (c c' : Cut bytes)
    (hc : Small c) (hc' : Small c') :
    readRequest w c.connection = readRequest w c'.connection :=
  (readRequest_of_cut w hfits c hc).trans (readRequest_of_cut w hfits c' hc').symm

/-- All at once, and with the empty line and the body cut in two. -/
theorem readRequest_cut_ok :
    readRequest 64 ⟨[utf8 "POST /sms HTTP/1.1\r\nContent-Length: 2\r\n\r\n[]"], none⟩ =
      readRequest 64 ⟨[utf8 "POST /sms HTTP/1.1\r\nContent-Length: 2\r\n\r", utf8 "\n[",
        utf8 "]"], none⟩ := by
  have hfind : find (utf8 "POST /sms HTTP/1.1\r\nContent-Length: 2\r\n\r\n[]") [13, 10, 13, 10] =
      some 37 := by decide
  have hfits := headFits_of_find hfind (Nat.le_of_ble_eq_true rfl)
  exact readRequest_cut 64 hfits ⟨_, by decide, List.append_nil _⟩
    ⟨_, by decide, by decide⟩
    (List.forall_mem_singleton.mpr (by decide))
    (List.forall_mem_cons.mpr ⟨by decide, List.forall_mem_cons.mpr ⟨by decide,
      List.forall_mem_singleton.mpr (by decide)⟩⟩)

end Modem2Sip.Api
