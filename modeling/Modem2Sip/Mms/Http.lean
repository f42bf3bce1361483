import Modem2Sip.Lib.Cursor
import Modem2Sip.Lib.Lines
import Modem2Sip.Lib.Text

/-!
# Reading an HTTP response

`mms/http.rs`: what the client of the MMSC makes of the bytes that come back.  TCP
hands the response over in reads of its own choosing, so a connection is the list of
its reads and the way it ends, and the result of `read_response` is a function of
that list.  The width of `usize` is the parameter `w`.
-/

namespace Modem2Sip.Mms.Http

open Cursor Text

structure HttpResponse where
  status : Nat
  headers : List (Str × Str)
  body : List UInt8
deriving DecidableEq, Repr

/-- What the peer sends: the bytes of each read, and then the end of the connection or the error
of a read. -/
structure Connection where
  reads : List (List UInt8)
  failure : Option Str
deriving DecidableEq, Repr

/-- All the bytes of a connection. -/
def Connection.bytes (s : Connection) : List UInt8 := s.reads.flatten

def find (haystack needle : List UInt8) : Option Nat := Lines.findSub needle haystack

/-! ## Chunks -/

/-- An iteration of the loop of `dechunk`, with what it has put out so far. -/
def dechunkStep (w : Nat) (out : List UInt8) : Scan UInt8 (LoopStep (List UInt8) (List UInt8)) := do
  if ← atEnd then return .done out
  let c ← get
  let rest ← sub c.data c.pos c.data.length
  match find rest [13, 10] with
  | none => return .done out
  | some eol =>
    let line ← sliceHere w eol
    match parseUnsigned 16 (2 ^ w) (trim (before ';' (fromUtf8Lossy line))) with
    | none => return .done out
    | some size =>
      advance w (eol + 2)
      if size = 0 then return .done out
      let c ← get
      -- `checked_add`, and the end inside the data
      if c.pos + size < 2 ^ w ∧ c.pos + size ≤ c.data.length then
        let chunk ← sub c.data c.pos (c.pos + size)
        -- `saturating_add`
        seek (min (c.pos + size + 2) (2 ^ w - 1))
        return .cont (out ++ chunk)
      else
        let chunk ← sub c.data c.pos c.data.length
        return .done (out ++ chunk)

/-- The function never returns an error; what is left is a trap. -/
def dechunk (w : Nat) (data : List UInt8) : Except Trap (List UInt8) :=
  (loopHere (dechunkStep w) [] ⟨data, 0⟩).map Prod.fst

/-! ## The loops over the connection -/

/-- A loop that reads until it has what it wants: `stop` looks at what is there before each read,
`closed` says what comes of it when there is no more, and `limit` refuses what is too long. -/
structure ReadLoop (β : Type) where
  stop : List UInt8 → Option β
  closed : List UInt8 → Except Str β
  limit : List UInt8 → Option Str

/-- What the loop ends with, what it has read by then, and the reads that are still to come. -/
def ReadLoop.run {β : Type} (l : ReadLoop β) (failure : Option Str) (reads : List (List UInt8))
    (buf : List UInt8) : Except Str (β × List UInt8 × List (List UInt8)) :=
  match l.stop buf with
  | some b => .ok (b, buf, reads)
  | none =>
    match reads with
    | [] =>
      match failure with
      | some e => .error e
      | none => (l.closed buf).map (·, buf, [])
    | chunk :: reads =>
      if chunk = [] then (l.closed buf).map (·, buf, reads)
      else
        match l.limit (buf ++ chunk) with
        | some e => .error e
        | none => l.run failure reads (buf ++ chunk)

/-- Where the headers end and where the body starts: at the empty line that comes first, of those
with carriage returns and those without. -/
def headerEnd (buf : List UInt8) : Option (Nat × Nat) :=
  match find buf [13, 10, 13, 10], find buf [10, 10] with
  | some crlf, some lf => if lf < crlf then some (lf, lf + 2) else some (crlf, crlf + 4)
  | some crlf, none => some (crlf, crlf + 4)
  | none, some lf => some (lf, lf + 2)
  | none, none => none

def headerLoop : ReadLoop (Nat × Nat) where
  stop := headerEnd
  closed _ := .error "connection closed before the HTTP headers were complete"
  limit buf := if 64 * 1024 < buf.length then some "HTTP headers too large" else none

/-- A body that goes on to the end of the connection. -/
def closeLoop (maxSize : Nat) : ReadLoop Unit where
  stop _ := none
  closed _ := .ok ()
  limit body :=
    if maxSize < body.length then
      some ("HTTP body exceeds the configured limit (" ++ dec maxSize ++ " bytes)")
    else none

/-- A body of announced length. -/
def lengthLoop (len : Nat) : ReadLoop Unit where
  stop body := if body.length < len then none else some ()
  closed body :=
    .error ("connection closed after " ++ dec body.length ++ " of " ++ dec len ++
      " announced body bytes")
  limit _ := none

/-! ## The head -/

structure Head where
  status : Nat
  headers : List (Str × Str)
deriving DecidableEq, Repr

def parseHead (bytes : List UInt8) : Except Str Head :=
  let lines := ((fromUtf8Lossy bytes).splitOn '\n').map (trimEndMatches '\r')
  let statusLine := lines.head?.getD []
  match (words statusLine)[1]?.bind parseU16 with
  | none => .error ("malformed HTTP status line: " ++ statusLine)
  | some status => .ok {
      status
      headers := (lines.tail.filterMap (splitAt ':')).map fun kv ↦ (trim kv.1, trim kv.2) }

/-- The value of the first header of that name. -/
def Head.get (h : Head) (name : Str) : Option Str :=
  (h.headers.find? fun kv ↦ eqIgnoreCase kv.1 name).map Prod.snd

def Head.isChunked (h : Head) : Bool :=
  ((h.get "transfer-encoding").map fun v ↦ contains "chunked" (lower v)).getD false

def Head.contentLength (w : Nat) (h : Head) : Option Nat :=
  (h.get "content-length").bind fun v ↦ parseUnsigned 10 (2 ^ w) (trim v)

/-! ## The response -/

def effectiveLimit (maxSize : Nat) : Nat := if maxSize = 0 then 8 * 1024 * 1024 else maxSize

/-- The body, from what was read along with the headers and the reads that are still to come. -/
def readBody (w maxSize : Nat) (h : Head) (failure : Option Str) (reads : List (List UInt8))
    (body : List UInt8) : Except Trap (Except Str (List UInt8)) :=
  if h.isChunked then
    match (closeLoop maxSize).run failure reads body with
    | .error e => .ok (.error e)
    | .ok (_, body, _) => (dechunk w body).map .ok
  else
    match h.contentLength w with
    | some len =>
      if maxSize < len then
        .ok (.error ("HTTP body of " ++ dec len ++ " bytes exceeds the configured limit (" ++
          dec maxSize ++ ")"))
      else .ok (((lengthLoop len).run failure reads body).map fun (_, body, _) ↦ body.take len)
    | none => .ok (((closeLoop maxSize).run failure reads body).map fun (_, body, _) ↦ body)

def readResponse (w : Nat) (stream : Connection) (maxSize : Nat) :
    Except Trap (Except Str HttpResponse) :=
  match headerLoop.run stream.failure stream.reads [] with
  | .error e => .ok (.error e)
  | .ok ((headerEnd, bodyStart), buf, reads) =>
    match parseHead (buf.take headerEnd) with
    | .error e => .ok (.error e)
    | .ok h =>
      (readBody w (effectiveLimit maxSize) h stream.failure reads (buf.drop bodyStart)).map
        (·.map ({ status := h.status, headers := h.headers, body := · }))

end Modem2Sip.Mms.Http
