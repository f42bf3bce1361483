import Modem2Sip.Sip.Uri

/-!
# SIP messages

`sip/message.rs`: header fields under canonical names, the `Via` field, requests
and responses as the gateway handles them once they are off the wire.
-/

namespace Modem2Sip.Sip

open Text

inductive Method where
  | invite
  | ack
  | bye
  | cancel
  | register
  | options
  | info
  | message
  | notify
  | subscribe
  | update
  | prack
  | refer
deriving DecidableEq, Repr

namespace Method

/-- Every method, in the order of the source. -/
def all : List Method :=
  [invite, ack, bye, cancel, register, options, info, message, notify, subscribe, update, prack,
    refer]

/-- `as_str`, which is also `Display`. -/
def asStr : Method → Str
  | invite => "INVITE"
  | ack => "ACK"
  | bye => "BYE"
  | cancel => "CANCEL"
  | register => "REGISTER"
  | options => "OPTIONS"
  | info => "INFO"
  | message => "MESSAGE"
  | notify => "NOTIFY"
  | subscribe => "SUBSCRIBE"
  | update => "UPDATE"
  | prack => "PRACK"
  | refer => "REFER"

def parse (s : Str) : Option Method := all.find? fun m ↦ m.asStr == upper s

theorem parse_asStr (m : Method) : parse m.asStr = some m := by
  cases m <;> decide

end Method

/-! ## Header fields -/

/-- Compact names stand for their long ones; every name is in lower case. -/
def canonical (name : Str) : Str :=
  let lower := lower (trim name)
  if lower = "i" then "call-id"
  else if lower = "m" then "contact"
  else if lower = "f" then "from"
  else if lower = "t" then "to"
  else if lower = "v" then "via"
  else if lower = "c" then "content-type"
  else if lower = "l" then "content-length"
  else if lower = "s" then "subject"
  else if lower = "k" then "supported"
  else if lower = "e" then "content-encoding"
  else if lower = "o" then "event"
  else if lower = "r" then "refer-to"
  else if lower = "x" then "session-expires"
  else lower

/-- The `Via` field, or its first value. -/
structure Via where
  protocol : Str
  host : Str
  port : Option Nat
  params : List Param
deriving DecidableEq, Repr

namespace Via

def parse (s : Str) : Option Via := do
  let s := trim (before ',' s)
  let (proto, rest) ← splitOnce isWhitespace s
  let rest := trim rest
  let (hostport, params) := Uri.cut ';' rest
  let hostport := if params.isSome then trim hostport else hostport
  let (host, port) := splitHostPort hostport
  let params := (((params.getD []).splitOn ';').map trim).filter (· != [])
  some { protocol := proto, host, port, params := params.map parseParam }

def param (v : Via) (name : Str) : Option Str := findParam v.params name

def branch (v : Via) : Option Str := v.param "branch"

def hasParam (v : Via) (name : Str) : Bool := v.params.any fun p ↦ eqIgnoreCase p.1 name

def setParam (v : Via) (name : Str) (value : Option Str) : Via :=
  { v with params := putParam v.params name value }

def «show» (v : Via) : Str :=
  v.protocol ++ ' ' :: v.host ++ (match v.port with | some p => ':' :: dec p | none => []) ++
    v.params.flatMap showParam

end Via

/-- Header fields in the order of the message, under canonical names. -/
structure Headers where
  fields : List (Str × Str)
deriving DecidableEq, Repr

namespace Headers

def empty : Headers := ⟨[]⟩

def get (h : Headers) (name : Str) : Option Str :=
  (h.fields.find? fun f ↦ f.1 == canonical name).map Prod.snd

def getAll (h : Headers) (name : Str) : List Str :=
  (h.fields.filter fun f ↦ f.1 == canonical name).map Prod.snd

def remove (h : Headers) (name : Str) : Headers :=
  ⟨h.fields.filter fun f ↦ f.1 != canonical name⟩

def push (h : Headers) (name value : Str) : Headers :=
  ⟨h.fields ++ [(canonical name, value)]⟩

def set (h : Headers) (name value : Str) : Headers := (h.remove name).push name value

/-- Replace the first field of that name where it stands, or put one last. -/
def replaceFirst (h : Headers) (name value : Str) : Headers :=
  let rec go : List (Str × Str) → List (Str × Str)
    | [] => [(canonical name, value)]
    | f :: fs => if f.1 == canonical name then (f.1, value) :: fs else f :: go fs
  ⟨go h.fields⟩

/-- `from()`. -/
def fromAddr (h : Headers) : Option NameAddr := (h.get "from").bind NameAddr.parse

/-- `to()`. -/
def toAddr (h : Headers) : Option NameAddr := (h.get "to").bind NameAddr.parse

def contact (h : Headers) : Option NameAddr := (h.get "contact").bind NameAddr.parse

def callId (h : Headers) : Option Str := h.get "call-id"

def cseq (h : Headers) : Option (Nat × Method) := do
  let raw ← h.get "cseq"
  match words raw with
  | num :: method :: _ => do some (← parseU32 num, ← Method.parse method)
  | _ => none

def topVia (h : Headers) : Option Via := (h.get "via").bind Via.parse

theorem get_remove (h : Headers) (n m : Str) :
    (h.remove n).get m = if canonical n = canonical m then none else h.get m := by
  obtain ⟨fs⟩ := h
  simp only [get, remove]
  split
  · rename_i heq
    rw [List.find?_eq_none.mpr]
    · rfl
    · intro f hf
      simpa [heq] using (List.mem_filter.mp hf).2
  · rename_i hne
    congr 1
    induction fs with
    | nil => rfl
    | cons f fs ih =>
        by_cases hm : f.1 = canonical m
        · have hn : f.1 ≠ canonical n := by
            rw [hm]; exact fun h ↦ hne h.symm
          rw [List.filter_cons_of_pos (by simpa using hn)]
          simp [hm]
        · by_cases hn : f.1 = canonical n
          · rw [List.filter_cons_of_neg (by simpa using hn), ih]
            simp [hm]
          · rw [List.filter_cons_of_pos (by simpa using hn)]
            simp [hm, ih]

theorem get_push (h : Headers) (n v m : Str) :
    (h.push n v).get m = (h.get m).or (if canonical n = canonical m then some v else none) := by
  simp only [get, push, List.find?_append]
  cases hf : h.fields.find? fun f ↦ f.1 == canonical m with
  | some f => simp
  | none =>
      by_cases hc : canonical n = canonical m <;> simp [hc]

/-- A field that was set is read back, and the fields under other names are as before. -/
theorem get_set (h : Headers) (n v m : Str) :
    (h.set n v).get m = if canonical n = canonical m then some v else h.get m := by
  rw [set, get_push, get_remove]
  split <;> simp

@[simp] theorem get_set_self (h : Headers) (n v : Str) : (h.set n v).get n = some v := by
  rw [get_set, if_pos rfl]

/-- A sequence number as it is written is read back. -/
theorem cseq_of_get {h : Headers} {n : Nat} {m : Method}
    (hget : h.get "cseq" = some (dec n ++ ' ' :: m.asStr)) (hn : n < 2 ^ 32) :
    h.cseq = some (n, m) := by
  have hm : m.asStr ≠ [] ∧ ∀ c ∈ m.asStr, isWhitespace c = false := by
    cases m <;> decide
  have hwords : words (dec n ++ ' ' :: m.asStr) = [dec n, m.asStr] := by
    rw [words_append_cons (dec_ne_nil n) (isWhitespace_of_mem_dec n) (by decide),
      words_singleton hm.1 hm.2]
  have hparse : parseU32 (dec n) = some n := parseUnsigned_dec hn
  rw [cseq, hget]
  simp [hwords, hparse, Method.parse_asStr]

end Headers

/-! ## Requests and responses -/

structure Request where
  method : Method
  uri : Uri
  headers : Headers
  body : List UInt8
deriving DecidableEq, Repr

structure Response where
  code : Nat
  reason : Str
  headers : Headers
  body : List UInt8
deriving DecidableEq, Repr

namespace Response

def isProvisional (r : Response) : Bool := 100 ≤ r.code && r.code < 200

def isSuccess (r : Response) : Bool := 200 ≤ r.code && r.code < 300

def bodyStr (r : Response) : Str := fromUtf8Lossy r.body

end Response

namespace Request

def new (method : Method) (uri : Uri) : Request where
  method := method
  uri := uri
  headers := .empty
  body := []

def bodyStr (r : Request) : Str := fromUtf8Lossy r.body

/-- Copy a field if it is there. -/
def copyField (src : Headers) (name : Str) (dst : Headers) : Headers :=
  match src.get name with
  | some v => dst.set name v
  | none => dst

/-- A response with the fields that every response mirrors. -/
def reply (r : Request) (code : Nat) (reason : Str) : Response :=
  let headers : Headers := .empty
  let headers := (r.headers.getAll "via").foldl (fun h v ↦ h.push "via" v) headers
  let headers := (r.headers.getAll "record-route").foldl (fun h v ↦ h.push "record-route" v) headers
  let headers := copyField r.headers "from" headers
  let headers := copyField r.headers "to" headers
  let headers := copyField r.headers "call-id" headers
  let headers := copyField r.headers "cseq" headers
  { code, reason, headers, body := [] }

@[simp] theorem reply_code (r : Request) (code : Nat) (reason : Str) :
    (r.reply code reason).code = code := rfl

end Request

def reasonPhrase : Nat → Str
  | 100 => "Trying"
  | 180 => "Ringing"
  | 183 => "Session Progress"
  | 200 => "OK"
  | 202 => "Accepted"
  | 400 => "Bad Request"
  | 401 => "Unauthorized"
  | 403 => "Forbidden"
  | 404 => "Not Found"
  | 405 => "Method Not Allowed"
  | 408 => "Request Timeout"
  | 415 => "Unsupported Media Type"
  | 420 => "Bad Extension"
  | 423 => "Interval Too Brief"
  | 480 => "Temporarily Unavailable"
  | 481 => "Call/Transaction Does Not Exist"
  | 486 => "Busy Here"
  | 487 => "Request Terminated"
  | 488 => "Not Acceptable Here"
  | 491 => "Request Pending"
  | 500 => "Server Internal Error"
  | 502 => "Bad Gateway"
  | 503 => "Service Unavailable"
  | 504 => "Server Time-out"
  | 600 => "Busy Everywhere"
  | 603 => "Decline"
  | 604 => "Does Not Exist Anywhere"
  | _ => "Unknown"

end Modem2Sip.Sip
