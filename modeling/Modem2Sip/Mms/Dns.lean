import Modem2Sip.Lib.Net
import Modem2Sip.Lib.Outcome
import Modem2Sip.Media.Rtp

/-!
# The DNS client

`mms/dns.rs`: the query for an MMSC's name, and what is made of the datagrams that come
back.  Names in a datagram are labels behind their lengths, and a name may end in a
pointer to any other place of the message; one function walks a name to get past it,
another to read it.  The width of `usize` is the parameter `w`.
-/

namespace Modem2Sip.Mms.Dns

open Text Net Media

def typeA : Nat := 1

def typeCname : Nat := 5

def typeAaaa : Nat := 28

/-- The result of a function that returns `anyhow::Result`. -/
abbrev Result (α : Type) := Outcome Str α

/-! ## Queries -/

/-- The loop over the labels of the name. -/
def writeLabels (host : Str) : List Str → List UInt8 → Except Str (List UInt8)
  | [], out => .ok out
  | label :: labels, out =>
    if utf8 label = [] ∨ 63 < (utf8 label).length then .error ("invalid host name: " ++ host)
    else writeLabels host labels (out ++ .ofNat (utf8 label).length :: utf8 label)

def buildQuery (id : Nat) (host : Str) (qtype : Nat) : Except Str (List UInt8) :=
  let out := toBe16 id ++ toBe16 0x0100 ++ toBe16 1 ++ [0, 0, 0, 0, 0, 0]
  (writeLabels host ((trimEndMatches '.' host).splitOn '.') out).map fun out ↦
    out ++ 0 :: (toBe16 qtype ++ toBe16 1)

/-! ## Names -/

/-- The byte is the first one of a compression pointer. -/
def IsPointer (len : UInt8) : Prop := len &&& 0xC0 = 0xC0

instance (len : UInt8) : Decidable (IsPointer len) := inferInstanceAs (Decidable (_ = _))

/-- Where a compression pointer leads. -/
def target (len lo : UInt8) : Nat := ((len &&& 0x3F).toNat <<< 8) ||| lo.toNat

/-- At most `n` iterations of the loop of `skip_name`. -/
def skipLabels (w : Nat) (msg : List UInt8) : Nat → Nat → Result Nat
  | 0, _ => Outcome.bail "name is too long"
  | n + 1, pos => do
    let len ← Outcome.get msg pos "truncated name"
    if len = 0 then Outcome.plus w pos 1
    else if IsPointer len then Outcome.plus w pos 2
    else skipLabels w msg n (← Outcome.plus w pos (1 + len.toNat))

/-- The offset just past the name at `pos`. -/
def skipName (w : Nat) (msg : List UInt8) (pos : Nat) : Result Nat := skipLabels w msg 128 pos

/-- What the loop of `read_name` carries. -/
structure Walker where
  pos : Nat
  out : Str
  hops : Nat

/-- A label put behind those that were read before. -/
def pushLabel (out : Str) (label : List UInt8) : Str :=
  (if out = [] then [] else out ++ ['.']) ++ fromUtf8Lossy label

/-- An iteration of the loop of `read_name`. -/
def readStep (w : Nat) (msg : List UInt8) (s : Walker) : Result (LoopStep Walker Str) := do
  let len ← Outcome.get msg s.pos "truncated name"
  if len = 0 then return .done s.out
  if IsPointer len then
    let lo ← Outcome.get msg (← Outcome.plus w s.pos 1) "truncated pointer"
    if 16 < s.hops + 1 then Outcome.bail "compression loop"
    return .cont { s with pos := target len lo, hops := s.hops + 1 }
  let start ← Outcome.plus w s.pos 1
  let stop ← Outcome.plus w start len.toNat
  let label ← Outcome.getRange msg start stop "truncated label"
  return .cont { s with pos := stop, out := pushLabel s.out label }

/-- At most `n` iterations. -/
def readLabels (w : Nat) (msg : List UInt8) : Nat → Walker → Result Str
  | 0, _ => (.error .stalled : Except Trap (Except Str Str))
  | n + 1, s => do
    match ← readStep w msg s with
    | .cont s => readLabels w msg n s
    | .done name => return name

/-- The name at `pos`.  There is room for as many iterations as there are bytes, and one more, after
each of 16 pointers and before the first. -/
def readName (w : Nat) (msg : List UInt8) (pos : Nat) : Result Str :=
  readLabels w msg (17 * (msg.length + 1)) ⟨pos, [], 0⟩

/-! ## Answers -/

inductive Reply where
  /-- Answers the question that was asked. -/
  | ours
  /-- Has the id of the query and no question, as a resolver answers that refuses. -/
  | rejected (rcode : Nat)
  /-- For somebody else, or forged. -/
  | notOurs
deriving DecidableEq, Repr

/-- Two bytes of the message as a number. -/
def word (msg : List UInt8) (i : Nat) : Except Trap Nat := do
  return fromBe16 (← byteAt msg i) (← byteAt msg (i + 1))

/-- The question that the message repeats is the one about the host. -/
def echoes (w : Nat) (msg : List UInt8) (host : Str) (qtype : Nat) : Except Trap Bool := do
  match ← (readName w msg 12).run, ← (skipName w msg 12).run with
  | .ok name, .ok after =>
    if after + 4 < 2 ^ w then
      if after + 4 ≤ msg.length then do
        let q := (msg.take (after + 4)).drop after
        return decide ((← word q 0) = qtype) && decide ((← word q 2) = 1) &&
          eqIgnoreCase name (trimEndMatches '.' host)
      else return false
    else .error .overflow
  | _, _ => return false

def classify (w : Nat) (msg : List UInt8) (wantId : Nat) (host : Str) (qtype : Nat) :
    Except Trap Reply := do
  if msg.length < 12 then return .notOurs
  if (← word msg 0) ≠ wantId then return .notOurs
  let flags ← word msg 2
  if flags &&& 0x8000 = 0 then return .notOurs
  let echoed ← if (← word msg 4) = 1 then echoes w msg host qtype else pure false
  match echoed, flags &&& 0x000F with
  | true, _ => return .ours
  | false, 0 => return .notOurs
  | false, rcode => return .rejected rcode

structure Answer where
  addrs : List IpAddr
  cname : Option Str
deriving DecidableEq, Repr

/-- `Ipv6Addr::from` for the octets of an address. -/
def ofOctets16 (octets : List UInt8) : BitVec 128 :=
  .ofNat 128 (octets.foldl (fun n b ↦ n * 2 ^ 8 + b.toNat) 0)

/-- The loop over the questions. -/
def skipQuestions (w : Nat) (msg : List UInt8) : Nat → Nat → Result Nat
  | 0, pos => return pos
  | n + 1, pos => do skipQuestions w msg n (← Outcome.plus w (← skipName w msg pos) 4)

/-- What a record adds to the answer, with its data at `pos`. -/
def addRecord (w : Nat) (msg : List UInt8) (qtype rtype pos : Nat) (rdata : List UInt8)
    (answer : Answer) : Result Answer := do
  if rtype = typeA ∧ rdata.length = 4 ∧ qtype = typeA then
    let octet (i : Nat) : Except Trap Nat := do return (← byteAt rdata i).toNat
    return { answer with
      addrs := answer.addrs ++ [.v4 (ofOctets (← octet 0) (← octet 1) (← octet 2) (← octet 3))] }
  else if rtype = typeAaaa ∧ rdata.length = 16 ∧ qtype = typeAaaa then
    return { answer with addrs := answer.addrs ++ [.v6 (ofOctets16 rdata)] }
  else if rtype = typeCname ∧ answer.cname = none then
    match ← Outcome.attempt (readName w msg pos) with
    | .ok name => return { answer with cname := some name }
    | .error _ => return answer
  else return answer

/-- The loop over the records. -/
def readRecords (w : Nat) (msg : List UInt8) (qtype : Nat) : Nat → Nat → Answer → Result Answer
  | 0, _, answer => return answer
  | n + 1, pos, answer => do
    let pos ← skipName w msg pos
    let stop ← Outcome.plus w pos 10
    let header ← Outcome.getRange msg pos stop "truncated record"
    let rtype ← word header 0
    let rdlen ← word header 8
    let last ← Outcome.plus w stop rdlen
    let rdata ← Outcome.getRange msg stop last "truncated rdata"
    readRecords w msg qtype n last (← addRecord w msg qtype rtype stop rdata answer)

/-- The checks of the header before anything is read. -/
def checkHeader (flags id wantId : Nat) : Except Str Unit :=
  if id ≠ wantId then .error "DNS response id mismatch"
  else if flags &&& 0x8000 = 0 then .error "not a DNS response"
  else
    match flags &&& 0x000F with
    | 0 => .ok ()
    | 3 => .error "NXDOMAIN"
    | rcode => .error ("DNS rcode " ++ dec rcode)

def parseAnswer (w : Nat) (msg : List UInt8) (wantId qtype : Nat) : Result Answer := do
  if msg.length < 12 then Outcome.bail "short DNS response"
  let id ← word msg 0
  let flags ← word msg 2
  Outcome.result (checkHeader flags id wantId)
  let qdcount ← word msg 4
  let ancount ← word msg 6
  let pos ← skipQuestions w msg qdcount 12
  readRecords w msg qtype ancount pos ⟨[], none⟩

end Modem2Sip.Mms.Dns
