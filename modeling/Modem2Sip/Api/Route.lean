import Modem2Sip.Api.Request
import Modem2Sip.Mms.Outgoing
import Modem2Sip.Sip.Nonces
import Modem2Sip.Store.Listing

/-!
# What a request asks for

`http_api.rs`: `handle` as far as it decides who may ask and what is asked for, and its answers from
the database.  `GET /messages` is read by pages: a client gives the last message that it has seen with
the next request.
-/

namespace Modem2Sip.Api

open Text Mms.Http Store

/-! ## The query -/

/-- The value of a hexadecimal digit. -/
def hexDigit (b : UInt8) : Option Nat := toDigit 16 (Char.ofNat b.toNat)

/-- The byte that a percent sign and what follows it stand for. -/
def percentByte (b : UInt8) (bs : List UInt8) : Option UInt8 :=
  if b = 37 then
    (bs[0]?.bind hexDigit).bind fun h ↦ (bs[1]?.bind hexDigit).map fun l ↦ UInt8.ofNat (16 * h + l)
  else none

def percentBytes : List UInt8 → List UInt8
  | [] => []
  | b :: bs =>
    match percentByte b bs with
    | some c => c :: percentBytes (bs.drop 2)
    | none => b :: percentBytes bs
termination_by bs => bs.length

/-- `percent_decode`. -/
def percentDecode (s : Str) : Str := fromUtf8Lossy (percentBytes (utf8 s))

/-- `HttpRequest::query_param`: the first one of that name. -/
def HttpRequest.queryParam (r : HttpRequest) (name : Str) : Option Str :=
  ((r.query.splitOn '&').filterMap (splitAt '=')).findSome? fun kv ↦
    if kv.1 = name then some (percentDecode kv.2) else none

/-! ## Who may ask -/

/-- `constant_time_eq`. -/
def constantTimeEq (a b : Str) : Bool :=
  (utf8 a).length == (utf8 b).length &&
    ((utf8 a).zip (utf8 b)).foldl (fun acc xy ↦ acc ||| (xy.1 ^^^ xy.2)) 0 == 0

/-- The token that comes with a request. -/
def presented (r : HttpRequest) : Str :=
  (((r.header "authorization").bind fun v ↦ stripPrefix "Bearer " (trim v)).map trim).getD []

def authorized (token : Option Str) (r : HttpRequest) : Bool :=
  token.all fun token ↦ constantTimeEq (presented r) token

/-! ## What is asked for -/

/-- The arms of the `match` in `handle`, with what they read of the request. -/
inductive Endpoint where
  | health
  | cards
  | messages (limit : Int) (before : Option Int)
  | message (id : Int)
  | attachment (id index : Int)
  | sms
  | retrieve (id : Int)
  | mms
  | badId
  | unknown
deriving DecidableEq, Repr

def segments (path : Str) : List Str := (trimMatches (· == '/') path).splitOn '/'

/-- The limit of `GET /messages`: fifty if there is none, and within bounds. -/
def listLimit (r : HttpRequest) : Int :=
  max 1 (min 500 (((r.queryParam "limit").bind parseI64).getD 50))

def listBefore (r : HttpRequest) : Option Int := (r.queryParam "before").bind parseI64

def endpoint (r : HttpRequest) : Endpoint :=
  let get := r.method = "GET"
  let post := r.method = "POST"
  match segments r.path with
  | [s] =>
    if get ∧ (s = "" ∨ s = "health") then .health
    else if get ∧ s = "cards" then .cards
    else if get ∧ s = "messages" then .messages (listLimit r) (listBefore r)
    else if post ∧ s = "sms" then .sms
    else if post ∧ s = "mms" then .mms
    else .unknown
  | [s, id] => if get ∧ s = "messages" then (parseI64 id).elim .badId .message else .unknown
  | [s, id, t] =>
    if (post ∨ get) ∧ s = "messages" ∧ t = "retrieve" then (parseI64 id).elim .badId .retrieve
    else .unknown
  | [s, id, t, index] =>
    if get ∧ s = "messages" ∧ t = "attachments" then
      ((parseI64 id).bind fun id ↦ (parseI64 index).map fun index ↦
        Endpoint.attachment id index).getD .badId
    else .unknown
  | _ => .unknown

/-- How a request is answered from the database, while the database answers. -/
inductive Reply where
  | unauthorized
  | messages (messages : List StoredMessage)
  | message (message : StoredMessage)
  /-- The file of an attachment, and its declared type. -/
  | file (path contentType : Str)
  | notFound
  | badId
  /-- It is not the database that is asked. -/
  | other (asked : Endpoint)
deriving DecidableEq, Repr

def reply (token : Option Str) (s : State) (r : HttpRequest) : Reply :=
  if authorized token r then
    match endpoint r with
    | .messages limit before => .messages (s.listMessages limit before)
    | .message id => ((s.getMessage id).map Reply.message).getD .notFound
    | .attachment id index =>
      ((s.attachmentPath id index).map fun found ↦ Reply.file found.1 found.2).getD .notFound
    | .badId => .badId
    | asked => .other asked
  else .unauthorized

/-- The reply to what is sent on a connection; nothing comes of what is no request. -/
def serve (w : Nat) (token : Option Str) (s : State) (c : Connection) : Option Reply :=
  match readRequest w c with
  | .ok (some r) => some (reply token s r)
  | _ => none

/-! ## The token -/

theorem foldl_or_eq_zero (l : List (UInt8 × UInt8)) (acc : UInt8) :
    l.foldl (fun acc xy ↦ acc ||| (xy.1 ^^^ xy.2)) acc = 0 ↔ acc = 0 ∧ ∀ xy ∈ l, xy.1 = xy.2 := by
  induction l generalizing acc with
  | nil => simp
  | cons xy l ih =>
      rw [List.foldl_cons, ih, UInt8.or_eq_zero_iff, UInt8.xor_eq_zero_iff, List.forall_mem_cons,
        and_assoc]

/-- The comparison that looks at every byte is equality. -/
theorem constantTimeEq_iff {a b : Str} : constantTimeEq a b = true ↔ a = b := by
  rw [constantTimeEq, Bool.and_eq_true, beq_iff_eq, beq_iff_eq, foldl_or_eq_zero]
  constructor
  · rintro ⟨hlen, -, hzip⟩
    refine utf8_injective (List.ext_getElem hlen fun i h₁ h₂ ↦ ?_)
    have hi : i < ((utf8 a).zip (utf8 b)).length := by
      rw [List.length_zip]
      exact lt_min h₁ h₂
    have hpair := hzip _ (List.getElem_mem hi)
    rwa [List.getElem_zip] at hpair
  · rintro rfl
    refine ⟨rfl, rfl, fun xy hxy ↦ ?_⟩
    obtain ⟨i, hi, rfl⟩ := List.mem_iff_getElem.mp hxy
    rw [List.getElem_zip]

/-- A request may ask exactly if it comes with the token; the empty token would let everything in. -/
theorem authorized_some {token : Str} (hne : token ≠ []) {r : HttpRequest} :
    authorized (some token) r = true ↔ ∃ v s, r.header "authorization" = some v ∧
      stripPrefix "Bearer " (trim v) = some s ∧ trim s = token := by
  rw [authorized, Option.all_some, constantTimeEq_iff, presented]
  cases hheader : r.header "authorization" with
  | none =>
      refine iff_of_false (fun h ↦ hne h.symm) ?_
      rintro ⟨_, _, ⟨⟩, -⟩
  | some v =>
      cases hstrip : stripPrefix "Bearer " (trim v) with
      | none =>
          rw [Option.bind_some, hstrip]
          refine iff_of_false (fun h ↦ hne h.symm) ?_
          rintro ⟨_, _, ⟨⟩, h, -⟩
          rw [hstrip] at h
          cases h
      | some s =>
          rw [Option.bind_some, hstrip]
          constructor
          · exact fun h ↦ ⟨v, s, rfl, hstrip, h⟩
          · rintro ⟨_, s', ⟨⟩, h, htrim⟩
            rw [hstrip] at h
            rwa [Option.some.inj h]

end Modem2Sip.Api
