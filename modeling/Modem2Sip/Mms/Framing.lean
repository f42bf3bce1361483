import Modem2Sip.Mms.Chunked
import Modem2Sip.Mms.Response

/-!
# Responses that were cut off

The body of a response is as long as its head says, or it comes in chunks, or it goes on to the end of
the connection.  Only the first of these is missed when the connection ends too early: of the others
`read_response` gives what has come of the content.
-/

namespace Modem2Sip.Mms.Http

open Cursor

variable {w : Nat} {content : List UInt8}

/-! ## Bodies are no longer than what came -/

theorem length_le_of_bodyOf {maxSize : Nat} {h : Head} {bytes b : List UInt8}
    (hfits : bytes.length < 2 ^ w) (hbody : bodyOf w maxSize h bytes = .ok (.ok b)) :
    b.length ≤ bytes.length := by
  unfold bodyOf at hbody
  split at hbody
  · rw [dechunk_eq hfits] at hbody
    cases hbody
    exact length_unchunk_le bytes
  cases hlength : h.contentLength w with
  | none =>
    rw [hlength] at hbody
    cases hbody
    exact le_rfl
  | some len =>
    rw [hlength] at hbody
    dsimp only at hbody
    split at hbody
    · cases hbody
    split at hbody
    · cases hbody
    · cases hbody
      exact List.length_take_le' _ _

theorem length_le_of_responseOf {maxSize : Nat} {bytes : List UInt8} {resp : HttpResponse}
    (hfits : bytes.length < 2 ^ w) (h : responseOf w maxSize bytes = .ok (.ok resp)) :
    resp.body.length ≤ bytes.length := by
  unfold responseOf at h
  cases hend : headerEnd bytes with
  | none =>
    rw [hend] at h
    cases h
  | some ends =>
    rw [hend] at h
    dsimp only at h
    cases hhead : parseHead (bytes.take ends.1) with
    | error e =>
      rw [hhead] at h
      cases h
    | ok fields =>
      rw [hhead] at h
      dsimp only at h
      have hdrop : (bytes.drop ends.2).length ≤ bytes.length := by
        rw [List.length_drop]
        exact Nat.sub_le _ _
      cases hbody : bodyOf w (effectiveLimit maxSize) fields (bytes.drop ends.2) with
      | error e =>
        rw [hbody] at h
        cases h
      | ok b =>
        rw [hbody] at h
        cases b with
        | error e => cases h
        | ok b =>
          cases h
          exact (length_le_of_bodyOf (Nat.lt_of_le_of_lt hdrop hfits) hbody).trans hdrop

/-! ## Responses that carry a content -/

/-- How the body holds its content, by what the head says of it. -/
inductive Framing (w : Nat) (h : Head) (content : List UInt8) where
  | length (hchunked : h.isChunked = false) (hlength : h.contentLength w = some content.length)
  | chunked (hchunked : h.isChunked = true) (body : ChunkedBody) (hcontent : body.content = content)
  | close (hchunked : h.isChunked = false) (hlength : h.contentLength w = none)

namespace Framing

variable {h : Head}

def body : Framing w h content → List UInt8
  | .chunked _ body _ => body.encode
  | .length .. | .close .. => content

/-- The body up to the last byte of the content. -/
def needed : Framing w h content → List UInt8
  | .chunked _ body _ => throughData body.chunks
  | .length .. | .close .. => content

/-- The head says how long the body is. -/
def announced : Framing w h content → Bool
  | .length .. => true
  | .chunked .. | .close .. => false

end Framing

/-- A response with the content. -/
structure Carrier (w : Nat) (content : List UInt8) where
  head : List UInt8
  headersEnd : Nat
  ends : headerEnd head = some (headersEnd, head.length)
  fields : Head
  parses : parseHead (head.take headersEnd) = .ok fields
  framing : Framing w fields content

namespace Carrier

variable (r : Carrier w content)

def bytes : List UInt8 := r.head ++ r.framing.body

/-- The response up to the last byte of the content. -/
def needed : List UInt8 := r.head ++ r.framing.needed

variable {r} {maxSize : Nat}

theorem body_of_bodyOf {q b : List UInt8} (hq : q <+: r.framing.body) (hfits : q.length < 2 ^ w)
    (h : bodyOf w maxSize r.fields q = .ok (.ok b)) :
    b <+: content ∧ (b = content ↔ r.framing.announced = true ∨ r.framing.needed <+: q) := by
  unfold bodyOf at h
  cases hframing : r.framing with
  | length hchunked hlength =>
    rw [hframing] at hq
    rw [hchunked, if_neg Bool.false_ne_true, hlength] at h
    dsimp only at h
    split at h
    · cases h
    split at h
    · cases h
    rename_i hshort
    cases h
    have hwhole : q = content := hq.eq_of_length_le (Nat.le_of_not_lt hshort)
    rw [hwhole, List.take_length]
    exact ⟨List.prefix_rfl, iff_of_true rfl (.inl rfl)⟩
  | chunked hchunked body hcontent =>
    rw [hframing] at hq
    rw [if_pos hchunked, dechunk_eq hfits] at h
    cases h
    have hstart := unchunk_prefix (w := w) body hq
    have hall := unchunk_eq_content_iff body hq hfits
    rw [hcontent] at hstart hall
    exact ⟨hstart, hall.trans (or_iff_right Bool.false_ne_true).symm⟩
  | close hchunked hlength =>
    rw [hframing] at hq
    rw [hchunked, if_neg Bool.false_ne_true, hlength] at h
    cases h
    have hall : q = content ↔ content <+: q :=
      ⟨fun heq ↦ by rw [heq], fun hle ↦ hq.eq_of_length_le hle.length_le⟩
    exact ⟨hq, hall.trans (or_iff_right Bool.false_ne_true).symm⟩

/-- What is read of a beginning of the response is a beginning of the content.  It is all of it just
when its length was announced, or everything up to its last byte is there. -/
theorem body_of_responseOf {p : List UInt8} (hp : p <+: r.bytes) (hfits : p.length < 2 ^ w)
    {resp : HttpResponse} (h : responseOf w maxSize p = .ok (.ok resp)) :
    resp.body <+: content ∧ (resp.body = content ↔ r.framing.announced = true ∨ r.needed <+: p) := by
  rcases prefix_append_cases hp with ⟨hhead, hcut⟩ | ⟨q, rfl, hq⟩
  · unfold responseOf at h
    cases hend : headerEnd p with
    | none =>
      rw [hend] at h
      cases h
    | some ends =>
      obtain ⟨t, ht⟩ := hhead
      have hsame : headerEnd (p ++ t) = some ends := headerLoop_lasting p t ends hend
      rw [ht, r.ends] at hsame
      cases hsame
      have hle : r.head.length ≤ p.length := (le_of_headerEnd hend).2
      exact absurd (List.IsPrefix.eq_of_length_le ⟨t, ht⟩ hle) hcut
  · have hend : headerEnd (r.head ++ q) = some (r.headersEnd, r.head.length) :=
      headerLoop_lasting r.head q _ r.ends
    have hle : r.headersEnd ≤ r.head.length := (le_of_headerEnd r.ends).1
    unfold responseOf at h
    rw [hend] at h
    dsimp only at h
    rw [List.take_append_of_le_length hle, r.parses, List.drop_left] at h
    dsimp only at h
    rw [needed, List.prefix_append_right_inj]
    have hfits' : q.length < 2 ^ w := by
      rw [List.length_append] at hfits
      omega
    cases hbody : bodyOf w (effectiveLimit maxSize) r.fields q with
    | error e =>
      rw [hbody] at h
      cases h
    | ok b =>
      rw [hbody] at h
      cases b with
      | error e => cases h
      | ok b =>
        cases h
        exact body_of_bodyOf hq hfits' hbody

end Carrier

end Modem2Sip.Mms.Http
