import Modem2Sip.Mms.Chunked
import Modem2Sip.Mms.Response

/-!
# Responses that are too large

A body of unknown length is measured after each read of the loops over the body.  What came along with
the end of the headers is there before the first of them, and is not measured when nothing follows.
-/

namespace Modem2Sip.Mms.Http

open Text

variable {w maxSize : Nat}

/-! ## What the loops measure -/

namespace ReadLoop

variable {β : Type} {l : ReadLoop β} {failure : Option Str} {reads rest : List (List UInt8)}
  {buf buf' : List UInt8} {b : β}

theorem closed_of_map (h : (l.closed buf).map (·, buf, reads) = .ok (b, buf', rest)) :
    l.closed buf = .ok b ∧ buf' = buf := by
  cases hclosed : l.closed buf with
  | error e =>
    rw [hclosed] at h
    cases h
  | ok b' =>
    rw [hclosed] at h
    cases h
    exact ⟨rfl, rfl⟩

/-- What a loop ends with is what it started with, or has been measured. -/
theorem limit_of_run_ok (h : l.run failure reads buf = .ok (b, buf', rest)) :
    buf' = buf ∨ l.limit buf' = none := by
  induction reads generalizing buf with
  | nil =>
    unfold run at h
    split at h
    · cases h
      exact .inl rfl
    · cases failure with
      | some e => cases h
      | none => exact .inl (closed_of_map h).2
  | cons chunk reads ih =>
    unfold run at h
    split at h
    · cases h
      exact .inl rfl
    dsimp only at h
    split at h
    · exact .inl (closed_of_map h).2
    split at h
    · cases h
    · rename_i hlimit
      rcases ih h with rfl | hmeasured
      · exact .inr hlimit
      · exact .inr hmeasured

/-- The loop finds what it looks for behind these reads, and not before. -/
def StopsAfter (l : ReadLoop β) (buf : List UInt8) (first : List (List UInt8)) (b : β) : Prop :=
  l.stop (buf ++ first.flatten) = some b ∧ ∀ n < first.length, l.stop (buf ++ (first.take n).flatten) = none

theorem StopsAfter.nil (h : l.stop buf = some b) : l.StopsAfter buf [] b := by
  refine ⟨?_, nofun⟩
  rwa [List.flatten_nil, List.append_nil]

theorem StopsAfter.cons {chunk : List UInt8} {first : List (List UInt8)} (hnot : l.stop buf = none)
    (h : l.StopsAfter (buf ++ chunk) first b) : l.StopsAfter buf (chunk :: first) b := by
  obtain ⟨hfound, hbefore⟩ := h
  constructor
  · rwa [List.flatten_cons, ← List.append_assoc]
  · rintro (_ | n) hn
    · rwa [List.take_zero, List.flatten_nil, List.append_nil]
    · rw [List.take_succ_cons, List.flatten_cons, ← List.append_assoc]
      exact hbefore n (Nat.lt_of_succ_lt_succ hn)

theorem StopsAfter.length_le {first first' : List (List UInt8)} {b' : β} (h : l.StopsAfter buf first b)
    (h' : l.StopsAfter buf first' b') (hfirst : first <+: reads) (hfirst' : first' <+: reads) :
    first.length ≤ first'.length := by
  by_contra hlt
  have hle : first'.length ≤ first.length := Nat.le_of_not_le hlt
  have htake : first.take first'.length = first' :=
    (List.prefix_iff_eq_take.mp (List.prefix_of_prefix_length_le hfirst' hfirst hle)).symm
  have hnot := h.2 first'.length (Nat.lt_of_not_le hlt)
  rw [htake, h'.1] at hnot
  cases hnot

/-- A loop that does not end well at the end of the connection stops after its first reads. -/
theorem stopsAfter_of_run_ok (hclosed : ∀ buf b, l.closed buf ≠ .ok b)
    (h : l.run failure reads buf = .ok (b, buf', rest)) :
    ∃ first, reads = first ++ rest ∧ buf' = buf ++ first.flatten ∧ l.StopsAfter buf first b := by
  induction reads generalizing buf with
  | nil =>
    unfold run at h
    split at h
    · rename_i hstop
      cases h
      exact ⟨[], rfl, (List.append_nil _).symm, .nil hstop⟩
    · cases failure with
      | some e => cases h
      | none => exact absurd (closed_of_map h).1 (hclosed _ _)
  | cons chunk reads ih =>
    unfold run at h
    split at h
    · rename_i hstop
      cases h
      exact ⟨[], rfl, (List.append_nil _).symm, .nil hstop⟩
    rename_i hstop
    dsimp only at h
    split at h
    · exact absurd (closed_of_map h).1 (hclosed _ _)
    split at h
    · cases h
    obtain ⟨first, rfl, rfl, hafter⟩ := ih h
    exact ⟨chunk :: first, rfl, by rw [List.flatten_cons, List.append_assoc], hafter.cons hstop⟩

end ReadLoop

/-- What comes after the first bytes of a body of unknown length is measured with them. -/
theorem of_closeLoop_run {failure : Option Str} {reads rest : List (List UInt8)} {body body' : List UInt8}
    (h : (closeLoop maxSize).run failure reads body = .ok ((), body', rest)) :
    if reads.head?.getD [] = [] then body' = body else body'.length ≤ maxSize := by
  have hlimit {buf : List UInt8} (h : (closeLoop maxSize).limit buf = none) : buf.length ≤ maxSize := by
    by_contra hlt
    rw [show (closeLoop maxSize).limit buf = some _ from if_pos (Nat.lt_of_not_le hlt)] at h
    cases h
  cases reads with
  | nil =>
    cases failure with
    | some e => cases h
    | none =>
      cases h
      rfl
  | cons chunk reads =>
    rw [List.head?_cons, Option.getD_some]
    unfold ReadLoop.run at h
    split at h
    · rename_i hstop
      cases hstop
    dsimp only at h
    split at h
    · rename_i hchunk
      rw [if_pos hchunk]
      exact (ReadLoop.closed_of_map h).2
    rename_i hchunk
    rw [if_neg hchunk]
    split at h
    · cases h
    · rename_i hmeasured
      rcases ReadLoop.limit_of_run_ok h with rfl | hend
      · exact hlimit hmeasured
      · exact hlimit hend

/-- A body of unknown length, or what is made of it, is within the limit if it was measured or was small
enough from the start. -/
theorem length_le_iff_of_closeLoop {failure : Option Str} {reads rest : List (List UInt8)}
    {body body' : List UInt8} {content : List UInt8 → List UInt8}
    (hcontent : ∀ buf, (content buf).length ≤ buf.length)
    (h : (closeLoop maxSize).run failure reads body = .ok ((), body', rest)) :
    (content body').length ≤ maxSize ↔
      reads.head?.getD [] ≠ [] ∨ (content body).length ≤ maxSize := by
  have hbody := of_closeLoop_run h
  by_cases hmore : reads.head?.getD [] = []
  · rw [if_pos hmore] at hbody
    rw [hbody]
    exact (or_iff_right (not_not_intro hmore)).symm
  · rw [if_neg hmore] at hbody
    exact iff_of_true ((hcontent body').trans hbody) (.inl hmore)

/-- What is there at its end was there from the start, or is within the limit. -/
theorem length_lt_of_closeLoop {failure : Option Str} {reads rest : List (List UInt8)}
    {body body' : List UInt8} (hmax : maxSize < 2 ^ w) (hfits : body.length < 2 ^ w)
    (h : (closeLoop maxSize).run failure reads body = .ok ((), body', rest)) : body'.length < 2 ^ w := by
  have hbody := of_closeLoop_run h
  split at hbody
  · rwa [hbody]
  · exact Nat.lt_of_le_of_lt hbody hmax

/-! ## What came along with the headers -/

/-- A connection, parted behind the read that brings the end of the headers. -/
structure HeadRead (stream : Connection) where
  first : List (List UInt8)
  rest : List (List UInt8)
  reads_eq : stream.reads = first ++ rest
  headersEnd : Nat
  bodyStart : Nat
  stopsAfter : headerLoop.StopsAfter [] first (headersEnd, bodyStart)

namespace HeadRead

variable {stream : Connection}

/-- The headers. -/
def head (r : HeadRead stream) : List UInt8 := r.first.flatten.take r.headersEnd

/-- What came of the body along with their end. -/
def early (r : HeadRead stream) : List UInt8 := r.first.flatten.drop r.bodyStart

/-- There is only one way to part it. -/
theorem eq (r r' : HeadRead stream) : r = r' := by
  have hfirst : r.first <+: stream.reads := ⟨r.rest, r.reads_eq.symm⟩
  have hfirst' : r'.first <+: stream.reads := ⟨r'.rest, r'.reads_eq.symm⟩
  have hlength : r.first.length = r'.first.length :=
    Nat.le_antisymm (r.stopsAfter.length_le r'.stopsAfter hfirst hfirst')
      (r'.stopsAfter.length_le r.stopsAfter hfirst' hfirst)
  obtain ⟨first, rest, hreads, headersEnd, bodyStart, hstop⟩ := r
  obtain ⟨first', rest', hreads', headersEnd', bodyStart', hstop'⟩ := r'
  obtain ⟨rfl, rfl⟩ : first = first' ∧ rest = rest' :=
    List.append_inj (hreads.symm.trans hreads') hlength
  cases hstop.1.symm.trans hstop'.1
  rfl

end HeadRead

/-- The length of the body is announced. -/
def Head.announces (w : Nat) (h : Head) : Bool := !h.isChunked && (h.contentLength w).isSome

/-- What a body of unknown length holds. -/
def Head.contentOf (w : Nat) (h : Head) (body : List UInt8) : List UInt8 :=
  if h.isChunked then unchunk w body else body

/-- The limit holds for the body: its length was announced, or something came after the headers and what
there was of it by then, or that was not too much. -/
def Enforced (w maxSize : Nat) (stream : Connection) : Prop :=
  ∀ (r : HeadRead stream) (h : Head), parseHead r.head = .ok h →
    h.announces w = true ∨ r.rest.head?.getD [] ≠ [] ∨ (h.contentOf w r.early).length ≤ maxSize

theorem length_le_iff_of_readBody {h : Head} {failure : Option Str} {reads : List (List UInt8)}
    {body out : List UInt8} (hmax : maxSize < 2 ^ w) (hfits : body.length < 2 ^ w)
    (hread : readBody w maxSize h failure reads body = .ok (.ok out)) :
    out.length ≤ maxSize ↔
      h.announces w = true ∨ reads.head?.getD [] ≠ [] ∨ (h.contentOf w body).length ≤ maxSize := by
  unfold readBody at hread
  rw [Head.announces, Head.contentOf]
  cases hchunked : h.isChunked with
  | true =>
    rw [hchunked, if_pos rfl] at hread
    rw [if_pos rfl, Bool.not_true, Bool.false_and, or_iff_right Bool.false_ne_true]
    cases hrun : (closeLoop maxSize).run failure reads body with
    | error e =>
      rw [hrun] at hread
      cases hread
    | ok r =>
      obtain ⟨⟨⟩, buf, rest⟩ := r
      rw [hrun] at hread
      dsimp only at hread
      rw [dechunk_eq (length_lt_of_closeLoop hmax hfits hrun)] at hread
      cases hread
      exact length_le_iff_of_closeLoop length_unchunk_le hrun
  | false =>
    rw [hchunked, if_neg Bool.false_ne_true] at hread
    rw [if_neg Bool.false_ne_true, Bool.not_false, Bool.true_and]
    cases hlength : h.contentLength w with
    | some len =>
      rw [hlength] at hread
      dsimp only at hread
      refine iff_of_true ?_ (.inl rfl)
      split at hread
      · cases hread
      rename_i hle
      cases hrun : (lengthLoop len).run failure reads body with
      | error e =>
        rw [hrun] at hread
        cases hread
      | ok r =>
        rw [hrun] at hread
        cases hread
        exact (List.length_take_le _ _).trans (Nat.le_of_not_lt hle)
    | none =>
      rw [hlength] at hread
      rw [Option.isSome_none, or_iff_right Bool.false_ne_true]
      cases hrun : (closeLoop maxSize).run failure reads body with
      | error e =>
        rw [hrun] at hread
        cases hread
      | ok r =>
        obtain ⟨⟨⟩, buf, rest⟩ := r
        rw [hrun] at hread
        cases hread
        have hbound := length_le_iff_of_closeLoop (fun _ ↦ le_rfl) hrun
        exact hbound

/-- The headers are no more than 64 KiB, with what came along. -/
theorem length_le_of_headerLoop_run {failure : Option Str} {reads rest : List (List UInt8)}
    {ends : Nat × Nat} {buf : List UInt8} (h : headerLoop.run failure reads [] = .ok (ends, buf, rest)) :
    buf.length ≤ 64 * 1024 := by
  rcases ReadLoop.limit_of_run_ok h with rfl | hmeasured
  · exact Nat.zero_le _
  · by_contra hlt
    rw [show headerLoop.limit buf = some _ from if_pos (Nat.lt_of_not_le hlt)] at hmeasured
    cases hmeasured

/-- A response is read with a body within the limit just when the limit holds for it. -/
theorem length_le_iff_enforced {stream : Connection} (hw : 64 * 1024 < 2 ^ w) (hmax : maxSize < 2 ^ w)
    (hpos : 1 ≤ maxSize) {resp : HttpResponse}
    (h : readResponse w stream maxSize = .ok (.ok resp)) :
    resp.body.length ≤ maxSize ↔ Enforced w maxSize stream := by
  have heffective : effectiveLimit maxSize = maxSize := if_neg (Nat.ne_of_gt hpos)
  unfold readResponse at h
  cases hrun : headerLoop.run stream.failure stream.reads [] with
  | error e =>
    rw [hrun] at h
    cases h
  | ok run =>
    obtain ⟨⟨headersEnd, bodyStart⟩, buf, rest⟩ := run
    rw [hrun] at h
    dsimp only at h
    obtain ⟨first, hreads, rfl, hstops⟩ := ReadLoop.stopsAfter_of_run_ok nofun hrun
    have hfits : (first.flatten.drop bodyStart).length < 2 ^ w := by
      have hlength := length_le_of_headerLoop_run hrun
      rw [List.nil_append] at hlength
      rw [List.length_drop]
      omega
    rw [List.nil_append] at h
    let r : HeadRead stream := ⟨first, rest, hreads, headersEnd, bodyStart, hstops⟩
    cases hhead : parseHead (first.flatten.take headersEnd) with
    | error e =>
      rw [hhead] at h
      cases h
    | ok fields =>
      rw [hhead] at h
      dsimp only at h
      rw [heffective] at h
      cases hread : readBody w maxSize fields stream.failure rest (first.flatten.drop bodyStart) with
      | error e =>
        rw [hread] at h
        cases h
      | ok result =>
        rw [hread] at h
        cases result with
        | error e => cases h
        | ok out =>
          cases h
          refine (length_le_iff_of_readBody hmax hfits hread).trans ⟨fun hbound r' fields' hhead' ↦ ?_, ?_⟩
          · obtain rfl := r.eq r'
            cases hhead.symm.trans hhead'
            exact hbound
          · exact fun henforced ↦ henforced r fields hhead

/-- The body comes in a read of its own. -/
theorem length_le_iff_enforced_ok :
    (utf8 "h").length ≤ 1 ↔ Enforced 64 1 ⟨[utf8 "HTTP/1.1 200 OK\r\n\r\n", utf8 "h"], none⟩ := by
  have hread : readResponse 64 ⟨[utf8 "HTTP/1.1 200 OK\r\n\r\n", utf8 "h"], none⟩ 1 =
      .ok (.ok ⟨200, [], utf8 "h"⟩) := by decide +kernel
  exact length_le_iff_enforced (by decide) (by decide) le_rfl hread

/-- Two bytes that came along with the headers, where one is allowed. -/
theorem early_body_too_large :
    readResponse 64 ⟨[utf8 "HTTP/1.1 200 OK\r\n\r\nhi"], none⟩ 1 = .ok (.ok ⟨200, [], utf8 "hi"⟩) ∧
      ¬ (utf8 "hi").length ≤ 1 := by
  decide +kernel

end Modem2Sip.Mms.Http
