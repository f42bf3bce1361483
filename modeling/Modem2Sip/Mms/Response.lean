import Modem2Sip.Mms.Http

/-!
# A response is its bytes

`read_response` reads three times over: to the end of the headers, to the end of the
body, and each time it looks again at what it has.  What it looks for does not go away
when more arrives, so each loop ends with what it would have found in all the bytes at
once, and how TCP cuts the response does not matter.
-/

namespace Modem2Sip.Mms.Http

open Text

variable {w : Nat}

/-! ## Loops that look for something lasting -/

namespace ReadLoop

variable {β : Type} {l : ReadLoop β}

/-- What the loop looks for is still there, and the same, when more bytes have come. -/
def Lasting (l : ReadLoop β) : Prop :=
  ∀ buf t b, l.stop buf = some b → l.stop (buf ++ t) = some b

/-- What the loop finds is what is in all the bytes, and it has lost none of them. -/
theorem run_of_stop (hlasting : l.Lasting) {reads : List (List UInt8)} {buf : List UInt8} {b : β}
    (hne : ∀ r ∈ reads, r ≠ []) (hlimit : ∀ p, p <+: buf ++ reads.flatten → l.limit p = none)
    (hstop : l.stop (buf ++ reads.flatten) = some b) :
    ∃ buf' reads', l.run none reads buf = .ok (b, buf', reads') ∧ l.stop buf' = some b ∧
      buf' ++ reads'.flatten = buf ++ reads.flatten ∧ ∀ r ∈ reads', r ≠ [] := by
  induction reads generalizing buf with
  | nil =>
    rw [List.flatten_nil, List.append_nil] at hstop
    exact ⟨buf, [], by rw [run, hstop], hstop, rfl, hne⟩
  | cons chunk reads ih =>
    cases hnow : l.stop buf with
    | some b' =>
      obtain rfl : b' = b := Option.some.inj ((hlasting _ _ _ hnow).symm.trans hstop)
      exact ⟨buf, chunk :: reads, by rw [run, hnow], hnow, rfl, hne⟩
    | none =>
      have happend : buf ++ (chunk :: reads).flatten = (buf ++ chunk) ++ reads.flatten := by
        rw [List.flatten_cons, List.append_assoc]
      rw [happend] at hlimit hstop ⊢
      have hrun : l.run none (chunk :: reads) buf = l.run none reads (buf ++ chunk) := by
        rw [run, hnow]
        dsimp only
        rw [if_neg (hne chunk List.mem_cons_self), hlimit _ (List.prefix_append _ _)]
      rw [hrun]
      exact ih (fun r hr ↦ hne r (List.mem_cons_of_mem chunk hr)) hlimit hstop

/-- What is in none of the bytes is not found, and the loop has all of them when the connection is
closed. -/
theorem run_of_closed (hlasting : l.Lasting) {reads : List (List UInt8)} {buf : List UInt8}
    (hne : ∀ r ∈ reads, r ≠ []) (hlimit : ∀ p, p <+: buf ++ reads.flatten → l.limit p = none)
    (hstop : l.stop (buf ++ reads.flatten) = none) :
    l.run none reads buf =
      (l.closed (buf ++ reads.flatten)).map (·, buf ++ reads.flatten, []) := by
  have hnow : l.stop buf = none := by
    cases hnow : l.stop buf with
    | none => rfl
    | some b =>
      rw [hlasting _ _ _ hnow] at hstop
      cases hstop
  induction reads generalizing buf with
  | nil =>
    rw [List.flatten_nil, List.append_nil, run, hnow]
  | cons chunk reads ih =>
    have happend : buf ++ (chunk :: reads).flatten = (buf ++ chunk) ++ reads.flatten := by
      rw [List.flatten_cons, List.append_assoc]
    rw [happend] at hlimit hstop ⊢
    rw [run, hnow]
    dsimp only
    rw [if_neg (hne chunk List.mem_cons_self), hlimit _ (List.prefix_append _ _)]
    refine ih (fun r hr ↦ hne r (List.mem_cons_of_mem chunk hr)) hlimit hstop ?_
    cases hnext : l.stop (buf ++ chunk) with
    | none => rfl
    | some b =>
      rw [hlasting _ _ _ hnext] at hstop
      cases hstop

end ReadLoop

/-! ## The loops of `read_response` -/

/-- The headers and their empty line are inside what was read. -/
theorem le_of_headerEnd {buf : List UInt8} {head body : Nat} (h : headerEnd buf = some (head, body)) :
    head ≤ body ∧ body ≤ buf.length := by
  have hcrlf {n : Nat} (hn : find buf [13, 10, 13, 10] = some n) : n + 4 ≤ buf.length :=
    Lines.le_length_of_findSub (by simp) hn
  have hlf {n : Nat} (hn : find buf [10, 10] = some n) : n + 2 ≤ buf.length :=
    Lines.le_length_of_findSub (by simp) hn
  unfold headerEnd at h
  split at h
  · rename_i crlf lf hcr hl
    have := hcrlf hcr
    have := hlf hl
    split at h <;> cases h <;> omega
  · rename_i crlf hcr hl
    have := hcrlf hcr
    cases h
    omega
  · rename_i lf hcr hl
    have := hlf hl
    cases h
    omega
  · cases h

/-- Two patterns that overlap at the line feed of one and the carriage return of the other are not
both there. -/
theorem not_overlap {s : List UInt8} {m n : Nat} (hcrlf : [13, 10, 13, 10] <+: s.drop m)
    (hlf : [10, 10] <+: s.drop n) : n ≠ m ∧ n ≠ m + 1 := by
  obtain ⟨t, ht⟩ := hcrlf
  constructor
  · rintro rfl
    rw [← ht] at hlf
    exact absurd (List.cons_prefix_cons.mp hlf).1 (by decide)
  · rintro rfl
    rw [← List.drop_drop, ← ht] at hlf
    obtain ⟨-, hsecond⟩ := List.cons_prefix_cons.mp hlf
    exact absurd (List.cons_prefix_cons.mp hsecond).1 (by decide)

/-- The empty line that came first is still the first when there are more bytes: one of the other
kind that is found only then starts behind it. -/
theorem headerLoop_lasting : headerLoop.Lasting := by
  intro buf t ends h
  change headerEnd buf = some ends at h
  change headerEnd (buf ++ t) = some ends
  have hstay {needle : List UInt8} (hne : needle ≠ []) {n : Nat} (hn : find buf needle = some n) :
      find (buf ++ t) needle = some n := Lines.findSub_append_right hne hn t
  unfold headerEnd at h ⊢
  cases hcr : find buf [13, 10, 13, 10] with
  | some crlf =>
    rw [hstay (by simp) hcr]
    cases hlf : find buf [10, 10] with
    | some lf => rwa [hstay (by simp) hlf, ← hcr, ← hlf]
    | none =>
      rw [hcr, hlf] at h
      cases hlf' : find (buf ++ t) [10, 10] with
      | none => exact h
      | some lf =>
        have hlate : buf.length < lf + 2 := Lines.lt_of_findSub_append (by simp) hlf hlf'
        have hle : crlf + 4 ≤ buf.length := Lines.le_length_of_findSub (by simp) hcr
        exact (if_neg (by omega)).trans h
  | none =>
    cases hlf : find buf [10, 10] with
    | none =>
      rw [hcr, hlf] at h
      cases h
    | some lf =>
      rw [hcr, hlf] at h
      rw [hstay (by simp) hlf]
      cases hcr' : find (buf ++ t) [13, 10, 13, 10] with
      | none => exact h
      | some crlf =>
        have hlate : buf.length < crlf + 4 := Lines.lt_of_findSub_append (by simp) hcr hcr'
        have hle : lf + 2 ≤ buf.length := Lines.le_length_of_findSub (by simp) hlf
        have hapart := not_overlap ((Lines.findSub_eq_some_iff (by simp)).mp hcr').1
          ((Lines.findSub_eq_some_iff (by simp)).mp (hstay (by simp) hlf)).1
        exact (if_pos (by omega)).trans h

theorem closeLoop_lasting (maxSize : Nat) : (closeLoop maxSize).Lasting := by
  rintro buf t b ⟨⟩

theorem lengthLoop_lasting (len : Nat) : (lengthLoop len).Lasting := by
  intro buf t b h
  change (if buf.length < len then none else some ()) = some b at h
  change (if (buf ++ t).length < len then none else some ()) = some b
  by_cases hlt : buf.length < len
  · rw [if_pos hlt] at h
    cases h
  · rw [List.length_append]
    exact if_neg (by omega)

/-! ## The response as a function of the bytes -/

/-- The body among the bytes behind the headers. -/
def bodyOf (w maxSize : Nat) (h : Head) (bytes : List UInt8) : Except Trap (Except Str (List UInt8)) :=
  if h.isChunked then (dechunk w bytes).map .ok
  else
    match h.contentLength w with
    | some len =>
      if maxSize < len then
        .ok (.error ("HTTP body of " ++ dec len ++ " bytes exceeds the configured limit (" ++
          dec maxSize ++ ")"))
      else if bytes.length < len then
        .ok (.error ("connection closed after " ++ dec bytes.length ++ " of " ++ dec len ++
          " announced body bytes"))
      else .ok (.ok (bytes.take len))
    | none => .ok (.ok bytes)

def responseOf (w maxSize : Nat) (bytes : List UInt8) : Except Trap (Except Str HttpResponse) :=
  match headerEnd bytes with
  | none => .ok (.error "connection closed before the HTTP headers were complete")
  | some (headerEnd, bodyStart) =>
    match parseHead (bytes.take headerEnd) with
    | .error e => .ok (.error e)
    | .ok h =>
      (bodyOf w (effectiveLimit maxSize) h (bytes.drop bodyStart)).map
        (·.map ({ status := h.status, headers := h.headers, body := · }))

variable {maxSize : Nat} {reads : List (List UInt8)} {body : List UInt8}

theorem closeLoop_run (hne : ∀ r ∈ reads, r ≠ [])
    (hlimit : (body ++ reads.flatten).length ≤ maxSize) :
    (closeLoop maxSize).run none reads body = .ok ((), body ++ reads.flatten, []) := by
  refine ((closeLoop maxSize).run_of_closed (closeLoop_lasting maxSize) hne ?_ rfl).trans rfl
  intro p hp
  exact if_neg (Nat.not_lt.mpr (hp.length_le.trans hlimit))

theorem readBody_eq (h : Head) (hne : ∀ r ∈ reads, r ≠ [])
    (hlimit : (body ++ reads.flatten).length ≤ maxSize) :
    readBody w maxSize h none reads body = bodyOf w maxSize h (body ++ reads.flatten) := by
  unfold readBody bodyOf
  rw [closeLoop_run hne hlimit]
  by_cases hchunked : h.isChunked = true
  · rw [if_pos hchunked, if_pos hchunked]
  rw [if_neg hchunked, if_neg hchunked]
  cases h.contentLength w with
  | none => rfl
  | some len =>
    dsimp only
    by_cases hlarge : maxSize < len
    · rw [if_pos hlarge, if_pos hlarge]
    rw [if_neg hlarge, if_neg hlarge]
    by_cases hshort : (body ++ reads.flatten).length < len
    · rw [if_pos hshort, (lengthLoop len).run_of_closed (lengthLoop_lasting len) hne
        (fun _ _ ↦ rfl) (if_pos hshort)]
      rfl
    · obtain ⟨buf, reads', hrun, hstop, hall, -⟩ := (lengthLoop len).run_of_stop
        (lengthLoop_lasting len) hne (fun _ _ ↦ rfl) (if_neg hshort)
      have hlen : len ≤ buf.length := by
        by_contra hlt
        rw [show (lengthLoop len).stop buf = none from if_pos (Nat.lt_of_not_le hlt)] at hstop
        cases hstop
      rw [if_neg hshort, hrun, ← hall, List.take_append_of_le_length hlen]
      rfl

/-- With room for all the bytes, the response depends on the bytes alone. -/
theorem readResponse_eq (hne : ∀ r ∈ reads, r ≠ []) (hhead : reads.flatten.length ≤ 64 * 1024)
    (hlimit : reads.flatten.length ≤ effectiveLimit maxSize) :
    readResponse w ⟨reads, none⟩ maxSize = responseOf w maxSize reads.flatten := by
  have hroom : ∀ p, p <+: [] ++ reads.flatten → headerLoop.limit p = none := by
    intro p hp
    exact if_neg (Nat.not_lt.mpr (hp.length_le.trans hhead))
  unfold readResponse responseOf
  cases hend : headerEnd reads.flatten with
  | none =>
    rw [headerLoop.run_of_closed headerLoop_lasting hne hroom hend]
    rfl
  | some ends =>
    obtain ⟨buf, reads', hrun, hstop, hall, hne'⟩ :=
      headerLoop.run_of_stop headerLoop_lasting hne hroom hend
    obtain ⟨hle, hbuf⟩ : ends.1 ≤ ends.2 ∧ ends.2 ≤ buf.length := le_of_headerEnd hstop
    rw [List.nil_append] at hall
    dsimp only
    rw [hrun, ← hall, List.take_append_of_le_length (hle.trans hbuf),
      List.drop_append_of_le_length hbuf]
    dsimp only
    cases parseHead (buf.take ends.1) with
    | error e => rfl
    | ok h =>
      dsimp only
      rw [readBody_eq h hne']
      rw [← hall] at hlimit
      simp only [List.length_append, List.length_drop] at hlimit ⊢
      omega

/-! ## Responses that are read -/

/-- A loop that ends well has found what it looks for, or has everything when the connection is
closed. -/
theorem ReadLoop.of_run_ok {β : Type} {l : ReadLoop β} {reads' : List (List UInt8)} {buf buf' : List UInt8}
    {b : β} (hne : ∀ r ∈ reads, r ≠ []) (h : l.run none reads buf = .ok (b, buf', reads')) :
    buf' ++ reads'.flatten = buf ++ reads.flatten ∧ (∀ r ∈ reads', r ≠ []) ∧
      (l.stop buf' = some b ∨ reads' = [] ∧ l.closed buf' = .ok b) := by
  induction reads generalizing buf with
  | nil =>
    rw [run] at h
    cases hstop : l.stop buf with
    | some b' =>
      rw [hstop] at h
      cases h
      exact ⟨rfl, hne, .inl hstop⟩
    | none =>
      rw [hstop] at h
      cases hclosed : l.closed buf with
      | error e =>
        rw [hclosed] at h
        cases h
      | ok b' =>
        rw [hclosed] at h
        cases h
        exact ⟨rfl, hne, .inr ⟨rfl, hclosed⟩⟩
  | cons chunk reads ih =>
    obtain ⟨hchunk, hreads⟩ := List.forall_mem_cons.mp hne
    rw [run] at h
    cases hstop : l.stop buf with
    | some b' =>
      rw [hstop] at h
      cases h
      exact ⟨rfl, hne, .inl hstop⟩
    | none =>
      rw [hstop] at h
      dsimp only at h
      rw [if_neg hchunk] at h
      cases hlimit : l.limit (buf ++ chunk) with
      | some e =>
        rw [hlimit] at h
        cases h
      | none =>
        rw [hlimit] at h
        obtain ⟨hall, hne', hend⟩ := ih hreads h
        exact ⟨by rw [hall, List.flatten_cons, List.append_assoc], hne', hend⟩

theorem bodyOf_of_readBody {h : Head} {out : List UInt8} (hne : ∀ r ∈ reads, r ≠ [])
    (hread : readBody w maxSize h none reads body = .ok (.ok out)) :
    bodyOf w maxSize h (body ++ reads.flatten) = .ok (.ok out) := by
  have hclose {buf : List UInt8} {reads' : List (List UInt8)}
      (hrun : (closeLoop maxSize).run none reads body = .ok ((), buf, reads')) :
      buf = body ++ reads.flatten := by
    obtain ⟨hall, -, hstop | ⟨rfl, -⟩⟩ := ReadLoop.of_run_ok hne hrun
    · cases hstop
    · rwa [List.flatten_nil, List.append_nil] at hall
  unfold readBody at hread
  unfold bodyOf
  split at hread
  · rename_i hchunked
    rw [if_pos hchunked]
    cases hrun : (closeLoop maxSize).run none reads body with
    | error e =>
      rw [hrun] at hread
      cases hread
    | ok r =>
      obtain ⟨⟨⟩, buf, reads'⟩ := r
      rw [hrun] at hread
      rwa [hclose hrun] at hread
  rename_i hchunked
  rw [if_neg hchunked]
  cases hlength : h.contentLength w with
  | none =>
    rw [hlength] at hread
    cases hrun : (closeLoop maxSize).run none reads body with
    | error e =>
      rw [hrun] at hread
      cases hread
    | ok r =>
      obtain ⟨⟨⟩, buf, reads'⟩ := r
      rw [hrun] at hread
      cases hread
      rw [hclose hrun]
  | some len =>
    rw [hlength] at hread
    dsimp only at hread ⊢
    split at hread
    · cases hread
    rename_i hlarge
    rw [if_neg hlarge]
    cases hrun : (lengthLoop len).run none reads body with
    | error e =>
      rw [hrun] at hread
      cases hread
    | ok r =>
      obtain ⟨⟨⟩, buf, reads'⟩ := r
      rw [hrun] at hread
      cases hread
      obtain ⟨hall, -, hstop | ⟨-, hclosed⟩⟩ := ReadLoop.of_run_ok hne hrun
      · have hlen : len ≤ buf.length := by
          by_contra hlt
          rw [show (lengthLoop len).stop buf = none from if_pos (Nat.lt_of_not_le hlt)] at hstop
          cases hstop
        rw [← hall, List.take_append_of_le_length hlen, if_neg]
        rw [List.length_append]
        omega
      · cases hclosed

/-- A response that is read is what all the bytes make, however large they are. -/
theorem responseOf_of_readResponse {resp : HttpResponse} (hne : ∀ r ∈ reads, r ≠ [])
    (h : readResponse w ⟨reads, none⟩ maxSize = .ok (.ok resp)) :
    responseOf w maxSize reads.flatten = .ok (.ok resp) := by
  unfold readResponse at h
  unfold responseOf
  dsimp only at h
  cases hrun : headerLoop.run none reads [] with
  | error e =>
    rw [hrun] at h
    cases h
  | ok r =>
    obtain ⟨⟨head, start⟩, buf, reads'⟩ := r
    rw [hrun] at h
    dsimp only at h
    obtain ⟨hall, hne', hstop | ⟨-, hclosed⟩⟩ := ReadLoop.of_run_ok hne hrun
    · rw [List.nil_append] at hall
      obtain ⟨hle, hbuf⟩ : head ≤ start ∧ start ≤ buf.length := le_of_headerEnd hstop
      have hend : headerEnd reads.flatten = some (head, start) :=
        hall ▸ headerLoop_lasting buf reads'.flatten (head, start) hstop
      rw [hend, ← hall]
      dsimp only
      rw [List.take_append_of_le_length (hle.trans hbuf), List.drop_append_of_le_length hbuf]
      cases hhead : parseHead (buf.take head) with
      | error e =>
        rw [hhead] at h
        cases h
      | ok fields =>
        rw [hhead] at h
        dsimp only at h ⊢
        cases hbody : readBody w (effectiveLimit maxSize) fields none reads' (buf.drop start) with
        | error e =>
          rw [hbody] at h
          cases h
        | ok r =>
          cases r with
          | error e =>
            rw [hbody] at h
            cases h
          | ok out =>
            rw [hbody] at h
            rw [bodyOf_of_readBody hne' hbody]
            exact h
    · cases hclosed

/-! ## Ways of cutting a response -/

/-- A way of cutting a response into reads. -/
structure Cut (bytes : List UInt8) where
  reads : List (List UInt8)
  reads_ne : ∀ r ∈ reads, r ≠ []
  flatten_eq : reads.flatten = bytes

/-- The connection that hands the response over in these reads and is closed. -/
def Cut.connection {bytes : List UInt8} (c : Cut bytes) : Connection := ⟨c.reads, none⟩

/-- How a response is cut makes no difference to the status, the headers, the body or the error. -/
theorem readResponse_cut (w maxSize : Nat) {bytes : List UInt8} (hhead : bytes.length ≤ 64 * 1024)
    (hlimit : bytes.length ≤ effectiveLimit maxSize) (c c' : Cut bytes) :
    readResponse w c.connection maxSize = readResponse w c'.connection maxSize := by
  have hone (c : Cut bytes) :
      readResponse w c.connection maxSize = responseOf w maxSize bytes := by
    obtain ⟨reads, hne, rfl⟩ := c
    exact readResponse_eq hne hhead hlimit
  rw [hone c, hone c']

/-- All at once, and with the headers cut off in the middle of their empty line. -/
theorem readResponse_cut_ok :
    readResponse 64 ⟨[utf8 "HTTP/1.1 200 OK\r\nContent-Length: 2\r\n\r\nhi"], none⟩ 100 =
      readResponse 64 ⟨[utf8 "HTTP/1.1 200 OK\r\nContent-Length: 2\r\n", utf8 "\r", utf8 "\nh",
        utf8 "i"], none⟩ 100 := by
  have hhead : (utf8 "HTTP/1.1 200 OK\r\nContent-Length: 2\r\n\r\nhi").length ≤ 64 * 1024 := by decide
  exact readResponse_cut 64 100 hhead (by decide) ⟨_, by decide, by decide⟩
    ⟨_, by decide, by decide⟩

end Modem2Sip.Mms.Http
