import Modem2Sip.Mms.Pdu

/-!
# The decoders on hostile input

Whatever bytes arrive, the decoders come to an end: no index or slice leaves its buffer,
no position wraps and no loop goes on without reading.  Each method of the reader has
one lemma, which says that it stays inside its buffer wherever it starts; the loops
have one for an iteration.
-/

namespace Modem2Sip.Mms

open Cursor Text Reader

section Methods

variable {decodeText : Encoding → List UInt8 → Str} {w : Nat}

theorem consumes_u8 : Consumes w (u8 w) := by
  refine Consumes.peek_bind fun b ↦ ?_
  exact consumes_advance.bind fun _ ↦ Safe.pure _

theorem safe_u8 : Safe w (u8 w) := by
  refine Safe.peek_bind (Safe.pure _) fun b ↦ ?_
  exact (consumes_advance.bind fun _ ↦ Safe.pure _).inside

/-- What was taken is no longer than the buffer it was taken from. -/
theorem wp_take {n : Nat} {c : Reader} (hc : Valid w c) :
    Wp (take w n) c fun x c' ↦ Ahead c c' ∧ ∀ bytes ∈ x, bytes.length < 2 ^ w := by
  refine (wp_left ?_).bind
  split
  · exact wp_pure.mpr ⟨hc.ahead, by simp⟩
  · rename_i hn
    have hn : n ≤ c.remaining := Nat.le_of_not_lt hn
    refine (wp_sliceHere hc hn ?_).bind
    have hle := hc.pos_add_le hn
    refine (wp_advance (hle.trans_lt hc.fits) ?_).bind
    refine wp_pure.mpr ⟨ahead_skip hle, ?_⟩
    rintro bytes ⟨⟩
    exact (length_take_rest_le c n).trans_lt hc.fits

theorem safe_take (n : Nat) : Safe w (take w n) := fun _ hc ↦ (wp_take hc).mono fun _ _ h ↦ h.1

theorem safe_take_bind {β : Type} {n : Nat} {f : Option (List UInt8) → Scan UInt8 β}
    (hnone : Safe w (f none)) (hsome : ∀ bytes, bytes.length < 2 ^ w → Safe w (f (some bytes))) :
    Safe w (take w n >>= f) := by
  intro c hc
  refine (wp_take hc).bind_of fun x c' ⟨hc', hx⟩ ↦ ?_
  cases x with
  | none => exact (hnone c' (hc'.valid hc)).mono fun _ _ h ↦ hc'.trans h
  | some bytes =>
    exact (hsome bytes (hx bytes rfl) c' (hc'.valid hc)).mono fun _ _ h ↦ hc'.trans h

theorem safe_uintvarFrom (n value : Nat) : Safe w (uintvarFrom w n value) := by
  induction n generalizing value with
  | zero => exact Safe.pure _
  | succ n ih =>
    refine safe_u8.bind fun x ↦ ?_
    cases x with
    | none => exact Safe.pure _
    | some b => exact Safe.ite (ih _) (Safe.pure _)

theorem safe_uintvar : Safe w (uintvar w) := safe_uintvarFrom 8 0

theorem consumes_uintvar : Consumes w (uintvar w) := by
  refine consumes_u8.bind fun x ↦ ?_
  cases x with
  | none => exact Safe.pure _
  | some b => exact Safe.ite (safe_uintvarFrom _ _) (Safe.pure _)

theorem safe_skipQuote : Safe w (skipQuote w) := by
  refine Safe.peek_bind ?_ fun b ↦ ?_
  · exact Safe.pure _
  · split
    · exact consumes_advance.inside
    · exact (Safe.pure _).inside

/-- One byte of a text: the slice from its start is taken where the loop has come to. -/
theorem wp_textByte {c : Reader} (hc : Valid w c) {start : Nat} (hstart : start ≤ c.pos) (u : Unit) :
    Wp (textByte w start u) c fun x c' ↦
      Ahead c c' ∧ (c.pos < c.data.length → c.pos < c'.pos) ∧
        (c.data.length ≤ c.pos → x = .done none) := by
  refine (wp_peek ?_).bind
  cases h : c.data[c.pos]? with
  | none =>
    have hlen := List.getElem?_eq_none_iff.mp h
    exact wp_pure.mpr ⟨hc.ahead, fun hlt ↦ absurd hlt (Nat.not_lt_of_le hlen), fun _ ↦ rfl⟩
  | some b =>
    have hlt := (List.getElem?_eq_some_iff.mp h).1
    have hadvance (x : LoopStep Unit (Option Str)) : Wp (advance w 1 >>= fun _ ↦ pure x) c fun x c' ↦
        Ahead c c' ∧ (c.pos < c.data.length → c.pos < c'.pos) ∧
          (c.data.length ≤ c.pos → x = .done none) :=
      (consumes_advance.bind (fun _ ↦ Safe.pure x) c hc hlt).mono fun _ _ hx ↦
        ⟨hx.1, fun _ ↦ hx.2, fun hle ↦ absurd hlt (Nat.not_lt_of_le hle)⟩
    dsimp only
    split
    · refine (wp_get ?_).bind
      refine (wp_sub hstart hc.pos_le ?_).bind
      exact hadvance _
    · exact hadvance _

/-- The loop over a text ends, and where there was something to read it has read some of it. -/
theorem wp_textLoop {c : Reader} (hc : Valid w c) {start : Nat} (hstart : start ≤ c.pos) :
    Wp (loopHere (textByte w start) ()) c fun _ c' ↦
      Ahead c c' ∧ (c.pos < c.data.length → c.pos < c'.pos) := by
  refine Wp.loopHere (fun _ c' ↦ Ahead c c') (fun u c' hc' ↦ ?_) hc.ahead
  refine (wp_textByte (hc'.valid hc) (hstart.trans hc'.le) u).mono fun x c'' hx ↦ ?_
  cases x with
  | cont u' =>
    refine ⟨hc'.trans hx.1, hx.1.remaining_lt (hx.2.1 (Nat.lt_of_not_le fun hle ↦ ?_))⟩
    cases hx.2.2 hle
  | done text =>
    refine ⟨hc'.trans hx.1, fun hlt ↦ ?_⟩
    have hle := hc'.le
    have hle' := hx.1.le
    have hread := hx.2.1
    rw [hc'.data_eq] at hread
    omega

/-- After the quote: the text is read up to its NUL, or to the end of the buffer. -/
theorem wp_textString {c : Reader} (hc : Valid w c) :
    Wp (textString w) c fun _ c' ↦ Ahead c c' ∧ (c.pos < c.data.length → c.pos < c'.pos) := by
  have hquote : Wp (skipQuote w) c fun _ c' ↦ Ahead c c' := safe_skipQuote c hc
  refine hquote.bind_of fun _ c₁ h₁ ↦ ?_
  have hc₁ := h₁.valid hc
  refine (wp_get ?_).bind
  refine (wp_textLoop hc₁ le_rfl).bind_of fun text c₂ ⟨h₂, hlt₂⟩ ↦ ?_
  have hconsumed : c.pos < c.data.length → c.pos < c₂.pos := fun hlt ↦ by
    by_cases hquoted : c.pos < c₁.pos
    · exact hquoted.trans_le h₂.le
    · have hpos : c₁.pos = c.pos := le_antisymm (Nat.le_of_not_lt hquoted) h₁.le
      rw [← hpos]
      exact hlt₂ (by rwa [hpos, h₁.data_eq])
  cases text with
  | some text => exact wp_pure.mpr ⟨h₁.trans h₂, hconsumed⟩
  | none =>
    refine (wp_get ?_).bind
    split
    · rename_i hstart
      refine (wp_sub hstart.le le_rfl ?_).bind
      refine (wp_seek ?_).bind
      refine wp_pure.mpr ⟨(h₁.trans h₂).trans ⟨rfl, h₂.pos_le, le_rfl⟩, fun hlt ↦ ?_⟩
      exact (hconsumed hlt).trans_le h₂.pos_le
    · exact wp_pure.mpr ⟨h₁.trans h₂, hconsumed⟩

theorem safe_textString : Safe w (textString w) := fun _ hc ↦ (wp_textString hc).mono fun _ _ h ↦ h.1

theorem consumes_textString : Consumes w (textString w) := fun _ hc hlt ↦
  (wp_textString hc).mono fun _ _ h ↦ ⟨h.1, h.2 hlt⟩

theorem safe_valueLength : Safe w (valueLength w) := by
  refine Safe.peek_bind (Safe.pure _) fun b ↦ ?_
  dsimp only
  split
  · exact (consumes_advance.bind fun _ ↦ Safe.pure _).inside
  split
  · exact (consumes_advance.bind fun _ ↦ safe_uintvar.bind fun _ ↦ Safe.pure _).inside
  · exact (Safe.pure _).inside

/-- The length is one that the rest of the buffer has. -/
theorem wp_boundedValueLength {c : Reader} (hc : Valid w c) :
    Wp (boundedValueLength w) c fun len c' ↦ Ahead c c' ∧ ∀ n ∈ len, n ≤ c'.remaining := by
  refine (safe_valueLength c hc).bind_of fun len c' hc' ↦ ?_
  cases len with
  | none => exact wp_pure.mpr ⟨hc', by simp⟩
  | some len =>
    refine (wp_left ?_).bind
    refine wp_pure.mpr ⟨hc', ?_⟩
    rintro n ⟨⟩
    exact Nat.min_le_right _ _

theorem safe_boundedValueLength : Safe w (boundedValueLength w) := fun _ hc ↦
  (wp_boundedValueLength hc).mono fun _ _ h ↦ h.1

theorem safe_longInt : Safe w (longInt w) := by
  refine safe_u8.bind fun len ↦ ?_
  cases len with
  | none => exact Safe.pure _
  | some len =>
    dsimp only
    split
    · exact Safe.pure _
    · refine (safe_take _).bind fun bytes ↦ ?_
      cases bytes <;> exact Safe.pure _

theorem safe_integerValue : Safe w (integerValue w) := by
  refine Safe.peek_bind (Safe.pure _) fun b ↦ ?_
  dsimp only
  split
  · exact (consumes_advance.bind fun _ ↦ Safe.pure _).inside
  · exact safe_longInt.inside

/-- A reader for `len` bytes that are there stays inside these. -/
theorem wp_inner {β : Type} {op : Scan UInt8 β} (hop : Safe w op) {c : Reader} (hc : Valid w c)
    {len : Nat} (hlen : len ≤ c.remaining) : Wp (inner w len op) c fun _ c' ↦ Ahead c c' := by
  have hle := hc.pos_add_le hlen
  refine (wp_sliceHere hc hlen ?_).bind
  refine (wp_advance (hle.trans_lt hc.fits) ?_).bind
  have hahead := ahead_skip hle
  exact (hop.nested ((length_take_rest_le c len).trans_lt hc.fits) _ (hahead.valid hc)).mono
    fun _ _ h ↦ hahead.trans h

/-- A length, and a reader for that many bytes. -/
theorem safe_bounded_inner {β γ : Type} {op : Scan UInt8 β} (hop : Safe w op)
    {f : Option Nat → Scan UInt8 γ} (hnone : Safe w (f none)) {k : β → Scan UInt8 γ}
    (hk : ∀ b, Safe w (k b)) (hsome : ∀ len, f (some len) = inner w len op >>= k) :
    Safe w (boundedValueLength w >>= f) := by
  intro c hc
  refine (wp_boundedValueLength hc).bind_of fun len c' ⟨hc', hlen⟩ ↦ ?_
  cases len with
  | none => exact (hnone c' (hc'.valid hc)).mono fun _ _ h ↦ hc'.trans h
  | some len =>
    rw [hsome]
    refine (wp_inner hop (hc'.valid hc) (hlen len rfl)).bind_of fun b c'' hb ↦ ?_
    have h := hc'.trans hb
    exact (hk b c'' (h.valid hc)).mono fun _ _ h' ↦ h.trans h'

theorem safe_charsetText : Safe w (charsetText decodeText w) := by
  refine safe_integerValue.bind fun mib c hc ↦ ?_
  refine (wp_get ?_).bind
  refine (wp_sub hc.pos_le le_rfl ?_).bind
  generalize (if "UTF-16".toList.isPrefixOf (charsetFor (mib.getD 106 % 2 ^ 32)).name then 2 else 1) =
    terminator
  dsimp only
  split
  · exact wp_pure.mpr hc.ahead
  · refine (wp_sub (Nat.sub_le _ _) le_rfl ?_).bind
    split
    · refine (wp_sub (Nat.zero_le _) (Nat.sub_le _ _) ?_).bind
      exact wp_pure.mpr hc.ahead
    · exact wp_pure.mpr hc.ahead

theorem safe_encodedString : Safe w (encodedString decodeText w) := by
  refine Safe.peek_bind (Safe.pure _) fun b ↦ ?_
  dsimp only
  split
  · exact safe_textString.inside
  split
  · exact safe_textString.inside
  · exact Safe.inside (safe_bounded_inner safe_charsetText (Safe.pure _)
      (fun text ↦ Safe.pure (some text)) fun _ ↦ rfl)

theorem safe_parameterValue (code : UInt8) : Safe w (parameterValue decodeText w code) := by
  refine Safe.ite (Safe.pure _) ?_
  refine Safe.ite (safe_uintvar.bind fun _ ↦ Safe.pure _) ?_
  refine Safe.ite (safe_integerValue.bind fun _ ↦ Safe.pure _) ?_
  refine Safe.ite ?_ (safe_encodedString.bind fun _ ↦ Safe.pure _)
  refine Safe.peek_bind (safe_textString.bind fun _ ↦ Safe.pure _) fun p ↦ Safe.inside ?_
  exact Safe.ite (safe_integerValue.bind fun _ ↦ Safe.pure _)
    (safe_textString.bind fun _ ↦ Safe.pure _)

theorem wp_u8 {c : Reader} (hc : Valid w c) {Q : Option UInt8 → Reader → Prop}
    (hnone : c.data.length ≤ c.pos → Q none c)
    (hsome : ∀ b, c.pos < c.data.length → Q (some b) (c.skip 1)) : Wp (u8 w) c Q := by
  refine (wp_peek ?_).bind
  cases h : c.data[c.pos]? with
  | none => exact wp_pure.mpr (hnone (List.getElem?_eq_none_iff.mp h))
  | some b =>
    have hlt := (List.getElem?_eq_some_iff.mp h).1
    refine (wp_advance (Nat.lt_of_le_of_lt hlt hc.fits) ?_).bind
    exact wp_pure.mpr (hsome b hlt)

/-- A byte read and then given back leaves the reader where it was. -/
theorem wp_stepBack_skip {c : Reader} {Q : Unit → Reader → Prop} (h : Q () c) :
    Wp stepBack (c.skip 1) Q := wp_stepBack (Nat.succ_ne_zero _) h

theorem consumes_parameter : Consumes w (parameter decodeText w) := by
  intro c hc hlt
  refine (wp_u8 hc (fun h ↦ absurd hlt (Nat.not_lt_of_le h)) fun b _ ↦ ?_).bind
  have hskip : Ahead c (c.skip 1) := ahead_skip hlt
  dsimp only
  split
  · refine ((safe_parameterValue _).bind fun _ ↦ Safe.pure _) _ (hskip.valid hc) |>.mono ?_
    exact fun _ _ h ↦ ⟨hskip.trans h, h.le⟩
  · refine (wp_stepBack_skip ?_).bind
    refine consumes_textString.bind (fun name ↦ ?_) c hc hlt
    cases name with
    | none => exact Safe.pure _
    | some name => exact safe_encodedString.bind fun _ ↦ Safe.pure _

theorem safe_parameter : Safe w (parameter decodeText w) := by
  intro c hc
  by_cases hlt : c.pos < c.data.length
  · exact (consumes_parameter c hc hlt).mono fun _ _ h ↦ h.1
  · refine (wp_u8 hc (fun _ ↦ ?_) fun _ h ↦ absurd h hlt).bind
    exact wp_pure.mpr hc.ahead

theorem progresses_nextParameter (params : Params) :
    Progresses w (nextParameter decodeText w params) := by
  refine Consumes.progresses (consumes_parameter.bind fun p ↦ ?_) params
  cases p <;> exact Safe.pure _

theorem safe_parameters : Safe w (parameters decodeText w) :=
  Safe.loopHere progresses_nextParameter _

theorem safe_typeAndParameters : Safe w (typeAndParameters decodeText w) := by
  refine Safe.peek_bind (Safe.pure _) fun b ↦ ?_
  dsimp only
  split
  · exact (consumes_advance.bind fun _ ↦ safe_parameters.bind fun _ ↦ Safe.pure _).inside
  · refine (safe_textString.bind fun name ↦ ?_).inside
    cases name with
    | none => exact Safe.pure _
    | some name => exact safe_parameters.bind fun _ ↦ Safe.pure _

theorem safe_contentType : Safe w (contentType decodeText w) := by
  refine Safe.peek_bind (Safe.pure _) fun b ↦ ?_
  dsimp only
  split
  · exact (consumes_advance.bind fun _ ↦ Safe.pure _).inside
  split
  · exact (safe_textString.bind fun _ ↦ Safe.pure _).inside
  · exact Safe.inside (safe_bounded_inner safe_typeAndParameters (Safe.pure _) Safe.pure
      fun _ ↦ (bind_pure _).symm)

theorem safe_skipValue : Safe w (skipValue w) := by
  refine Safe.peek_bind (Safe.pure _) fun b ↦ ?_
  dsimp only
  split
  · refine (safe_boundedValueLength.bind fun len ↦ ?_).inside
    cases len with
    | none => exact Safe.pure _
    | some len => exact (safe_take _).bind fun _ ↦ Safe.pure _
  split
  · exact (consumes_advance.bind fun _ ↦ Safe.pure _).inside
  · exact (safe_textString.bind fun _ ↦ Safe.pure _).inside

end Methods

/-! ## The decoders -/

section Decoders

variable {decodeText : Encoding → List UInt8 → Str} {w : Nat}

theorem safe_fromValue : Safe w (fromValue decodeText w) := by
  refine safe_u8.bind fun b ↦ ?_
  split
  · exact safe_encodedString
  · exact Safe.pure _

theorem safe_expiryValue : Safe w (expiryValue w) := safe_u8.bind fun _ ↦ safe_integerValue

theorem safe_messageClassValue : Safe w (messageClassValue w) := by
  refine Safe.peek_bind safe_textString fun v ↦ ?_
  dsimp only
  split
  · exact (consumes_advance.bind fun _ ↦ Safe.pure _).inside
  · exact safe_textString.inside

/-- A value with its length before it, none counting as empty. -/
theorem safe_getD_inner {β : Type} {op : Scan UInt8 β} (hop : Safe w op) :
    Safe w (boundedValueLength w >>= fun len ↦ inner w (len.getD 0) op) := by
  intro c hc
  refine (wp_boundedValueLength hc).bind_of fun len c' ⟨hc', hlen⟩ ↦ ?_
  have hle : len.getD 0 ≤ c'.remaining := by
    cases len with
    | none => exact Nat.zero_le _
    | some n => exact hlen n rfl
  exact (wp_inner hop (hc'.valid hc) hle).mono fun _ _ h ↦ hc'.trans h

theorem safe_skipped {β : Type} (stop next : β) :
    Safe w (skipValue w >>= fun x ↦ match x with | none => pure stop | some () => pure next) := by
  refine safe_skipValue.bind fun x ↦ ?_
  cases x <;> exact Safe.pure _

/-- The body starts inside the PDU, where there is one. -/
def BodyInside : LoopStep MmsMessage Headers → Reader → Prop
  | .done (.ok (_, some start)), c => start ≤ c.data.length
  | _, _ => True

theorem bodyInside_skipped (msg : MmsMessage) :
    SafeTo w BodyInside (skipValue w >>= fun x ↦
      match x with
      | none => pure (.done (.ok (msg, none)))
      | some () => pure (.cont msg)) := by
  refine safe_skipValue.bindTo fun x ↦ ?_
  cases x <;> exact SafeTo.pure fun _ ↦ trivial

/-- A field whose value goes into the message. -/
theorem bodyInside_cont {β : Type} {op : Scan UInt8 β} (h : Safe w op) (f : β → MmsMessage) :
    SafeTo w BodyInside (op >>= fun b ↦ pure (.cont (f b))) :=
  h.bindTo fun _ ↦ SafeTo.pure fun _ ↦ trivial

/-- A field whose value has its length before it. -/
theorem bodyInside_inner {β : Type} {op : Scan UInt8 β} (h : Safe w op) (f : β → MmsMessage) :
    SafeTo w BodyInside (boundedValueLength w >>= fun len ↦
      inner w (len.getD 0) op >>= fun b ↦ pure (.cont (f b))) := by
  rw [← bind_assoc]
  exact bodyInside_cont (safe_getD_inner h) f

theorem bodyInside_decodeField (msg : MmsMessage) (b : UInt8) :
    SafeTo w BodyInside (decodeField decodeText w msg b) := by
  refine SafeTo.ite (bodyInside_cont safe_u8 _) ?_
  refine SafeTo.ite (bodyInside_cont safe_textString _) ?_
  refine SafeTo.ite (bodyInside_cont safe_u8 _) ?_
  refine SafeTo.ite (bodyInside_inner safe_fromValue _) ?_
  refine SafeTo.ite (bodyInside_cont safe_encodedString _) ?_
  refine SafeTo.ite (bodyInside_cont safe_encodedString _) ?_
  refine SafeTo.ite (bodyInside_cont safe_encodedString _) ?_
  refine SafeTo.ite (bodyInside_cont safe_textString _) ?_
  refine SafeTo.ite (bodyInside_cont safe_textString _) ?_
  refine SafeTo.ite (bodyInside_cont safe_longInt _) ?_
  refine SafeTo.ite (bodyInside_cont safe_integerValue _) ?_
  refine SafeTo.ite (bodyInside_cont safe_messageClassValue _) ?_
  refine SafeTo.ite (bodyInside_inner safe_expiryValue _) ?_
  refine SafeTo.ite (bodyInside_cont safe_u8 _) ?_
  refine SafeTo.ite (bodyInside_cont safe_u8 _) ?_
  refine SafeTo.ite (bodyInside_cont safe_encodedString _) ?_
  refine SafeTo.ite ?_ (bodyInside_skipped msg)
  refine safe_contentType.bindTo fun ct ↦ ?_
  cases ct with
  | none => exact SafeTo.pure fun _ ↦ trivial
  | some ct =>
    intro c hc
    refine (wp_get ?_).bind
    exact wp_pure.mpr ⟨hc.ahead, hc.pos_le⟩

/-- One iteration of the loop over the header: either branch reads before it decides. -/
theorem progresses_decodeHeader (msg : MmsMessage) :
    Progresses w (decodeHeader decodeText w msg) := by
  refine Consumes.progresses (Consumes.peek_bind fun b ↦ ?_) _
  refine Consumes.ite (consumes_textString.bind fun _ ↦ safe_skipped _ _) ?_
  exact consumes_advance.bind fun _ ↦ (bodyInside_decodeField _ _).safe

theorem bodyInside_decodeHeader (msg : MmsMessage) :
    SafeTo w BodyInside (decodeHeader decodeText w msg) := by
  refine safe_atEnd.bindTo fun e ↦ SafeTo.ite (SafeTo.pure fun _ ↦ trivial) fun c hc ↦ ?_
  refine (wp_peek ?_).bind
  cases h : c.data[c.pos]? with
  | none => exact wp_pure.mpr ⟨hc.ahead, trivial⟩
  | some b =>
    have hlt := (List.getElem?_eq_some_iff.mp h).1
    have hskip : Ahead c (c.skip 1) := ahead_skip hlt
    dsimp only
    split
    · exact safe_textString.bindTo (fun _ ↦ bodyInside_skipped msg) c hc
    · refine (wp_advance (Nat.lt_of_le_of_lt hlt hc.fits) ?_).bind
      exact (bodyInside_decodeField _ _ _ (hskip.valid hc)).mono fun _ _ h ↦ ⟨hskip.trans h.1, h.2⟩

theorem progresses_decodePartHeader (part : MmsPart) : Progresses w (decodePartHeader w part) := by
  refine Consumes.progresses (fun c hc hlt ↦ ?_) part
  refine (wp_u8 hc (fun h ↦ absurd hlt (Nat.not_lt_of_le h)) fun h _ ↦ ?_).bind
  have hskip : Ahead c (c.skip 1) := ahead_skip hlt
  -- What comes after the byte that has been read, unless it is given back.
  have hafter {op : Scan UInt8 (LoopStep MmsPart MmsPart)} (hop : Safe w op) :
      Wp op (c.skip 1) fun _ c' ↦ Ahead c c' ∧ c.pos < c'.pos :=
    (hop _ (hskip.valid hc)).mono fun _ _ h ↦ ⟨hskip.trans h, h.le⟩
  dsimp only
  split
  · exact hafter (safe_textString.bind fun _ ↦ Safe.pure _)
  split
  · exact hafter (safe_textString.bind fun _ ↦ Safe.pure _)
  split
  · refine (wp_stepBack_skip ?_).bind
    exact consumes_textString.bind (fun _ ↦ safe_skipped _ _) c hc hlt
  · exact hafter (safe_skipped _ _)

theorem safe_decodePartHeaders (data : List UInt8) : Safe w (decodePartHeaders decodeText w data) :=
  safe_contentType.bind fun _ ↦ Safe.loopHere progresses_decodePartHeader _

theorem safe_partLength : Safe w (partLength w) := safe_uintvar.bind fun _ ↦ Safe.pure _

theorem consumes_decodePart : Consumes w (decodePart decodeText w) := by
  refine (consumes_uintvar.bind fun _ ↦ Safe.pure _).bind fun headersLen ↦ ?_
  cases headersLen with
  | none => exact Safe.pure _
  | some headersLen =>
    refine safe_partLength.bind fun dataLen ↦ ?_
    cases dataLen with
    | none => exact Safe.pure _
    | some dataLen =>
      refine safe_take_bind (Safe.pure _) fun headerBytes hlen ↦ ?_
      refine safe_take_bind (Safe.pure _) fun data _ ↦ ?_
      exact ((safe_decodePartHeaders data).nested hlen).bind fun _ ↦ Safe.pure _

/-- At the end of the body there is no part to read. -/
theorem decodePart_end {c : Reader} (h : c.data.length ≤ c.pos) :
    decodePart decodeText w c = .ok (none, c) := by
  have hpeek : peek c = .ok (none, c) :=
    congrArg (fun x ↦ Except.ok (x, c)) (List.getElem?_eq_none h)
  have hu8 : u8 w c = .ok (none, c) := (bind_ok hpeek).trans rfl
  have huintvar : uintvar w c = .ok (none, c) := (bind_ok hu8).trans rfl
  have hlength : partLength w c = .ok (none, c) := (bind_ok huintvar).trans rfl
  exact (bind_ok hlength).trans rfl

theorem safe_decodePart : Safe w (decodePart decodeText w) := by
  intro c hc
  by_cases hlt : c.pos < c.data.length
  · exact (consumes_decodePart c hc hlt).mono fun _ _ h ↦ h.1
  · exact ⟨_, _, decodePart_end (Nat.le_of_not_lt hlt), hc.ahead⟩

theorem safe_decodeParts (n : Nat) (parts : List MmsPart) :
    Safe w (decodeParts decodeText w n parts) := by
  induction n generalizing parts with
  | zero => exact Safe.pure _
  | succ n ih =>
    refine safe_decodePart.bind fun part ↦ ?_
    cases part with
    | none => exact Safe.pure _
    | some part => exact ih _

theorem safe_decodeMultipart : Safe w (decodeMultipart decodeText w) := by
  refine safe_uintvar.bind fun count ↦ ?_
  cases count with
  | none => exact Safe.pure _
  | some count => exact safe_decodeParts _ _

theorem safe_bodyParts (msg : MmsMessage) {body : List UInt8} (h : body.length < 2 ^ w) :
    Safe w (bodyParts decodeText w msg body) :=
  Safe.ite (safe_decodeMultipart.nested h) (Safe.ite (Safe.pure _) (Safe.pure _))

/-- The loop over the header, and where it has found the body to start. -/
theorem wp_headers {c : Reader} (hc : Valid w c) (msg : MmsMessage) :
    Wp (loopHere (decodeHeader decodeText w) msg) c fun x c' ↦
      Ahead c c' ∧ BodyInside (.done x) c' := by
  refine Wp.loopHere (fun _ c' ↦ Ahead c c') (fun msg c' hc' ↦ ?_) hc.ahead
  have hvalid := hc'.valid hc
  refine ((progresses_decodeHeader msg c' hvalid).and (bodyInside_decodeHeader msg c' hvalid)).mono ?_
  rintro x c'' ⟨⟨hahead, hlt, hend⟩, -, hbody⟩
  cases x with
  | done x => exact ⟨hc'.trans hahead, hbody⟩
  | cont msg' =>
    refine ⟨hc'.trans hahead, hahead.remaining_lt (hlt (Nat.lt_of_not_le fun hle ↦ ?_))⟩
    obtain ⟨x, hx⟩ := hend hle
    cases hx

theorem safe_decodeScan : Safe w (decodeScan decodeText w) := by
  intro c hc
  refine (wp_headers hc {}).bind_of fun x c' ⟨hc', hbody⟩ ↦ ?_
  match x, hbody with
  | .error e, _ => exact wp_pure.mpr hc'
  | .ok (msg, none), _ => exact wp_pure.mpr hc'
  | .ok (msg, some start), hstart =>
    have hvalid := hc'.valid hc
    refine (wp_get ?_).bind
    refine (wp_sub hstart le_rfl ?_).bind
    have hlen : ((c'.data.take c'.data.length).drop start).length < 2 ^ w := by
      rw [List.take_length, List.length_drop]
      exact (Nat.sub_le _ _).trans_lt hvalid.fits
    exact ((safe_bodyParts msg hlen).bind fun _ ↦ Safe.pure _) c' hvalid |>.mono
      fun _ _ h ↦ hc'.trans h

theorem safe_pushScan : Safe w (pushScan decodeText w) := by
  refine safe_u8.bind fun b ↦ ?_
  cases b with
  | none => exact Safe.pure _
  | some b =>
    refine safe_u8.bind fun _ ↦ safe_uintvar.bind fun len ↦ ?_
    cases len with
    | none => exact Safe.pure _
    | some len =>
      intro c hc
      refine (wp_get ?_).bind
      dsimp only
      split
      · rename_i hend
        refine (wp_sub (Nat.le_add_right _ _) hend.2 ?_).bind
        have hlen : ((c.data.take (c.pos + len % 2 ^ w)).drop c.pos).length < 2 ^ w := by
          rw [take_rest]
          exact (length_take_rest_le _ _).trans_lt hc.fits
        refine (safe_contentType.nested hlen c hc).bind_of fun ct c' hc' ↦ ?_
        cases ct with
        | none => exact wp_pure.mpr hc'
        | some ct =>
          refine (wp_sub hend.2 le_rfl ?_).bind
          exact wp_pure.mpr hc'
      · exact wp_pure.mpr hc.ahead

/-- A safe decoder gives a result for every byte string that fits into memory. -/
theorem onBytes_ok {β : Type} {op : Scan UInt8 β} (h : Safe w op) {data : List UInt8}
    (hdata : data.length < 2 ^ w) : ∃ b, onBytes op data = .ok b := by
  obtain ⟨b, c', hop, -⟩ := h _ (valid_start hdata)
  exact ⟨b, by rw [onBytes, hop]; rfl⟩

/-- The methods of a reader end wherever in its buffer they start, with what they look for or
without, and leave the reader in its buffer. -/
structure MethodsSafe (decodeText : Encoding → List UInt8 → Str) (w : Nat) : Prop where
  u8 : Safe w (Reader.u8 w)
  take : ∀ n, Safe w (Reader.take w n)
  uintvar : Safe w (Reader.uintvar w)
  textString : Safe w (Reader.textString w)
  valueLength : Safe w (Reader.valueLength w)
  boundedValueLength : Safe w (Reader.boundedValueLength w)
  longInt : Safe w (Reader.longInt w)
  integerValue : Safe w (Reader.integerValue w)
  encodedString : Safe w (Reader.encodedString decodeText w)
  contentType : Safe w (Reader.contentType decodeText w)
  parameter : Safe w (Reader.parameter decodeText w)
  skipValue : Safe w (Reader.skipValue w)

/-- Every iteration of a loop that has something to read reads some of it. -/
structure LoopsProgress (decodeText : Encoding → List UInt8 → Str) (w : Nat) : Prop where
  /-- The groups of a uintvar. -/
  group : Consumes w (u8 w)
  /-- The bytes of a text, which began at `start`. -/
  text : ∀ start u (c : Reader), Valid w c → start ≤ c.pos →
    Wp (textByte w start u) c fun x c' ↦
      Ahead c c' ∧ (c.pos < c.data.length → c.pos < c'.pos) ∧
        (c.data.length ≤ c.pos → x = .done none)
  parameters : ∀ params, Progresses w (nextParameter decodeText w params)
  headers : ∀ msg, Progresses w (decodeHeader decodeText w msg)
  partHeaders : ∀ part, Progresses w (decodePartHeader w part)
  part : Consumes w (decodePart decodeText w)

/-- The decoders are total on every byte string that a slice can hold, whatever the width of
`usize`: they end without an index or a slice outside a buffer, a position that wraps or a loop
that does not end. -/
theorem decoders_total (decodeText : Encoding → List UInt8 → Str) (w : Nat) (data : List UInt8)
    (hdata : data.length < 2 ^ w) :
    MethodsSafe decodeText w ∧ LoopsProgress decodeText w ∧
      (∃ push, parseWapPush decodeText w data = .ok push) ∧
      (∃ msg, decode decodeText w data = .ok msg) ∧
      ∃ parts, onBytes (decodeMultipart decodeText w) data = .ok parts := by
  refine ⟨?_, ?_, ?_, onBytes_ok safe_decodeScan hdata, onBytes_ok safe_decodeMultipart hdata⟩
  · constructor
    case u8 => exact safe_u8
    case take => exact safe_take
    case uintvar => exact safe_uintvar
    case textString => exact safe_textString
    case valueLength => exact safe_valueLength
    case boundedValueLength => exact safe_boundedValueLength
    case longInt => exact safe_longInt
    case integerValue => exact safe_integerValue
    case encodedString => exact safe_encodedString
    case contentType => exact safe_contentType
    case parameter => exact safe_parameter
    case skipValue => exact safe_skipValue
  · constructor
    case group => exact consumes_u8
    case text => exact fun _ u _ hc hstart ↦ wp_textByte hc hstart u
    case parameters => exact progresses_nextParameter
    case headers => exact progresses_decodeHeader
    case partHeaders => exact progresses_decodePartHeader
    case part => exact consumes_decodePart
  · unfold parseWapPush
    split
    · exact onBytes_ok safe_pushScan hdata
    · exact ⟨_, rfl⟩

/-- A push whose header claims four gigabytes, on a target with 32 bits. -/
theorem decoders_total_huge :
    ∃ push, parseWapPush (fun _ ↦ fromUtf8Lossy) 32 [1, 6, 0x8F, 0xFF, 0xFF, 0xFF, 0x7F, 0x84] =
      .ok push :=
  (decoders_total (fun _ ↦ fromUtf8Lossy) 32 [1, 6, 0x8F, 0xFF, 0xFF, 0xFF, 0x7F, 0x84]
    (by decide)).2.2.1

end Decoders

end Modem2Sip.Mms
