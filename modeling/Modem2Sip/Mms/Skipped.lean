import Modem2Sip.Mms.SendReq
import Modem2Sip.Mms.Total

/-!
# Unknown headers are skipped

The header of an MMS PDU as a grammar over bytes: the ways in which a length, a text, a
number and an address may be written, the fields that the decoder reads into its message,
and the headers that it has no branch for.  The grammar says nothing about the decoder.
Of every header that it admits, the decoder reads just the bytes, whatever comes next;
so a header that changes nothing may stand anywhere.
-/

namespace Modem2Sip.Mms

open Cursor Text Reader

/-! ## The grammar -/

/-- Text up to its NUL.  `P` is what is asked of the first byte, if there is one before the NUL. -/
inductive TextValue (P : UInt8 → Prop) : List UInt8 → Prop
  | mk {x : List UInt8} (hx : 0 ∉ x) (hhead : ∀ b ∈ x.head?, P b) : TextValue P (x ++ [0])

/-- A length and that many bytes. -/
inductive Sized : List UInt8 → Prop
  | mk {len x : List UInt8} (h : ValueLength len x.length) : Sized (len ++ x)

/-- Plain text, or a length with a charset and a text behind it. -/
inductive EncodedString : List UInt8 → Prop
  | text {x : List UInt8} (h : TextValue (0x20 ≤ ·) x) : EncodedString x
  | sized {x : List UInt8} (h : Sized x) : EncodedString x

/-- A number in as many bytes as its first byte says, at most those of a `u64`. -/
inductive LongInteger : List UInt8 → Prop
  | mk {b : UInt8} {x : List UInt8} (hpos : b ≠ 0) (hle : b ≤ 8) (hx : x.length = b.toNat) :
    LongInteger (b :: x)

inductive IntegerValue : List UInt8 → Prop
  | short {b : UInt8} (h : 0x80 ≤ b) : IntegerValue [b]
  | long {x : List UInt8} (h : LongInteger x) : IntegerValue x

/-- One of the well-known classes or a token. -/
inductive ClassValue : List UInt8 → Prop
  | code {b : UInt8} (h : 0x80 ≤ b) : ClassValue [b]
  | token {x : List UInt8} (h : TextValue (· < 0x80) x) : ClassValue x

/-- A well-known content type or its name. -/
inductive MediaType : List UInt8 → Prop
  | code {b : UInt8} (h : 0x80 ≤ b) : MediaType [b]
  | name {x : List UInt8} (h : TextValue (· < 0x80) x) : MediaType x

inductive ContentTypeValue : List UInt8 → Prop
  | code {b : UInt8} (h : 0x80 ≤ b) : ContentTypeValue [b]
  | name {x : List UInt8} (hne : x ≠ [0]) (h : TextValue (fun b ↦ 0x20 ≤ b ∧ b < 0x80) x) :
    ContentTypeValue x
  | params {len media params : List UInt8} (hmedia : MediaType media)
    (hlen : ValueLength len (media ++ params).length) :
    ContentTypeValue (len ++ (media ++ params))

/-- The field codes that the decoder has a branch for. -/
def Field.interpreted : List UInt8 :=
  [messageType, transactionId, mmsVersion, fromAddr, toAddrs, cc, subject, messageId,
    contentLocation, date, messageSize, messageClass, expiry, responseStatus, retrieveStatus,
    responseText, retrieveText, contentType]

/-- A field that goes into the message, with a value as its code asks for it. -/
inductive KnownHeader : List UInt8 → Prop
  | octet {code : UInt8}
    (h : code ∈ [Field.messageType, Field.mmsVersion, Field.responseStatus, Field.retrieveStatus])
    (b : UInt8) : KnownHeader [code, b]
  | text {code : UInt8} {x : List UInt8}
    (h : code ∈ [Field.transactionId, Field.messageId, Field.contentLocation])
    (hx : TextValue (fun _ ↦ True) x) : KnownHeader (code :: x)
  | encoded {code : UInt8} {x : List UInt8}
    (h : code ∈ [Field.toAddrs, Field.cc, Field.subject, Field.responseText, Field.retrieveText])
    (hx : EncodedString x) : KnownHeader (code :: x)
  | sized {code : UInt8} {x : List UInt8} (h : code ∈ [Field.fromAddr, Field.expiry])
    (hx : Sized x) : KnownHeader (code :: x)
  | date {x : List UInt8} (hx : LongInteger x) : KnownHeader (Field.date :: x)
  | messageSize {x : List UInt8} (hx : IntegerValue x) : KnownHeader (Field.messageSize :: x)
  | messageClass {x : List UInt8} (hx : ClassValue x) : KnownHeader (Field.messageClass :: x)

/-- A value that can be told from its first byte: a short integer, a text, or a length with what it
is the length of. -/
inductive UnknownValue : List UInt8 → Prop
  | short {b : UInt8} (h : 0x80 ≤ b) : UnknownValue [b]
  | text {x : List UInt8} (h : TextValue (fun b ↦ 0x1F < b ∧ b < 0x80) x) : UnknownValue x
  | sized {x : List UInt8} (h : Sized x) : UnknownValue x

/-- A header that the decoder does not interpret: a field with another code, or one whose name is in
text. -/
inductive UnknownHeader : List UInt8 → Prop
  | field {code : UInt8} {x : List UInt8} (hcode : 0x80 ≤ code) (h : code ∉ Field.interpreted)
    (hx : UnknownValue x) : UnknownHeader (code :: x)
  | named {name x : List UInt8} (hname : TextValue (· < 0x80) name) (hx : UnknownValue x) :
    UnknownHeader (name ++ x)

/-- A well-formed header, but for the content type. -/
inductive Header (x : List UInt8) : Prop
  | known (h : KnownHeader x)
  | unknown (h : UnknownHeader x)

/-- What follows the headers: nothing, or the content type and the body. -/
inductive Tail : List UInt8 → Prop
  | nil : Tail []
  | body {ct : List UInt8} (h : ContentTypeValue ct) (body : List UInt8) :
    Tail (Field.contentType :: ct ++ body)

/-- The second list is the first one with unknown headers put in, any number of them anywhere. -/
inductive Inserts : List (List UInt8) → List (List UInt8) → Prop
  | nil : Inserts [] []
  | keep {hs hs' : List (List UInt8)} (x : List UInt8) (h : Inserts hs hs') :
    Inserts (x :: hs) (x :: hs')
  | insert {hs hs' : List (List UInt8)} {x : List UInt8} (hx : UnknownHeader x)
    (h : Inserts hs hs') : Inserts hs (x :: hs')

/-! ## What is read of a value -/

section Values

variable {w : Nat} {x : List UInt8}

theorem length_lt_of_append {x y : List UInt8} {n : Nat} (h : (x ++ y).length < n) :
    x.length < n ∧ y.length < n := by
  rw [List.length_append] at h
  constructor <;> omega

theorem highBit_of_le {b : UInt8} (h : 0x80 ≤ b) : highBit b = true := by
  have hall : ∀ n < 256, 0x80 ≤ UInt8.ofNat n → highBit (UInt8.ofNat n) = true := by
    decide +kernel
  have hb := hall b.toNat b.toNat_lt
  rw [UInt8.ofNat_toNat] at hb
  exact hb h

theorem TextValue.reads {P : UInt8 → Prop} (h : TextValue P x) :
    ∃ s, ∀ t, Reads w (textString w) x t (some s) := by
  cases h with
  | mk hx => exact reads_textString_bytes hx

/-- A text that is not empty, after a look at its first byte. -/
theorem TextValue.reads_peek {P : UInt8 → Prop} (h : TextValue P x) (hne : x ≠ [0]) {β : Type}
    {f : Option UInt8 → Scan UInt8 β} {g : Option Str → β}
    (hf : ∀ b, P b → f (some b) = textString w >>= fun s ↦ pure (g s)) :
    ∃ s, ∀ t, Reads w (peek >>= f) x t (g (some s)) := by
  obtain ⟨s, hs⟩ := h.reads (w := w)
  refine ⟨s, fun t ↦ ?_⟩
  have hread : Reads w (textString w >>= fun s ↦ pure (g s)) x t (g (some s)) :=
    (hs t).bind_left (Reads.pure _ _)
  cases h with
  | @mk x hx hhead =>
    cases x with
    | nil => exact absurd rfl hne
    | cons b x =>
      refine Reads.peek_bind ?_
      rw [hf b (hhead b rfl)]
      exact hread

/-- The NUL of an empty text is also a length. -/
theorem sized_zero : Sized [0] := Sized.mk (x := []) (ValueLength.short (b := 0) (by decide))

theorem Sized.peek {β : Type} {f : Option UInt8 → Scan UInt8 β} {t : List UInt8} {v : β}
    (h : Sized x) (hf : ∀ b < 0x20, Reads w (f (some b)) x t v) : Reads w (peek >>= f) x t v := by
  cases h with
  | mk h => exact h.peek_prefixed hf

/-- What is read of the bytes behind a length depends on these bytes alone. -/
theorem Sized.reads_inner {β : Type} {op : Scan UInt8 β} (h : Sized x) (hop : Safe w op)
    (hx : x.length < 2 ^ w) :
    ∃ len y v, x = len ++ y ∧ ValueLength len y.length ∧ y.length < 2 ^ w ∧
      ∀ t, Reads w (inner w y.length op) y t v := by
  cases h with
  | @mk len y h =>
    have hy := (length_lt_of_append hx).2
    obtain ⟨v, hv⟩ := hop.gives hy
    exact ⟨len, y, v, rfl, h, hy, Mms.reads_inner hv⟩

theorem EncodedString.reads (decodeText : Encoding → List UInt8 → Str) (h : EncodedString x)
    (hx : x.length < 2 ^ w) :
    ∃ s, ∀ t, Reads w (encodedString decodeText w) x t s := by
  have hsized (hx' : Sized x) : ∃ s, ∀ t, Reads w (encodedString decodeText w) x t s := by
    have hsafe : Safe w (charsetText decodeText w) := safe_charsetText
    obtain ⟨len, y, s, rfl, hlen, hy, hread⟩ := hx'.reads_inner hsafe hx
    refine ⟨some s, fun t ↦ hx'.peek fun b hb ↦ ?_⟩
    have hquote : b ≠ 0x7F := by
      rintro rfl
      exact absurd hb (by decide)
    dsimp only
    rw [if_neg fun h ↦ UInt8.not_le.mpr hb h.1, if_neg hquote]
    exact hlen.prefixed hy ((hread t).bind_left (Reads.pure _ _))
  cases h with
  | sized h => exact hsized h
  | text h =>
    by_cases hne : x = [0]
    · exact hsized (hne ▸ sized_zero)
    · have hread : ∃ s, ∀ t, Reads w (encodedString decodeText w) x t (id (some s)) := by
        refine h.reads_peek hne fun b hb ↦ ?_
        dsimp only
        split
        · exact (bind_pure _).symm
        · rename_i hnot
          rw [if_pos (not_not.mp fun hquote ↦ hnot ⟨hb, hquote⟩)]
          exact (bind_pure _).symm
      obtain ⟨s, hs⟩ := hread
      exact ⟨some s, hs⟩

theorem LongInteger.reads (h : LongInteger x) : ∃ n, ∀ t, Reads w (longInt w) x t (some n) := by
  cases h with
  | @mk b x hpos hle hx =>
    apply Exists.intro
    intro t
    refine Reads.bind (x := [b]) (reads_u8 _ _) ?_
    have hlen : ¬ (b = 0 ∨ 8 < b) := fun h ↦ h.elim hpos (UInt8.not_lt.mpr hle)
    dsimp only
    rw [if_neg hlen, ← hx]
    exact (reads_take x t).bind_left (Reads.pure _ _)

theorem IntegerValue.reads (h : IntegerValue x) :
    ∃ n, ∀ t, Reads w (integerValue w) x t (some n) := by
  cases h with
  | short h => exact ⟨_, reads_integerValue_short (highBit_of_le h)⟩
  | long h =>
    obtain ⟨n, hn⟩ := h.reads (w := w)
    refine ⟨n, fun t ↦ ?_⟩
    cases h with
    | @mk b x hpos hle hx =>
      have hhigh := (highBit_of_lt b (UInt8.lt_of_le_of_lt hle (by decide))).1
      refine Reads.peek_bind ?_
      dsimp only
      rw [hhigh, if_neg Bool.false_ne_true]
      exact hn t

theorem ClassValue.reads (h : ClassValue x) : ∃ s, ∀ t, Reads w (messageClassValue w) x t s := by
  cases h with
  | code h =>
    apply Exists.intro
    intro t
    apply Reads.peek_bind
    dsimp only
    rw [if_pos (highBit_of_le h)]
    exact (reads_advance [_] t).bind_left (Reads.pure _ _)
  | token h =>
    obtain ⟨s, hs⟩ := h.reads (w := w)
    refine ⟨some s, fun t ↦ ?_⟩
    cases h with
    | @mk x hx hhead =>
      cases x with
      | nil => exact Reads.peek_bind (hs t)
      | cons b x =>
        refine Reads.peek_bind ?_
        dsimp only
        rw [(highBit_of_lt b (hhead b rfl)).1, if_neg Bool.false_ne_true]
        exact hs t

theorem UnknownValue.reads (h : UnknownValue x) (hx : x.length < 2 ^ w) (t : List UInt8) :
    Reads w (skipValue w) x t (some ()) := by
  have hsized (hx' : Sized x) : Reads w (skipValue w) x t (some ()) := by
    refine hx'.peek fun b hb ↦ ?_
    have hlow : b ≤ 30 ∨ b = 0x1F := by
      rw [UInt8.le_iff_toNat_le, ← UInt8.toNat_inj]
      exact Nat.le_succ_iff.mp (Nat.le_of_lt_succ (UInt8.lt_iff_toNat_lt.mp hb))
    dsimp only
    rw [if_pos hlow]
    cases hx' with
    | @mk len y hlen =>
      refine hlen.prefixed (length_lt_of_append hx).2 ?_
      exact (reads_take y t).bind_left (Reads.pure _ _)
  cases h with
  | sized h => exact hsized h
  | @short b h =>
    have hlow : ¬ (b ≤ 30 ∨ b = 0x1F) := by
      rintro (hle | rfl)
      · exact absurd (UInt8.le_trans h hle) (by decide)
      · exact absurd h (by decide)
    refine Reads.peek_bind ?_
    dsimp only
    rw [if_neg hlow, if_pos (highBit_of_le h)]
    exact (reads_advance [b] t).bind_left (Reads.pure _ _)
  | text h =>
    by_cases hne : x = [0]
    · exact hsized (hne ▸ sized_zero)
    · have hread : ∃ s : Str, ∀ t, Reads w (skipValue w) x t ((some s).map fun _ ↦ ()) := by
        refine h.reads_peek (g := fun s ↦ s.map fun _ ↦ ()) hne fun b hb ↦ ?_
        have hlow : ¬ (b ≤ 30 ∨ b = 0x1F) := by
          rintro (hle | rfl)
          · exact absurd (UInt8.lt_of_lt_of_le hb.1 hle) (by decide)
          · exact absurd hb.1 (by decide)
        dsimp only
        rw [if_neg hlow, (highBit_of_lt b hb.2).1, if_neg Bool.false_ne_true]
      obtain ⟨s, hs⟩ := hread
      exact hs t

end Values

/-! ## What is read of a header -/

section Headers

variable {decodeText : Encoding → List UInt8 → Str} {w : Nat}

/-- The header takes the message from `msg` to `msg'`, whatever comes next. -/
def Turns (decodeText : Encoding → List UInt8 → Str) (w : Nat) (x : List UInt8)
    (msg msg' : MmsMessage) : Prop :=
  ∀ t, Reads w (decodeHeader decodeText w msg) x t (.cont msg')

/-- A field whose value is read by one operation. -/
theorem turns_field {β : Type} {op : Scan UInt8 β} {f : β → MmsMessage} {msg : MmsMessage}
    {code : UInt8} {x : List UInt8} {v : β} (hcode : 0x80 ≤ code)
    (hfield : decodeField decodeText w msg code = op >>= fun v ↦ pure (.cont (f v)))
    (hop : ∀ t, Reads w op x t v) : Turns decodeText w (code :: x) msg (f v) := by
  intro t p
  refine reads_field hcode ?_
  rw [hfield]
  exact reads_cont (hop t) f _

/-- A field whose value has its length before it. -/
theorem turns_sized {β : Type} {op : Scan UInt8 β} {f : β → MmsMessage} {msg : MmsMessage}
    {code : UInt8} {x : List UInt8} (hcode : 0x80 ≤ code)
    (hfield : decodeField decodeText w msg code = boundedValueLength w >>= fun len ↦
      inner w (len.getD 0) op >>= fun v ↦ pure (.cont (f v)))
    (hop : Safe w op) (hx : Sized x) (hfits : x.length < 2 ^ w) :
    ∃ msg', Turns decodeText w (code :: x) msg msg' := by
  obtain ⟨len, y, v, rfl, hlen, hy, hread⟩ := hx.reads_inner hop hfits
  refine ⟨f v, fun t p ↦ reads_field hcode ?_⟩
  rw [hfield]
  exact hlen.prefixed hy (reads_cont (hread t) f) _

theorem KnownHeader.turns {x : List UInt8} (h : KnownHeader x) (hx : x.length < 2 ^ w)
    (msg : MmsMessage) : ∃ msg', Turns decodeText w x msg msg' := by
  cases h with
  | octet h b =>
    simp only [List.mem_cons, List.not_mem_nil, or_false] at h
    rcases h with rfl | rfl | rfl | rfl <;>
      exact ⟨_, turns_field (by decide) rfl (reads_u8 b)⟩
  | text h hvalue =>
    obtain ⟨s, hs⟩ := hvalue.reads (w := w)
    simp only [List.mem_cons, List.not_mem_nil, or_false] at h
    rcases h with rfl | rfl | rfl <;> exact ⟨_, turns_field (by decide) rfl hs⟩
  | encoded h hvalue =>
    obtain ⟨s, hs⟩ := hvalue.reads decodeText (Nat.lt_of_succ_lt hx)
    simp only [List.mem_cons, List.not_mem_nil, or_false] at h
    rcases h with rfl | rfl | rfl | rfl | rfl <;> exact ⟨_, turns_field (by decide) rfl hs⟩
  | sized h hvalue =>
    simp only [List.mem_cons, List.not_mem_nil, or_false] at h
    rcases h with rfl | rfl
    · exact turns_sized (by decide) rfl safe_fromValue hvalue (Nat.lt_of_succ_lt hx)
    · exact turns_sized (by decide) rfl safe_expiryValue hvalue (Nat.lt_of_succ_lt hx)
  | date hvalue =>
    obtain ⟨n, hn⟩ := hvalue.reads (w := w)
    exact ⟨_, turns_field (by decide) rfl hn⟩
  | messageSize hvalue =>
    obtain ⟨n, hn⟩ := hvalue.reads (w := w)
    exact ⟨_, turns_field (by decide) rfl hn⟩
  | messageClass hvalue =>
    obtain ⟨s, hs⟩ := hvalue.reads (w := w)
    exact ⟨_, turns_field (by decide) rfl hs⟩

/-- Of a field without a branch of its own, the value is skipped. -/
theorem decodeField_unknown {code : UInt8} (h : code ∉ Field.interpreted) (msg : MmsMessage) :
    decodeField decodeText w msg code = skipValue w >>= fun x ↦
      match x with
      | none => pure (.done (.ok (msg, none)))
      | some () => pure (.cont msg) := by
  simp only [Field.interpreted, List.mem_cons, List.not_mem_nil, or_false, not_or] at h
  obtain ⟨h₁, h₂, h₃, h₄, h₅, h₆, h₇, h₈, h₉, h₁₀, h₁₁, h₁₂, h₁₃, h₁₄, h₁₅, h₁₆, h₁₇, h₁₈⟩ := h
  exact (if_neg h₁).trans <| (if_neg h₂).trans <| (if_neg h₃).trans <| (if_neg h₄).trans <|
    (if_neg h₅).trans <| (if_neg h₆).trans <| (if_neg h₇).trans <| (if_neg h₈).trans <|
    (if_neg h₉).trans <| (if_neg h₁₀).trans <| (if_neg h₁₁).trans <| (if_neg h₁₂).trans <|
    (if_neg h₁₃).trans <| (if_neg h₁₄).trans <| (if_neg h₁₅).trans <|
    (if_neg (not_or_intro h₁₆ h₁₇)).trans <| if_neg h₁₈

/-- An unknown header leaves the message as it is. -/
theorem UnknownHeader.turns {x : List UInt8} (h : UnknownHeader x) (hx : x.length < 2 ^ w)
    (msg : MmsMessage) : Turns decodeText w x msg msg := by
  cases h with
  | field hcode h hvalue =>
    intro t p
    refine reads_field hcode ?_
    rw [decodeField_unknown h]
    exact reads_skipValue_cont (hvalue.reads (Nat.lt_of_succ_lt hx) t) msg _
  | @named name x hname hvalue =>
    intro t
    obtain ⟨s, hs⟩ := hname.reads (w := w)
    have hread := Reads.bind (f := fun _ ↦ _) (hs (x ++ t))
      (reads_skipValue_cont (hvalue.reads (length_lt_of_append hx).2 t) msg)
    cases hname with
    | @mk name hnul hhead =>
      refine Reads.atEnd_bind (by simp) ?_
      cases name with
      | nil => exact Reads.peek_bind hread
      | cons b name =>
        refine Reads.peek_bind ?_
        dsimp only
        rw [if_pos (hhead b rfl)]
        exact hread

theorem KnownHeader.ne_nil {x : List UInt8} (h : KnownHeader x) : x ≠ [] := by
  cases h <;> exact List.cons_ne_nil _ _

theorem UnknownHeader.ne_nil {x : List UInt8} (h : UnknownHeader x) : x ≠ [] := by
  cases h with
  | field => exact List.cons_ne_nil _ _
  | named hname =>
    cases hname with
    | mk => simp

theorem Header.ne_nil {x : List UInt8} (h : Header x) : x ≠ [] := by
  cases h with
  | known h => exact h.ne_nil
  | unknown h => exact h.ne_nil

theorem Header.turns (decodeText : Encoding → List UInt8 → Str) {x : List UInt8} (h : Header x)
    (hx : x.length < 2 ^ w) (msg : MmsMessage) : ∃ msg', Turns decodeText w x msg msg' := by
  cases h with
  | known h => exact h.turns hx msg
  | unknown h => exact ⟨msg, h.turns hx msg⟩

/-! ## Whole headers -/

/-- All of the headers take the message from `msg` to `msg'`, whatever the loop reads then. -/
def TurnsAll (decodeText : Encoding → List UInt8 → Str) (w : Nat) (hs : List (List UInt8))
    (msg msg' : MmsMessage) : Prop :=
  ∀ y t v, HeaderRun decodeText w msg' y t v → HeaderRun decodeText w msg (hs.flatten ++ y) t v

theorem TurnsAll.nil (msg : MmsMessage) : TurnsAll decodeText w [] msg msg := fun _ _ _ h ↦ h

theorem TurnsAll.cons {x : List UInt8} {hs : List (List UInt8)} {msg msg' msg'' : MmsMessage}
    (hne : x ≠ []) (h : Turns decodeText w x msg msg') (hrest : TurnsAll decodeText w hs msg' msg'') :
    TurnsAll decodeText w (x :: hs) msg msg'' := by
  intro y t v hrun
  rw [List.flatten_cons, List.append_assoc]
  exact HeaderRun.cont hne (h _) (hrest y t v hrun)

theorem Inserts.length_le {hs hs' : List (List UInt8)} (h : Inserts hs hs') :
    hs.flatten.length ≤ hs'.flatten.length := by
  induction h with
  | nil => exact le_rfl
  | keep x h ih =>
    rw [List.flatten_cons, List.flatten_cons, List.length_append, List.length_append]
    omega
  | insert hx h ih =>
    rw [List.flatten_cons, List.length_append]
    omega

/-- With the unknown headers and without, the message is the same in the end. -/
theorem Inserts.turnsAll (decodeText : Encoding → List UInt8 → Str) {hs hs' : List (List UInt8)}
    (h : Inserts hs hs') (hheader : ∀ x ∈ hs, Header x) (hfits : hs'.flatten.length < 2 ^ w)
    (msg : MmsMessage) :
    ∃ msg', TurnsAll decodeText w hs msg msg' ∧ TurnsAll decodeText w hs' msg msg' := by
  induction h generalizing msg with
  | nil => exact ⟨msg, TurnsAll.nil msg, TurnsAll.nil msg⟩
  | @keep hs hs' x h ih =>
    obtain ⟨hlen, hrest⟩ := length_lt_of_append hfits
    have hx := hheader x List.mem_cons_self
    obtain ⟨msg', hturn⟩ := hx.turns decodeText hlen msg
    obtain ⟨msg'', hall, hall'⟩ :=
      ih (fun y hy ↦ hheader y (List.mem_cons_of_mem x hy)) hrest msg'
    exact ⟨msg'', hall.cons hx.ne_nil hturn, hall'.cons hx.ne_nil hturn⟩
  | @insert hs hs' x hx h ih =>
    obtain ⟨hlen, hrest⟩ := length_lt_of_append hfits
    obtain ⟨msg', hall, hall'⟩ := ih hheader hrest msg
    exact ⟨msg', hall, hall'.cons hx.ne_nil (hx.turns hlen msg)⟩

end Headers

/-! ## The content type and the body -/

section Body

variable {w : Nat}

/-- The parameters may be anything: the list ends with the first that cannot be read. -/
theorem MediaType.gives (decodeText : Encoding → List UInt8 → Str) {media params : List UInt8}
    (h : MediaType media)
    (hfits : (media ++ params).length < 2 ^ w) :
    ∃ name ps, Gives (typeAndParameters decodeText w) (media ++ params) (some (name, ps)) := by
  have hsafe : Safe w (parameters decodeText w) := safe_parameters
  cases h with
  | @code b h =>
    obtain ⟨hop, hvalid⟩ := (reads_advance [b] params).start_append hfits
    obtain ⟨ps, c, hparams, -⟩ := hsafe _ hvalid
    have hpeek : peek (⟨b :: params, 0⟩ : Reader) = .ok (some b, ⟨b :: params, 0⟩) := rfl
    refine ⟨contentTypeName (b &&& 0x7F), ps, c, (bind_ok hpeek).trans ?_⟩
    dsimp only
    rw [if_pos (highBit_of_le h)]
    exact (bind_ok hop).trans ((bind_ok hparams).trans rfl)
  | name h =>
    obtain ⟨name, hname⟩ := h.reads (w := w)
    obtain ⟨hop, hvalid⟩ := (hname params).start_append hfits
    obtain ⟨ps, c, hparams, -⟩ := hsafe _ hvalid
    refine ⟨name, ps, c, ?_⟩
    cases h with
    | @mk x hx hhead =>
      cases x with
      | nil =>
        have hpeek : peek (⟨0 :: params, 0⟩ : Reader) = .ok (some 0, ⟨0 :: params, 0⟩) := rfl
        refine (bind_ok hpeek).trans ?_
        exact (bind_ok hop).trans ((bind_ok hparams).trans rfl)
      | cons b x =>
        have hpeek : peek (⟨b :: x ++ [0] ++ params, 0⟩ : Reader) =
            .ok (some b, ⟨b :: x ++ [0] ++ params, 0⟩) := rfl
        refine (bind_ok hpeek).trans ?_
        dsimp only
        rw [(highBit_of_lt b (hhead b rfl)).1, if_neg Bool.false_ne_true]
        exact (bind_ok hop).trans ((bind_ok hparams).trans rfl)

theorem ContentTypeValue.reads (decodeText : Encoding → List UInt8 → Str) {ct : List UInt8}
    (h : ContentTypeValue ct) (hfits : ct.length < 2 ^ w) :
    ∃ name params, ∀ t, Reads w (contentType decodeText w) ct t (some (name, params)) := by
  cases h with
  | @code b h =>
    refine ⟨contentTypeName (b &&& 0x7F), [], fun t ↦ Reads.peek_bind ?_⟩
    dsimp only
    rw [if_pos (highBit_of_le h)]
    exact (reads_advance [b] t).bind_left (Reads.pure _ _)
  | name hne h =>
    have hread : ∃ s : Str, ∀ t, Reads w (contentType decodeText w) ct t ((some s).map (·, [])) := by
      refine h.reads_peek (g := fun s ↦ s.map (·, [])) hne fun b hb ↦ ?_
      dsimp only
      rw [(highBit_of_lt b hb.2).1, if_neg Bool.false_ne_true, if_pos hb.1]
    obtain ⟨s, hs⟩ := hread
    exact ⟨s, [], hs⟩
  | params hmedia hlen =>
    have hinner := (length_lt_of_append hfits).2
    obtain ⟨name, ps, hgives⟩ := hmedia.gives decodeText hinner
    exact ⟨name, ps, reads_contentType hlen hinner hgives⟩

/-- The parts are those of the body, wherever in the PDU it starts. -/
theorem bodyParts_eq (decodeText : Encoding → List UInt8 → Str) (msg : MmsMessage)
    {body : List UInt8} (h : body.length < 2 ^ w) :
    ∃ parts, ∀ c, bodyParts decodeText w msg body c = .ok (parts, c) := by
  unfold bodyParts
  split
  · have hsafe : Safe w (decodeMultipart decodeText w) := safe_decodeMultipart
    obtain ⟨parts, c', hparts⟩ := hsafe.gives h
    refine ⟨parts, fun c ↦ ?_⟩
    rw [nested, hparts]
  split
  · exact ⟨_, fun _ ↦ rfl⟩
  · exact ⟨_, fun _ ↦ rfl⟩

/-- What the tail makes of the message that the headers end with. -/
theorem Tail.decodes (decodeText : Encoding → List UInt8 → Str) {tail : List UInt8} (h : Tail tail)
    (hfits : tail.length < 2 ^ w) (msg : MmsMessage) :
    ∃ msg', ∀ hs, TurnsAll decodeText w hs {} msg → (hs.flatten ++ tail).length < 2 ^ w →
      decode decodeText w (hs.flatten ++ tail) = .ok (.ok msg') := by
  cases h with
  | nil =>
    refine ⟨msg, fun hs hall hlen ↦ ?_⟩
    have hend : HeaderRun decodeText w msg [] [] fun _ ↦ .ok (msg, none) :=
      fun p ↦ ReadsLoop.done (Reads.atEnd_bind_end (Reads.pure _ _) p)
    have hheader := ReadsLoop.here (hall [] [] _ hend 0) ⟨hs.flatten ++ [], 0⟩
      (valid_start hlen) rfl (by simp [rest])
    rw [decode, onBytes, decodeScan]
    exact congrArg (Except.map _) ((bind_ok hheader).trans rfl)
  | @body ct h body =>
    obtain ⟨hct, hbody⟩ := length_lt_of_append hfits
    obtain ⟨name, params, hread⟩ := h.reads decodeText (Nat.lt_of_succ_lt hct)
    obtain ⟨parts, hparts⟩ := bodyParts_eq decodeText
      { msg with contentType := some name, contentTypeParams := params } hbody
    apply Exists.intro
    intro hs hall hlen
    rw [← List.append_assoc] at hlen ⊢
    exact decode_of_headerRun (hall _ _ _ (headerRun_contentType (hread body) msg)) hparts hlen

/-- Unknown headers are skipped without a trace: put into a PDU of well-formed headers, any number
of them anywhere before the content type, they leave the message that is decoded as it was. -/
theorem decode_inserts (decodeText : Encoding → List UInt8 → Str) {w : Nat}
    {hs hs' : List (List UInt8)} {tail : List UInt8} (hheader : ∀ x ∈ hs, Header x)
    (htail : Tail tail) (h : Inserts hs hs') (hfits : (hs'.flatten ++ tail).length < 2 ^ w) :
    ∃ msg, decode decodeText w (hs'.flatten ++ tail) = .ok (.ok msg) ∧
      decode decodeText w (hs.flatten ++ tail) = .ok (.ok msg) := by
  obtain ⟨hheaders, htails⟩ := length_lt_of_append hfits
  obtain ⟨msg, hall, hall'⟩ := h.turnsAll decodeText hheader hheaders {}
  obtain ⟨msg', hdecode⟩ := htail.decodes decodeText htails msg
  refine ⟨msg', hdecode hs' hall' hfits, hdecode hs hall ?_⟩
  have hle := h.length_le
  rw [List.length_append] at hfits ⊢
  omega

/-- An M-Notification.ind from which a priority, a text of no standard and a header with a name are
skipped. -/
theorem decode_inserts_notification :
    ∃ msg,
      decode (fun _ ↦ fromUtf8Lossy) 32
        ([[0x8F, 0x81], [0x8C, 0x82], [0xA5, 0x03, 0x98, 0x00, 0x84], [0x98, 0x54, 0x31, 0x00],
          [0x58, 0x00, 0x61, 0x00], [0x8E, 0x02, 0x04, 0x00]].flatten ++ []) = .ok (.ok msg) ∧
      decode (fun _ ↦ fromUtf8Lossy) 32
        ([[0x8C, 0x82], [0x98, 0x54, 0x31, 0x00], [0x8E, 0x02, 0x04, 0x00]].flatten ++ []) =
          .ok (.ok msg) := by
  have htype : Header [0x8C, 0x82] := .known (.octet (by decide) _)
  have hid : TextValue (fun _ ↦ True) [0x54, 0x31, 0x00] :=
    .mk (x := [0x54, 0x31]) (by decide) fun _ _ ↦ trivial
  have htransaction : Header [0x98, 0x54, 0x31, 0x00] := .known (.text (by decide) hid)
  have hsize : Header [0x8E, 0x02, 0x04, 0x00] :=
    .known (.messageSize (.long (.mk (by decide) (by decide) rfl)))
  have hpriority : UnknownHeader [0x8F, 0x81] := .field (by decide) (by decide) (.short (by decide))
  have hsized : Sized [0x03, 0x98, 0x00, 0x84] :=
    @Sized.mk [0x03] [0x98, 0x00, 0x84] (.short (b := 3) (by decide))
  have hfield : UnknownHeader [0xA5, 0x03, 0x98, 0x00, 0x84] :=
    .field (by decide) (by decide) (.sized hsized)
  have hnamed : UnknownHeader [0x58, 0x00, 0x61, 0x00] :=
    @UnknownHeader.named [0x58, 0x00] _ (.mk (x := [0x58]) (by decide) (by simp))
      (.text (.mk (x := [0x61]) (by decide) (by simp)))
  refine decode_inserts _ ?_ .nil
    (.insert hpriority (.keep _ (.insert hfield (.keep _ (.insert hnamed (.keep _ .nil))))))
    (by decide)
  simp only [List.mem_cons, List.not_mem_nil, or_false]
  rintro x (rfl | rfl | rfl)
  · exact htype
  · exact htransaction
  · exact hsize

end Body

end Modem2Sip.Mms
