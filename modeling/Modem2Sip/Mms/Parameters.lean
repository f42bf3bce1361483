import Modem2Sip.Mms.Skipped

/-!
# The parameters of a content type

A content type with a length before it ends in a list of parameters.  WSP gives each of them
a value of its own kind, and the kind alone says where the value ends; so a reader that takes
one kind for another is out of step for all parameters that follow.  The kinds are written
down as a grammar over bytes that says nothing about the reader, and the reader is in step
with a parameter if it reads just its bytes, whatever comes next.
-/

namespace Modem2Sip.Mms

open Cursor Text Reader

/-! ## The grammar -/

/-- A number in one byte, or in as many as the first byte says. -/
inductive Number : List UInt8 → Prop
  | short {b : UInt8} (h : 0x80 ≤ b) : Number [b]
  | long {b : UInt8} {x : List UInt8} (hpos : b ≠ 0) (hle : b ≤ 30) (hx : x.length = b.toNat) :
    Number (b :: x)

/-- Text up to its NUL.  A first byte that could be taken for a number has a quote before it. -/
abbrev PlainText : List UInt8 → Prop := TextValue fun b ↦ 0x20 ≤ b ∧ b < 0x80

/-- A name, without its NUL, of a length that can be counted in 32 bits. -/
structure TokenText (x : List UInt8) : Prop where
  ne_nil : x ≠ []
  no_nul : 0 ∉ x
  head : ∀ b ∈ x.head?, 0x20 < b ∧ b < 0x7F
  short : x.length < 2 ^ 32

/-- The codes of the parameters whose value is not a text. -/
def notText : List UInt8 := [0x00, 0x01, 0x02, 0x03, 0x08, 0x09, 0x0E, 0x10, 0x11, 0x16]

/-- The values of the parameter with this code. -/
inductive ValueFor : UInt8 → List UInt8 → Prop
  | secure : ValueFor 0x10 []
  | q {groups : List UInt8} (hne : groups ≠ []) (hlen : groups.length ≤ 8)
    (hall : ∀ b ∈ groups, b < 0x80) : ValueFor 0x00 (continued groups)
  | charset {x : List UInt8} (h : Number x ∨ PlainText x) : ValueFor 0x01 x
  | number {code : UInt8} {x : List UInt8} (hcode : code ∈ ([0x02, 0x03, 0x0E, 0x16] : List UInt8))
    (h : Number x) : ValueFor code x
  | short {code b : UInt8} (hcode : code ∈ ([0x08, 0x11] : List UInt8)) (hb : 0x80 ≤ b) :
    ValueFor code [b]
  | wellKnown {b : UInt8} (hb : 0x80 ≤ b) : ValueFor 0x09 [b]
  | type {x : List UInt8} (h : PlainText x) : ValueFor 0x09 x
  | text {code : UInt8} {x : List UInt8} (hcode : code ∉ notText) (h : PlainText x) : ValueFor code x

inductive Param where
  | typed (code : UInt8) (value : List UInt8) (hcode : code < 0x80) (h : ValueFor code value)
  | untyped (token value : List UInt8) (htoken : TokenText token) (h : Number value ∨ PlainText value)

namespace Param

def bytes : Param → List UInt8
  | typed code value _ _ => (0x80 ||| code) :: value
  | untyped token value _ _ => token ++ [0] ++ value

def name : Param → Str
  | typed code _ _ _ => (paramName code).getD "x-unknown"
  | untyped token _ _ _ => fromUtf8Lossy token

def secure : Param := typed 0x10 [] (by decide) .secure

/-- The value is not a number in one byte. -/
def NotShort (value : List UInt8) : Prop := ∀ b ∈ value.head?, b < 0x80

/-- If the value is a number with its length before it, it has at most eight bytes. -/
def NotLonger (value : List UInt8) : Prop := ∀ b ∈ value.head?, b ≤ 30 → b ≤ 8

/-- No number in one byte where a text is read, and none of more than eight bytes where a
number is read. -/
def InStep : Param → Prop
  | typed code value _ _ =>
    (code ∈ ([0x03, 0x08, 0x09, 0x11] : List UInt8) → NotShort value) ∧
      (code ∈ ([0x01, 0x02, 0x0E, 0x16] : List UInt8) → NotLonger value)
  | untyped _ value _ _ => NotShort value

end Param

/-! ## Parameters that are read in step -/

section

variable {decodeText : Encoding → List UInt8 → Str} {w : Nat}

theorem PlainText.encodedString {x : List UInt8} (h : PlainText x) : EncodedString x := by
  cases h with
  | mk hx hhead => exact .text (.mk hx fun b hb ↦ (hhead b hb).1)

/-- A length that no number can have. -/
theorem reads_integerValue_none {b : UInt8} (hb : b < 0x80) (hlen : b = 0 ∨ 8 < b)
    (t : List UInt8) : Reads w (integerValue w) [b] t none := by
  refine Reads.peek_bind ?_
  dsimp only
  rw [(highBit_of_lt b hb).1, if_neg Bool.false_ne_true]
  refine (reads_u8 b t).bind_left ?_
  dsimp only
  rw [if_pos hlen]
  exact Reads.pure _ _

theorem Number.integerValue {x : List UInt8} (h : Number x) (hle : Param.NotLonger x) :
    IntegerValue x := by
  cases h with
  | short h => exact .short h
  | long hpos h30 hx => exact .long (.mk hpos (hle _ rfl h30) hx)

theorem Number.encodedString {x : List UInt8} (h : Number x) (hshort : Param.NotShort x) :
    EncodedString x := by
  cases h with
  | short h => exact absurd (hshort _ rfl) (UInt8.not_lt.mpr h)
  | @long b x hpos hle hx =>
      have hlength := ValueLength.short hle
      rw [← hx] at hlength
      exact .sized (.mk hlength)

theorem parameterValue_of_notText {code : UInt8}
    (hcode : code ∉ ([0x00, 0x01, 0x02, 0x0E, 0x10, 0x16] : List UInt8)) :
    parameterValue decodeText w code =
      (encodedString decodeText w >>= fun s ↦ pure (s.getD [])) := by
  simp only [List.mem_cons, List.not_mem_nil, or_false, not_or] at hcode
  obtain ⟨h₀, h₁, h₂, hE, h10, h16⟩ := hcode
  rw [parameterValue, if_neg h10, if_neg h₀, if_neg (by rintro (h | h | h) <;> contradiction),
    if_neg h₁]

theorem EncodedString.reads_value {x : List UInt8} (h : EncodedString x) {code : UInt8}
    (hcode : code ∉ ([0x00, 0x01, 0x02, 0x0E, 0x10, 0x16] : List UInt8)) (hx : x.length < 2 ^ w) :
    ∃ s, ∀ t, Reads w (parameterValue decodeText w code) x t s := by
  obtain ⟨s, hs⟩ := h.reads decodeText hx
  refine ⟨s.getD [], fun t ↦ ?_⟩
  rw [parameterValue_of_notText hcode]
  exact (hs t).bind_left (Reads.pure _ _)

/-- The value of a charset, once its first byte was looked at. -/
def charsetValue (w : Nat) : Option UInt8 → Scan UInt8 Str
  | some p =>
    if highBit p ∨ p < 0x20 then
      integerValue w >>= fun v ↦ pure ((v.map fun v ↦ (charsetFor (v % 2 ^ 32)).name).getD [])
    else textString w >>= fun s ↦ pure (s.getD [])
  | none => textString w >>= fun s ↦ pure (s.getD [])

theorem parameterValue_charset :
    parameterValue decodeText w 0x01 = (peek >>= charsetValue w) := by
  rw [parameterValue, if_neg (by decide), if_neg (by decide), if_neg (by decide), if_pos rfl]
  rfl

/-- A charset is a number or a text. -/
theorem reads_charset {x : List UInt8} (h : Number x ∨ PlainText x) (hle : Param.NotLonger x) :
    ∃ s, ∀ t, Reads w (parameterValue decodeText w 0x01) x t s := by
  rw [parameterValue_charset]
  rcases h with h | h
  · obtain ⟨n, hn⟩ := (h.integerValue hle).reads (w := w)
    refine ⟨(charsetFor (n % 2 ^ 32)).name, fun t ↦ ?_⟩
    have hfirst : ∃ b y, x = b :: y ∧ (highBit b = true ∨ b < 0x20) := by
      cases h with
      | short hb => exact ⟨_, _, rfl, .inl (highBit_of_le hb)⟩
      | long hpos h30 hx => exact ⟨_, _, rfl, .inr (UInt8.lt_of_le_of_lt h30 (by decide))⟩
    obtain ⟨b, y, rfl, hb⟩ := hfirst
    refine Reads.peek_bind ?_
    rw [charsetValue, if_pos hb]
    exact (hn t).bind_left (Reads.pure _ _)
  · by_cases hempty : x = [0]
    · subst hempty
      refine ⟨[], fun t ↦ Reads.peek_bind ?_⟩
      rw [charsetValue, if_pos (.inr (by decide))]
      exact (reads_integerValue_none (by decide) (.inl rfl) t).bind_left (Reads.pure _ _)
    · have htext (b : UInt8) (hb : 0x20 ≤ b ∧ b < 0x80) :
          charsetValue w (some b) = textString w >>= fun s ↦ pure (s.getD []) := by
        have hno : ¬ (highBit b = true ∨ b < 0x20) := by
          rw [(highBit_of_lt b hb.2).1]
          rintro (hb' | hb')
          · cases hb'
          · exact UInt8.not_lt.mpr hb.1 hb'
        rw [charsetValue, if_neg hno]
      obtain ⟨s, hs⟩ := h.reads_peek hempty htext
      exact ⟨_, hs⟩

/-- Every kind of value is read up to its end if the reader takes it for what it is. -/
theorem ValueFor.reads (decodeText : Encoding → List UInt8 → Str) {code : UInt8} {x : List UInt8} (h : ValueFor code x)
    (hshort : code ∈ ([0x03, 0x08, 0x09, 0x11] : List UInt8) → Param.NotShort x)
    (hle : code ∈ ([0x01, 0x02, 0x0E, 0x16] : List UInt8) → Param.NotLonger x)
    (hx : x.length < 2 ^ w) : ∃ s, ∀ t, Reads w (parameterValue decodeText w code) x t s := by
  cases h with
  | secure => exact ⟨[], fun t ↦ Reads.pure _ t⟩
  | @q groups hne hlen hall =>
      refine ⟨dec (groupsValue 0 groups), fun t ↦ ?_⟩
      exact (reads_uintvarFrom 8 0 hne hall hlen t).bind_left (Reads.pure _ _)
  | charset h => exact reads_charset h (hle (by decide))
  | number hcode h =>
      by_cases hthree : code = 0x03
      · subst hthree
        exact (h.encodedString (hshort (by decide))).reads_value (by decide) hx
      · have hnumber : code = 0x02 ∨ code = 0x0E ∨ code = 0x16 := by
          simpa [hthree] using hcode
        have hno : code ≠ 0x10 ∧ code ≠ 0x00 := by
          rcases hnumber with rfl | rfl | rfl <;> decide
        have hin : code ∈ ([0x01, 0x02, 0x0E, 0x16] : List UInt8) := by
          rcases hnumber with rfl | rfl | rfl <;> decide
        obtain ⟨n, hn⟩ := (h.integerValue (hle hin)).reads (w := w)
        refine ⟨dec n, fun t ↦ ?_⟩
        rw [parameterValue, if_neg hno.1, if_neg hno.2, if_pos hnumber]
        exact (hn t).bind_left (Reads.pure _ _)
  | short hcode hb =>
      have hsub : ([0x08, 0x11] : List UInt8) ⊆ [0x03, 0x08, 0x09, 0x11] := by decide
      exact absurd (hshort (hsub hcode) _ rfl) (UInt8.not_lt.mpr hb)
  | wellKnown hb => exact absurd (hshort (by decide) _ rfl) (UInt8.not_lt.mpr hb)
  | type h => exact h.encodedString.reads_value (by decide) hx
  | text hcode h =>
      have hsub : ([0x00, 0x01, 0x02, 0x0E, 0x10, 0x16] : List UInt8) ⊆ notText := by decide
      exact h.encodedString.reads_value (fun hmem ↦ hcode (hsub hmem)) hx

theorem reads_typed {code : UInt8} (hcode : code < 0x80) {x t : List UInt8} {s : Str}
    (h : Reads w (parameterValue decodeText w code) x t s) :
    Reads w (parameter decodeText w) ((0x80 ||| code) :: x) t
      (some ((paramName code).getD "x-unknown", s)) := by
  have hbit := highBit_of_lt code hcode
  rw [UInt8.or_comm] at hbit
  refine Reads.bind (x := [0x80 ||| code]) (reads_u8 _ _) ?_
  dsimp only
  rw [if_pos hbit.2.1, hbit.2.2.2]
  exact h.bind_left (Reads.pure _ _)

theorem TokenText.reads {token : List UInt8} (h : TokenText token) (t : List UInt8) :
    Reads w (textString w) (token ++ [0]) t (some (fromUtf8Lossy token)) := by
  have hquote : token.head? ≠ some 0x7F := by
    intro hhead
    exact absurd (h.head 0x7F hhead).2 (by decide)
  have hskip : Reads w (skipQuote w) [] (token ++ [0] ++ t) () :=
    reads_skipQuote_nil (head?_append_nul hquote (by decide) t)
  exact reads_textString_skip h.no_nul hskip

/-- The value behind a name. -/
def namedValue (decodeText : Encoding → List UInt8 → Str) (w : Nat) :
    Option Str → Scan UInt8 (Option (Str × Str))
  | none => pure none
  | some name => encodedString decodeText w >>= fun s ↦ pure (some (name, s.getD []))

theorem reads_untyped {token : List UInt8} (htoken : TokenText token) {x t : List UInt8}
    {s : Option Str} (h : Reads w (encodedString decodeText w) x t s) :
    Reads w (parameter decodeText w) (token ++ [0] ++ x) t
      (some (fromUtf8Lossy token, s.getD [])) := by
  intro p c hc hp hrest
  obtain ⟨b, token', rfl⟩ := List.exists_cons_of_ne_nil htoken.ne_nil
  have hlow : b < 0x80 := UInt8.lt_trans (htoken.head b rfl).2 (by decide)
  have hu8 : u8 w c = .ok (some b, c.skip 1) :=
    reads_u8 b (token' ++ [0] ++ x ++ t) c.pos c hc rfl hrest
  have hback : (stepBack : Scan UInt8 Unit) (c.skip 1) = .ok ((), c) :=
    if_neg (Nat.succ_ne_zero _)
  -- The byte that was read is given back, and the name is read with it.
  have hread : Reads w (textString w >>= namedValue decodeText w) (b :: token' ++ [0] ++ x) t
      (some (fromUtf8Lossy (b :: token'), s.getD [])) :=
    Reads.bind (htoken.reads _) (h.bind_left (Reads.pure _ _))
  refine (bind_ok hu8).trans ?_
  dsimp only
  rw [(highBit_of_lt b hlow).1, if_neg Bool.false_ne_true]
  exact (bind_ok hback).trans (hread p c hc hp hrest)

/-! ## The whole list -/

theorem Param.bytes_ne_nil (p : Param) : p.bytes ≠ [] := by
  cases p with
  | typed => exact List.cons_ne_nil _ _
  | untyped token value =>
      rw [bytes]
      simp

/-- The reader is in step with a parameter that it takes for what it is. -/
theorem Param.InStep.written (decodeText : Encoding → List UInt8 → Str) {p : Param}
    (h : p.InStep) (hfits : p.bytes.length < 2 ^ w) :
    ∃ v, Written decodeText w p.bytes (p.name, v) := by
  cases p with
  | typed code value hcode hvalue =>
      have hlen : value.length < 2 ^ w := (Nat.le_succ _).trans_lt hfits
      obtain ⟨s, hs⟩ := hvalue.reads decodeText h.1 h.2 hlen
      exact ⟨s, Param.bytes_ne_nil _, fun t ↦ reads_typed hcode (hs t)⟩
  | untyped token value htoken hvalue =>
      have hencoded : EncodedString value := by
        rcases hvalue with hvalue | hvalue
        · exact hvalue.encodedString h
        · exact hvalue.encodedString
      obtain ⟨s, hs⟩ := hencoded.reads decodeText (length_lt_of_append hfits).2
      exact ⟨s.getD [], Param.bytes_ne_nil _, fun t ↦ reads_untyped htoken (hs t)⟩

/-- Parameters in step give one entry each, in order. -/
theorem exists_items (decodeText : Encoding → List UInt8 → Str) {ps : List Param} (h : ∀ p ∈ ps, p.InStep)
    (hfits : (ps.flatMap Param.bytes).length < 2 ^ w) :
    ∃ items : List (List UInt8 × (Str × Str)), (∀ i ∈ items, Written decodeText w i.1 i.2) ∧
      items.flatMap (·.1) = ps.flatMap Param.bytes ∧ items.map (·.2.1) = ps.map Param.name := by
  induction ps with
  | nil => exact ⟨[], by simp, rfl, rfl⟩
  | cons p ps ih =>
      rw [List.flatMap_cons] at hfits
      obtain ⟨hp, hps⟩ := length_lt_of_append hfits
      obtain ⟨v, hv⟩ := (h p List.mem_cons_self).written decodeText hp
      obtain ⟨items, hitems, hbytes, hnames⟩ := ih (fun q hq ↦ h q (List.mem_cons_of_mem p hq)) hps
      refine ⟨(p.bytes, (p.name, v)) :: items, ?_, ?_, ?_⟩
      · intro i hi
        rcases List.mem_cons.mp hi with rfl | hi
        · exact hv
        · exact hitems i hi
      · rw [List.flatMap_cons, List.flatMap_cons, hbytes]
      · rw [List.map_cons, List.map_cons, hnames]

/-- The type, and what is read of the parameters behind it. -/
theorem MediaType.reads {media params : List UInt8} (h : MediaType media) {v : Params}
    (hread : Reads w (parameters decodeText w) params [] v) :
    ∃ name, Reads w (typeAndParameters decodeText w) (media ++ params) [] (some (name, v)) := by
  cases h with
  | @code b h =>
      refine ⟨contentTypeName (b &&& 0x7F), Reads.peek_bind ?_⟩
      dsimp only
      rw [if_pos (highBit_of_le h)]
      exact Reads.bind (reads_advance [b] _) (hread.bind_left (Reads.pure _ _))
  | name h =>
      obtain ⟨name, hname⟩ := h.reads (w := w)
      refine ⟨name, ?_⟩
      have hfirst : ∃ b x, media = b :: x ∧ b < 0x80 := by
        cases h with
        | @mk x hx hhead =>
            cases x with
            | nil => exact ⟨0, [], rfl, by decide⟩
            | cons b x => exact ⟨b, x ++ [0], rfl, hhead b rfl⟩
      obtain ⟨b, x, rfl, hb⟩ := hfirst
      refine Reads.peek_bind ?_
      dsimp only
      rw [(highBit_of_lt b hb).1, if_neg Bool.false_ne_true]
      exact Reads.bind (hname _) (hread.bind_left (Reads.pure _ _))

/-- A content type with a length before it, and what is to be read of its parameters. -/
theorem reads_names {len media : List UInt8} {ps : List Param} (decodeText : Encoding → List UInt8 → Str)
    (hmedia : MediaType media) (hlen : ValueLength len (media ++ ps.flatMap Param.bytes).length)
    (hfits : (media ++ ps.flatMap Param.bytes).length < 2 ^ w) (h : ∀ p ∈ ps, p.InStep)
    (t : List UInt8) :
    ∃ name params, Reads w (contentType decodeText w)
        (len ++ (media ++ ps.flatMap Param.bytes)) t (some (name, params)) ∧
      params.map Prod.fst = ps.map Param.name := by
  obtain ⟨items, hitems, hbytes, hnames⟩ := exists_items decodeText h (length_lt_of_append hfits).2
  have hread : Reads w (parameters decodeText w) (ps.flatMap Param.bytes) [] (items.map (·.2)) := by
    rw [← hbytes]
    exact reads_parameters hitems
  obtain ⟨name, hname⟩ := hmedia.reads hread
  refine ⟨name, items.map (·.2), reads_contentType hlen hfits (hname.gives hfits) t, ?_⟩
  rw [List.map_map, ← hnames]
  rfl

/-! ## Parameters that are not -/

/-- Text without a NUL goes on to the end of the buffer. -/
theorem textLoop_end {x : List UInt8} (hx : 0 ∉ x) {c : Reader} (hc : Valid w c)
    (hrest : c.rest = x) {start : Nat} {n : Nat} (hn : x.length < n) :
    loop (textByte w start) n () c = .ok (none, c.skip x.length) := by
  induction x generalizing c n with
  | nil =>
      obtain ⟨n, rfl⟩ := Nat.exists_eq_succ_of_ne_zero (Nat.ne_zero_of_lt hn)
      have hpeek : peek c = .ok (none, c) := by
        rw [peek, ← List.head?_drop]
        exact congrArg (fun x ↦ Except.ok (List.head? x, c)) hrest
      have hbyte : textByte w start () c = .ok (.done none, c) := (bind_ok hpeek).trans rfl
      exact (bind_ok hbyte).trans rfl
  | cons b x ih =>
      obtain ⟨n, rfl⟩ := Nat.exists_eq_succ_of_ne_zero (Nat.ne_zero_of_lt hn)
      have hb : b ≠ 0 := fun h ↦ hx (h ▸ List.mem_cons_self)
      have hrest' : c.rest = [b] ++ x := hrest
      have hlt : c.pos + 1 ≤ c.data.length := pos_add_length_le (x := [b]) hc hrest'
      have hpeek : peek c = .ok (some b, c) := by
        rw [peek, getElem?_pos hrest]
      have hadvance : advance w 1 c = .ok ((), c.skip 1) := if_pos (hlt.trans_lt hc.fits)
      have hbyte : textByte w start () c = .ok (.cont (), c.skip 1) := by
        refine (bind_ok hpeek).trans ?_
        dsimp only
        rw [if_neg hb]
        exact bind_ok hadvance
      have hskip : c.skip 1 = c.skip [b].length := rfl
      refine (bind_ok hbyte).trans ?_
      refine (ih (fun h ↦ hx (List.mem_cons_of_mem _ h)) (hskip ▸ hc.skip (x := [b]) hrest')
        (hskip ▸ rest_skip_append (x := [b]) hrest') (Nat.lt_of_succ_lt_succ hn)).trans ?_
      rw [skip, skip, skip, List.length_cons, Nat.add_assoc, Nat.add_comm 1]

theorem reads_textString_end {x : List UInt8} (hx : 0 ∉ x) (hne : x ≠ [])
    (hquote : x.head? ≠ some 0x7F) :
    Reads w (textString w) x [] (some (fromUtf8Lossy x)) := by
  intro p c hc hp hrest
  rw [List.append_nil] at hrest
  have hquoted : skipQuote w c = .ok ((), c) := reads_skipQuote_nil hquote p c hc hp hrest
  have hlength : c.pos + x.length = c.data.length := by
    have h := length_rest (c := c)
    rw [hrest, remaining] at h
    have hpos := hc.pos_le
    omega
  have hloop : loopHere (textByte w c.pos) () c = .ok (none, c.skip x.length) := by
    refine textLoop_end hx hc hrest ?_
    rw [← length_rest, hrest]
    exact Nat.lt_succ_self _
  have hpos := List.length_pos_of_ne_nil hne
  have hall : (c.data.take c.data.length).drop c.pos = x := by
    rw [List.take_length]
    exact hrest
  have hsub (c' : Reader) : sub c.data c.pos c.data.length c' = .ok (x, c') := by
    rw [sub, if_pos ⟨by omega, Nat.le_refl _⟩, hall]
  have hend : ({ c.skip x.length with pos := c.data.length } : Reader) = c.skip x.length := by
    rw [skip, hlength]
  refine (bind_ok hquoted).trans ?_
  refine (get_bind _ c).trans ?_
  refine (bind_ok hloop).trans ?_
  refine (get_bind _ _).trans ?_
  have hlt : c.pos < (c.skip x.length).data.length := by
    change c.pos < c.data.length
    omega
  rw [if_pos hlt]
  refine (bind_ok (hsub _)).trans ?_
  exact congrArg (fun c' ↦ Except.ok (some (fromUtf8Lossy x), c')) hend

/-- A number in one byte is read as a text, and the next parameter with it. -/
theorem reads_encodedString_short (decodeText : Encoding → List UInt8 → Str) {b : UInt8}
    (hb : 0x80 ≤ b) : ∃ s, Reads w (encodedString decodeText w) ([b] ++ Param.secure.bytes) [] s := by
  have hne : b ≠ 0 ∧ b ≠ 0x7F ∧ 0x20 ≤ b := by
    refine ⟨?_, ?_, UInt8.le_trans (by decide) hb⟩
    · rintro rfl
      exact absurd hb (by decide)
    · rintro rfl
      exact absurd hb (by decide)
  have hbytes : Param.secure.bytes = [0x90] := by decide
  rw [hbytes]
  refine ⟨some (fromUtf8Lossy [b, 0x90]), Reads.peek_bind ?_⟩
  dsimp only
  rw [if_pos ⟨hne.2.2, hne.2.1⟩]
  refine reads_textString_end ?_ (List.cons_ne_nil _ _) ?_
  · change 0 ∉ [b, 0x90]
    rw [List.mem_cons, List.mem_singleton, not_or]
    exact ⟨hne.1.symm, by decide⟩
  · intro h
    exact hne.2.1 (Option.some.inj h)

/-- A number in one byte where a text is read. -/
def Param.Misread : Param → Prop
  | typed code value _ _ =>
    code ∈ ([0x03, 0x08, 0x09, 0x11] : List UInt8) ∧ ∃ b, value = [b] ∧ 0x80 ≤ b
  | untyped _ value _ _ => ∃ b, value = [b] ∧ 0x80 ≤ b

/-- A number of more than eight bytes. -/
def Param.TooLong : Param → Prop
  | typed code value _ _ =>
    code ∈ ([0x01, 0x02, 0x0E, 0x16] : List UInt8) ∧
      ∃ b x, value = b :: x ∧ x.length = b.toNat ∧ 8 < b ∧ b ≤ 30
  | untyped _ _ _ _ => False

theorem eq_short_of_not {x : List UInt8} (h : Number x ∨ PlainText x) (hno : ¬ Param.NotShort x) :
    ∃ b, x = [b] ∧ 0x80 ≤ b := by
  rcases h with h | h
  · cases h with
    | short hb => exact ⟨_, rfl, hb⟩
    | long hpos hle hx =>
        refine absurd ?_ hno
        rintro b ⟨⟩
        exact UInt8.lt_of_le_of_lt hle (by decide)
  · refine absurd ?_ hno
    cases h with
    | @mk x hx hhead =>
        cases x with
        | nil =>
            rintro b ⟨⟩
            decide
        | cons b x =>
            rintro b' ⟨⟩
            exact (hhead b rfl).2

theorem eq_long_of_not {x : List UInt8} (h : Number x ∨ PlainText x) (hno : ¬ Param.NotLonger x) :
    ∃ b y, x = b :: y ∧ y.length = b.toNat ∧ 8 < b ∧ b ≤ 30 := by
  rcases h with h | h
  · cases h with
    | short hb =>
        refine absurd ?_ hno
        rintro b ⟨⟩ hle
        exact absurd (UInt8.le_trans hb hle) (by decide)
    | @long b y hpos hle hy =>
        refine ⟨b, y, rfl, hy, ?_, hle⟩
        by_contra hnot
        refine hno ?_
        rintro b' ⟨⟩ -
        exact UInt8.not_lt.mp hnot
  · refine absurd ?_ hno
    cases h with
    | @mk x hx hhead =>
        cases x with
        | nil =>
            rintro b ⟨⟩ -
            decide
        | cons b x =>
            rintro b' ⟨⟩ hle
            exact absurd (UInt8.le_trans (hhead b rfl).1 hle) (by decide)

/-- Where the reader can be out of step, the value is a number or a text. -/
theorem ValueFor.number_or_text {code : UInt8} {x : List UInt8} (h : ValueFor code x)
    (hcode : code ∈ ([0x01, 0x02, 0x03, 0x08, 0x09, 0x0E, 0x11, 0x16] : List UInt8)) :
    Number x ∨ PlainText x := by
  cases h with
  | secure => exact absurd hcode (by decide)
  | q => exact absurd hcode (by decide)
  | charset h => exact h
  | number _ h => exact .inl h
  | short _ hb => exact .inl (.short hb)
  | wellKnown hb => exact .inl (.short hb)
  | type h => exact .inr h
  | text _ h => exact .inr h

theorem Param.misread_or_tooLong {p : Param} (h : ¬ p.InStep) : p.Misread ∨ p.TooLong := by
  cases p with
  | typed code value hcode hvalue =>
      rcases not_and_or.mp h with h | h
      · obtain ⟨hin, hno⟩ := Classical.not_imp.mp h
        have hsub : ([0x03, 0x08, 0x09, 0x11] : List UInt8) ⊆
            [0x01, 0x02, 0x03, 0x08, 0x09, 0x0E, 0x11, 0x16] := by decide
        exact .inl ⟨hin, eq_short_of_not (hvalue.number_or_text (hsub hin)) hno⟩
      · obtain ⟨hin, hno⟩ := Classical.not_imp.mp h
        have hsub : ([0x01, 0x02, 0x0E, 0x16] : List UInt8) ⊆
            [0x01, 0x02, 0x03, 0x08, 0x09, 0x0E, 0x11, 0x16] := by decide
        exact .inr ⟨hin, eq_long_of_not (hvalue.number_or_text (hsub hin)) hno⟩
  | untyped token value htoken hvalue => exact .inl (eq_short_of_not hvalue h)

/-- What was misread has the parameter after it as a part of its value. -/
theorem Param.Misread.reads (decodeText : Encoding → List UInt8 → Str) {p : Param} (h : p.Misread) :
    ∃ v, Reads w (parameter decodeText w) (p.bytes ++ Param.secure.bytes) [] (some (p.name, v)) := by
  cases p with
  | typed code value hcode hvalue =>
      obtain ⟨hin, b, rfl, hb⟩ := h
      obtain ⟨s, hs⟩ := reads_encodedString_short (w := w) decodeText hb
      refine ⟨s.getD [], reads_typed hcode ?_⟩
      rw [parameterValue_of_notText]
      · exact hs.bind_left (Reads.pure _ _)
      · intro hmem
        simp only [List.mem_cons, List.not_mem_nil, or_false] at hin
        rcases hin with rfl | rfl | rfl | rfl <;> exact absurd hmem (by decide)
  | untyped token value htoken hvalue =>
      obtain ⟨b, rfl, hb⟩ := h
      obtain ⟨s, hs⟩ := reads_encodedString_short (w := w) decodeText hb
      refine ⟨s.getD [], ?_⟩
      have hread := reads_untyped htoken hs
      rwa [← List.append_assoc] at hread

/-- A buffer that is one parameter gives one entry. -/
theorem reads_parameters_single {x : List UInt8} (hne : x ≠ []) {e : Str × Str}
    (h : Reads w (parameter decodeText w) x [] (some e)) :
    Reads w (parameters decodeText w) x [] [e] := by
  intro p
  have hbody : Reads w (nextParameter decodeText w []) x [] (.cont [e]) := by
    refine Reads.atEnd_bind hne ?_
    exact h.bind_left (Reads.pure _ _)
  have hend : ReadsLoop w (p + x.length) (nextParameter decodeText w) [e] [] [] [e] :=
    ReadsLoop.done (Reads.atEnd_bind_end (Reads.pure _ _) _)
  refine ReadsLoop.here ?_
  have hloop := ReadsLoop.cont hne (hbody p) hend
  rwa [List.append_nil] at hloop

/-- Of two bytes, one at least is text. -/
theorem wp_textString_two {c : Reader} (hc : Valid w c) (htwo : 2 ≤ c.remaining) :
    Wp (textString w) c fun s _ ↦ ∃ text, s = some text := by
  have hlt : c.pos + 2 ≤ c.data.length := hc.pos_add_le htwo
  have hquote : Wp (skipQuote w) c fun _ c' ↦ Ahead c c' ∧ c'.pos ≤ c.pos + 1 := by
    refine (wp_peek ?_).bind
    split
    · exact wp_advance (by have := hc.fits; omega) ⟨ahead_skip (by omega), Nat.le_refl _⟩
    · exact wp_pure.mpr ⟨hc.ahead, Nat.le_succ _⟩
  refine hquote.bind_of fun _ c₁ h₁ ↦ ?_
  refine (wp_get ?_).bind
  refine (wp_textLoop (h₁.1.valid hc) le_rfl).bind_of fun text c₂ h₂ ↦ ?_
  cases text with
  | some text => exact wp_pure.mpr ⟨text, rfl⟩
  | none =>
      refine (wp_get ?_).bind
      have hdata : c₂.data = c.data := h₂.1.data_eq.trans h₁.1.data_eq
      have hstart : c₁.pos < c₂.data.length := by
        rw [hdata]
        exact h₁.2.trans_lt hlt
      rw [if_pos hstart]
      refine (wp_sub hstart.le le_rfl ?_).bind
      refine (wp_seek ?_).bind
      exact wp_pure.mpr ⟨_, rfl⟩

theorem wp_parameter_two {c : Reader} (hc : Valid w c) (htwo : 2 ≤ c.remaining) :
    Wp (parameter decodeText w) c fun v c' ↦ Ahead c c' ∧ ∃ e, v = some e := by
  have hlt : c.pos + 2 ≤ c.data.length := hc.pos_add_le htwo
  have hskip : Ahead c (c.skip 1) := ahead_skip (by omega)
  have hvalue : ∀ code, Wp (parameterValue decodeText w code) (c.skip 1) fun _ c' ↦ Ahead c c' :=
    fun code ↦ (safe_parameterValue code _ (hskip.valid hc)).mono fun _ _ h ↦ hskip.trans h
  refine (wp_u8 hc (fun hle ↦ by omega) fun b _ ↦ ?_).bind
  dsimp only
  split
  · exact (hvalue _).bind_of fun s c' h ↦ wp_pure.mpr ⟨h, _, rfl⟩
  · refine (wp_stepBack_skip ?_).bind
    refine ((safe_textString c hc).and (wp_textString_two hc htwo)).bind_of ?_
    rintro s c' ⟨hc', name, rfl⟩
    refine (safe_encodedString c' (hc'.valid hc)).bind_of fun s c'' hc'' ↦ ?_
    exact wp_pure.mpr ⟨hc'.trans hc'', _, rfl⟩

/-- An iteration adds one entry at most, and with two bytes left it adds one. -/
theorem wp_nextParameter {c : Reader} (hc : Valid w c) (params : Params) :
    Wp (nextParameter decodeText w params) c fun x _ ↦
      (x = .done params ∨ ∃ e, x = .cont (params ++ [e])) ∧
        (2 ≤ c.remaining → ∃ e, x = .cont (params ++ [e])) := by
  refine (wp_atEnd ?_).bind
  by_cases hend : c.data.length ≤ c.pos
  · rw [decide_eq_true hend]
    refine wp_pure.mpr ⟨.inl rfl, fun htwo ↦ ?_⟩
    have := hc.pos_add_le htwo
    omega
  · rw [decide_eq_false hend]
    by_cases htwo : 2 ≤ c.remaining
    · refine (wp_parameter_two hc htwo).bind_of ?_
      rintro v c' ⟨-, e, rfl⟩
      exact wp_pure.mpr ⟨.inr ⟨e, rfl⟩, fun _ ↦ ⟨e, rfl⟩⟩
    · refine (safe_parameter c hc).bind_of fun v c' _ ↦ ?_
      cases v with
      | none => exact wp_pure.mpr ⟨.inl rfl, fun h ↦ absurd h htwo⟩
      | some e => exact wp_pure.mpr ⟨.inr ⟨e, rfl⟩, fun h ↦ absurd h htwo⟩

/-- Where the first parameter leaves two bytes, there is a second one. -/
theorem wp_parameters_two {c : Reader} (hc : Valid w c) {x y : List UInt8} (hrest : c.rest = x ++ y)
    (hx : x ≠ []) (hy : 2 ≤ y.length) {e : Str × Str}
    (h : Reads w (parameter decodeText w) x y (some e)) :
    Wp (parameters decodeText w) c fun params _ ↦ 2 ≤ params.length := by
  have hread : Reads w (nextParameter decodeText w []) x y (.cont [e]) := by
    refine Reads.atEnd_bind hx ?_
    exact h.bind_left (Reads.pure _ _)
  have hpos := List.length_pos_of_ne_nil hx
  refine Wp.loopHere (fun params c' ↦ Valid w c' ∧ (params = [] ∧ c' = c ∨
    params.length = 1 ∧ 2 ≤ c'.remaining ∨ 2 ≤ params.length)) ?_ ⟨hc, .inl ⟨rfl, rfl⟩⟩
  rintro params c ⟨hc, hparams⟩
  rcases hparams with ⟨rfl, rfl⟩ | hparams
  · have hleft : (c.skip x.length).rest = y := rest_skip_append hrest
    refine ⟨_, _, hread _ c hc rfl hrest, ⟨hc.skip hrest, .inr (.inl ⟨rfl, ?_⟩)⟩, ?_⟩
    · rw [← length_rest, hleft]
      exact hy
    · rw [← length_rest, ← length_rest, hleft, hrest, List.length_append]
      omega
  · refine ((progresses_nextParameter params c hc).and (wp_nextParameter hc params)).mono ?_
    rintro z c' ⟨⟨hahead, hread, hdone⟩, hnext, htwo⟩
    have hvalid' := hahead.valid hc
    rcases hnext with rfl | ⟨e', rfl⟩
    · rcases hparams with ⟨-, hrem⟩ | hparams
      · obtain ⟨e', he'⟩ := htwo hrem
        cases he'
      · exact hparams
    · have hlt : c.pos < c.data.length := by
        refine Nat.lt_of_not_le fun hle ↦ ?_
        obtain ⟨b, hb⟩ := hdone hle
        cases hb
      refine ⟨⟨hvalid', .inr (.inr ?_)⟩, hahead.remaining_lt (hread hlt)⟩
      rw [List.length_append, List.length_singleton]
      rcases hparams with ⟨hone, -⟩ | hparams <;> omega

/-- A number that is too long to be read: the parameter ends behind its first byte. -/
theorem Param.TooLong.reads (decodeText : Encoding → List UInt8 → Str) {p : Param} (h : p.TooLong) :
    ∃ x y e, p.bytes = x ++ y ∧ x ≠ [] ∧ 2 ≤ y.length ∧
      Reads w (parameter decodeText w) x y (some e) := by
  cases p with
  | typed code value hcode hvalue =>
      obtain ⟨hin, b, y, rfl, hy, hlong, hle⟩ := h
      have hlow : b < 0x80 := UInt8.lt_of_le_of_lt hle (by decide)
      have hnone := reads_integerValue_none (w := w) hlow (.inr hlong) y
      have hlength : 2 ≤ y.length := by
        rw [hy]
        have := UInt8.lt_iff_toNat_lt.mp hlong
        change 8 < b.toNat at this
        omega
      refine ⟨[0x80 ||| code, b], y, ((paramName code).getD "x-unknown", []), rfl,
        List.cons_ne_nil _ _, hlength, reads_typed hcode ?_⟩
      simp only [List.mem_cons, List.not_mem_nil, or_false] at hin
      rcases hin with rfl | hnumber
      · rw [parameterValue_charset]
        refine Reads.peek_bind ?_
        rw [charsetValue, if_pos (.inr (UInt8.lt_of_le_of_lt hle (by decide)))]
        exact hnone.bind_left (Reads.pure _ _)
      · have hno : code ≠ 0x10 ∧ code ≠ 0x00 := by
          rcases hnumber with rfl | rfl | rfl <;> decide
        rw [parameterValue, if_neg hno.1, if_neg hno.2, if_pos hnumber]
        exact hnone.bind_left (Reads.pure _ _)
  | untyped => exact h.elim

theorem Param.length_lt {p : Param} (h : p.Misread ∨ p.TooLong) : p.bytes.length < 2 ^ 33 := by
  cases p with
  | typed code value hcode hvalue =>
      rcases h with ⟨-, b, rfl, -⟩ | ⟨-, b, x, rfl, hx, -⟩
      · rw [bytes, List.length_cons, List.length_singleton]
        decide
      · have hb := b.toNat_lt
        rw [bytes, List.length_cons, List.length_cons, hx]
        omega
  | untyped token value htoken hvalue =>
      rcases h with ⟨b, rfl, -⟩ | h
      · have hshort := htoken.short
        rw [bytes, List.length_append, List.length_append, List.length_singleton,
          List.length_singleton]
        omega
      · exact h.elim

end

/-! ## One entry each -/

/-- In any content type with a length before it, the reader makes of these parameters one entry
each, in order, under their own names. -/
def OneEach (decodeText : Encoding → List UInt8 → Str) (ps : List Param) : Prop :=
  ∀ w len media t, MediaType media → ValueLength len (media ++ ps.flatMap Param.bytes).length →
    (media ++ ps.flatMap Param.bytes).length < 2 ^ w →
      ∃ name params, Reads w (contentType decodeText w) (len ++ (media ++ ps.flatMap Param.bytes)) t
          (some (name, params)) ∧
        params.map Prod.fst = ps.map Param.name

section

variable {decodeText : Encoding → List UInt8 → Str}

theorem length_continued (groups : List UInt8) : (continued groups).length = groups.length := by
  induction groups with
  | nil => rfl
  | cons b groups ih =>
      cases groups with
      | nil => rfl
      | cons b' groups => exact congrArg (· + 1) ih

theorem ValueLength.length_le {x : List UInt8} {len : Nat} (h : ValueLength x len) :
    x.length ≤ 9 := by
  cases h with
  | short =>
      rw [List.length_singleton]
      decide
  | long hne hlen hall =>
      rw [List.length_cons, length_continued]
      exact Nat.succ_le_succ hlen

/-- The content type that a wrong number of entries shows in. -/
theorem not_oneEach {ps : List Param} {name : Str} {params : Params}
    (hfits : Fits 64 ([0x83] ++ ps.flatMap Param.bytes).length)
    (h : Gives (typeAndParameters decodeText 64) ([0x83] ++ ps.flatMap Param.bytes)
      (some (name, params)))
    (hne : params.length ≠ ps.length) : ¬ OneEach decodeText ps := by
  intro hall
  have hlen := valueLength_write hfits
  obtain ⟨name', params', hread, hnames⟩ :=
    hall 64 _ [0x83] [] (.code (by decide)) hlen hfits.usize
  have hread' := reads_contentType hlen hfits.usize h []
  have hfits' : (writeValueLength ([0x83] ++ ps.flatMap Param.bytes).length ++
      ([0x83] ++ ps.flatMap Param.bytes)).length < 2 ^ 64 := by
    have hlength := hlen.length_le
    have haddresses := hfits.addresses
    rw [List.length_append]
    omega
  have heq := Option.some.inj (hread.unique hread' hfits')
  refine hne ?_
  rw [← (Prod.mk.inj heq).2, ← List.length_map (f := Prod.fst), hnames, List.length_map]

theorem Param.Misread.not_oneEach {p : Param} (h : p.Misread) :
    ¬ OneEach decodeText [p, Param.secure] := by
  have hlt := Param.length_lt (.inl h)
  have hbytes : [p, Param.secure].flatMap Param.bytes = p.bytes ++ Param.secure.bytes := by
    simp only [List.flatMap_cons, List.flatMap_nil, List.append_nil]
  have hlength : (p.bytes ++ Param.secure.bytes).length = p.bytes.length + 1 := by
    rw [List.length_append]
    rfl
  obtain ⟨v, hv⟩ := h.reads (w := 64) decodeText
  have hparams := reads_parameters_single (by simp [p.bytes_ne_nil]) hv
  have hmedia : MediaType [0x83] := .code (by decide)
  obtain ⟨name, hname⟩ := hmedia.reads hparams
  have hfits : Fits 64 ([0x83] ++ [p, Param.secure].flatMap Param.bytes).length := by
    rw [hbytes, List.length_append, hlength, List.length_singleton]
    exact ⟨by omega, by omega⟩
  rw [← hbytes] at hname
  exact Mms.not_oneEach hfits (hname.gives hfits.usize) (by simp)

theorem Param.TooLong.not_oneEach {p : Param} (h : p.TooLong) : ¬ OneEach decodeText [p] := by
  have hlt := Param.length_lt (.inr h)
  have hbytes : [p].flatMap Param.bytes = p.bytes := List.append_nil _
  have hfits : Fits 64 ([0x83] ++ [p].flatMap Param.bytes).length := by
    rw [hbytes, List.length_append, List.length_singleton]
    exact ⟨by omega, by omega⟩
  obtain ⟨x, y, e, hxy, hx, hy, hread⟩ := h.reads (w := 64) decodeText
  have hvalid : Valid 64 (⟨[0x83] ++ [p].flatMap Param.bytes, 0⟩ : Reader) := valid_start hfits.usize
  obtain ⟨params, c, hparams, htwo⟩ := wp_parameters_two
    (hvalid.skip (x := [0x83]) rfl) ((rest_skip_append (x := [0x83]) rfl).trans (hbytes.trans hxy))
    hx hy hread
  have hgives : Gives (typeAndParameters decodeText 64) ([0x83] ++ [p].flatMap Param.bytes)
      (some (contentTypeName 0x03, params)) := by
    have hadvance := (reads_advance (w := 64) [0x83] ([p].flatMap Param.bytes)).start_append
      hfits.usize
    refine ⟨c, (bind_ok (b := some 0x83) rfl).trans ?_⟩
    dsimp only
    rw [if_pos (highBit_of_le (by decide))]
    exact (bind_ok hadvance.1).trans (bind_ok hparams)
  refine Mms.not_oneEach hfits hgives ?_
  rw [List.length_singleton]
  exact Nat.ne_of_gt htwo

/-- The parameters that the reader is out of step with are those that are in one of the two forms. -/
theorem oneEach_iff_inStep (kind : Param → Prop) :
    (∀ ps : List Param, (∀ p ∈ ps, kind p ∨ p = Param.secure) → OneEach decodeText ps) ↔
      ∀ p, kind p → p.InStep := by
  constructor
  · intro h p hp
    by_contra hno
    rcases Param.misread_or_tooLong hno with hno | hno
    · refine hno.not_oneEach (h _ fun q hq ↦ ?_)
      rcases List.mem_pair.mp hq with rfl | rfl
      · exact .inl hp
      · exact .inr rfl
    · refine hno.not_oneEach (h _ fun q hq ↦ ?_)
      cases List.mem_singleton.mp hq
      exact .inl hp
  · intro h ps hps w len media t hmedia hlen hfits
    refine reads_names decodeText hmedia hlen hfits (fun p hp ↦ ?_) t
    rcases hps p hp with hp | rfl
    · exact h p hp
    · exact ⟨fun hin ↦ absurd hin (by decide), fun hin ↦ absurd hin (by decide)⟩

end

def paddingOfFive : Param := .typed 0x08 [0x85] (by decide) (.short (by decide) (by decide))

/-- A padding of five, and a parameter without a value behind it: the reader finds the first only. -/
theorem paddingOfFive_eats_secure :
    ((contentType (fun _ ↦ fromUtf8Lossy) 64
        ⟨[0x04, 0x83] ++ [paddingOfFive, Param.secure].flatMap Param.bytes, 0⟩).toOption.map
      fun r ↦ r.1.map fun ct ↦ ct.2.map Prod.fst) = some (some ["padding".toList]) ∧
    ¬ OneEach (fun _ ↦ fromUtf8Lossy) [paddingOfFive, Param.secure] :=
  ⟨by decide +kernel, Param.Misread.not_oneEach ⟨by decide, _, rfl, by decide⟩⟩

end Modem2Sip.Mms
