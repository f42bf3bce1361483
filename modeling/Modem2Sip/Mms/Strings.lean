import Modem2Sip.Mms.ReadBack
import Modem2Sip.Mms.Total

/-!
# The texts that are mistaken for something else

A reader of WSP decides by the first byte whether it has a text before it.  The
writers put a quote before a text whose first byte has its high bit, so that no text
is taken for a short integer.  They put none before a text that begins with the quote
itself, and none before one that begins with a control character, which a reader of
encoded strings takes for a length.  These texts, and no others, are not read back.
-/

namespace Modem2Sip.Mms

open Cursor Text Reader

variable {decodeText : Encoding → List UInt8 → Str} {w : Nat}

/-! ## First bytes -/

theorem head?_utf8_of_ascii {c : Char} (h : c.toNat < 128) (s : Str) :
    (utf8 (c :: s)).head? = some (UInt8.ofNat c.toNat) := by
  rw [utf8, List.flatMap_cons, utf8EncodeChar_of_ascii h]
  rfl

theorem le_of_mem_head?_utf8 {c : Char} (h : 128 ≤ c.toNat) {s : Str} {b : UInt8}
    (hb : b ∈ (utf8 (c :: s)).head?) : 128 ≤ b.toNat := by
  rw [utf8, List.flatMap_cons] at hb
  cases hc : String.utf8EncodeChar c with
  | nil => exact absurd hc (String.utf8EncodeChar_ne_nil)
  | cons b' bs =>
    rw [hc] at hb
    obtain rfl := Option.some.inj hb
    exact le_of_mem_utf8EncodeChar h (hc ▸ List.mem_cons_self)

/-- A text of ASCII characters has a byte for each. -/
theorem length_utf8_of_isAscii {s : Str} (h : isAscii s = true) : (utf8 s).length = s.length := by
  induction s with
  | nil => rfl
  | cons c s ih =>
    have hbytes : ∀ b ∈ utf8 (c :: s), b < 0x80 := by simpa [isAscii] using h
    have hascii : c.toNat < 128 := by
      by_contra hc
      cases hhead : (utf8 (c :: s)).head? with
      | none => exact absurd (utf8_injective (List.head?_eq_none_iff.mp hhead)) (List.cons_ne_nil c s)
      | some b =>
        have hge := le_of_mem_head?_utf8 (Nat.le_of_not_lt hc) hhead
        have hlt := UInt8.lt_iff_toNat_lt.mp (hbytes b (List.mem_of_mem_head? hhead))
        exact absurd hlt (Nat.not_lt_of_le hge)
    have hs : isAscii s = true := by
      rw [isAscii, List.all_eq_true]
      intro b hb
      exact decide_eq_true (hbytes b (List.mem_append_right _ hb))
    rw [utf8, List.flatMap_cons, utf8EncodeChar_of_ascii hascii, List.length_append,
      List.length_singleton, List.length_cons, Nat.add_comm, ← utf8, ih hs]

/-! ## What a control character is taken for -/

theorem consumes_longInt : Consumes w (longInt w) := by
  refine consumes_u8.bind fun len ↦ ?_
  cases len with
  | none => exact Safe.pure _
  | some len =>
    dsimp only
    split
    · exact Safe.pure _
    · refine (safe_take _).bind fun bytes ↦ ?_
      cases bytes <;> exact Safe.pure _

theorem consumes_integerValue : Consumes w (integerValue w) := by
  refine Consumes.peek_bind fun b ↦ ?_
  dsimp only
  split
  · exact consumes_advance.bind fun _ ↦ Safe.pure _
  · exact consumes_longInt

/-- No encoding makes more characters than there are bytes. -/
def DecodesNoLonger (decodeText : Encoding → List UInt8 → Str) : Prop :=
  ∀ encoding bytes, (decodeText encoding bytes).length ≤ bytes.length

/-- Where there is something to read, a byte of it goes into the charset. -/
theorem wp_charsetText (hdecode : DecodesNoLonger decodeText) {x : List UInt8}
    (hx : x.length < 2 ^ w) :
    Wp (charsetText decodeText w) ⟨x, 0⟩ fun text _ ↦ text.length ≤ x.length - 1 := by
  have hcharset : Wp (integerValue w) ⟨x, 0⟩ fun _ c ↦
      c.data = x ∧ c.pos ≤ x.length ∧ x.length - c.pos ≤ x.length - 1 := by
    have hahead {c : Reader} (h : Ahead ⟨x, 0⟩ c) : c.data = x ∧ c.pos ≤ x.length := by
      have hpos := h.pos_le
      rw [h.data_eq] at hpos
      exact ⟨h.data_eq, hpos⟩
    by_cases hlt : 0 < x.length
    · refine (consumes_integerValue _ (valid_start hx) hlt).mono fun _ c hc ↦ ?_
      obtain ⟨hdata, hle⟩ := hahead hc.1
      have : 0 < c.pos := hc.2
      exact ⟨hdata, hle, by omega⟩
    · refine (safe_integerValue _ (valid_start hx)).mono fun _ c hc ↦ ?_
      obtain ⟨hdata, hle⟩ := hahead hc
      exact ⟨hdata, hle, by omega⟩
  refine hcharset.bind_of fun mib c ⟨hdata, hpos, hlen⟩ ↦ ?_
  refine (wp_get ?_).bind
  refine (wp_sub (hdata ▸ hpos) le_rfl ?_).bind
  rw [hdata, List.take_length]
  have hraw : (x.drop c.pos).length ≤ x.length - 1 := by rwa [List.length_drop]
  generalize x.drop c.pos = raw at hraw ⊢
  generalize (if "UTF-16".toList.isPrefixOf (charsetFor (mib.getD 106 % 2 ^ 32)).name then 2 else 1) =
    terminator
  dsimp only
  split
  · exact wp_pure.mpr ((hdecode _ _).trans hraw)
  · refine (wp_sub (Nat.sub_le _ _) le_rfl ?_).bind
    split
    · refine (wp_sub (Nat.zero_le _) (Nat.sub_le _ _) ?_).bind
      refine wp_pure.mpr ((hdecode _ _).trans (le_trans ?_ hraw))
      rw [List.drop_zero]
      exact List.length_take_le' _ _
    · exact wp_pure.mpr ((hdecode _ _).trans hraw)

/-- What begins with a control character is read as a length and a text with its charset: the text
is shorter by two than the bytes that are read, or it is empty. -/
theorem wp_encodedString_control (hdecode : DecodesNoLonger decodeText) {c : Reader}
    (hc : Valid w c) {b : UInt8} (hb : c.data[c.pos]? = some b) (hlt : b < 0x20) :
    Wp (encodedString decodeText w) c fun text c' ↦
      ∀ s ∈ text, s = [] ∨ c.pos + s.length + 2 ≤ c'.pos := by
  have hpos : c.pos < c.data.length := (List.getElem?_eq_some_iff.mp hb).1
  have hquote : b ≠ 0x7F := by
    rintro rfl
    exact absurd hlt (by decide)
  refine (wp_peek ?_).bind
  rw [hb]
  dsimp only
  rw [if_neg fun h ↦ absurd hlt (UInt8.not_lt.mpr h.1), if_neg hquote]
  -- The length takes at least its first byte.
  have hlength : Wp (valueLength w) c fun _ c' ↦ Ahead c c' ∧ c.pos < c'.pos := by
    refine (wp_peek ?_).bind
    rw [hb]
    dsimp only
    split
    · exact consumes_advance.bind (fun _ ↦ Safe.pure _) c hc hpos
    · rename_i hlong
      have hescape : b = 0x1F := by
        rw [UInt8.le_iff_toNat_le] at hlong
        rw [UInt8.lt_iff_toNat_lt] at hlt
        refine UInt8.toNat_inj.mp ?_
        change ¬ b.toNat ≤ 30 at hlong
        change b.toNat < 32 at hlt
        change b.toNat = 31
        omega
      rw [if_pos hescape]
      exact consumes_advance.bind (fun _ ↦ safe_uintvar.bind fun _ ↦ Safe.pure _) c hc hpos
  have hbounded : Wp (boundedValueLength w) c fun len c' ↦
      (Ahead c c' ∧ c.pos < c'.pos) ∧ ∀ n ∈ len, n ≤ c'.remaining := by
    refine hlength.bind_of fun len c' hc' ↦ ?_
    cases len with
    | none => exact wp_pure.mpr ⟨hc', by simp⟩
    | some len =>
      refine (wp_left ?_).bind
      refine wp_pure.mpr ⟨hc', ?_⟩
      rintro n ⟨⟩
      exact Nat.min_le_right _ _
  refine hbounded.bind_of fun len c' ⟨⟨hahead, hread⟩, hlen⟩ ↦ ?_
  cases len with
  | none => exact wp_pure.mpr (by simp)
  | some len =>
    have hc' := hahead.valid hc
    have hle := hc'.pos_add_le (hlen len rfl)
    have htake : (c'.rest.take len).length = len := by
      rw [List.length_take, length_rest]
      exact Nat.min_eq_left (hlen len rfl)
    have hfits : (c'.rest.take len).length < 2 ^ w :=
      (length_take_rest_le c' len).trans_lt hc'.fits
    have hinner : Wp (inner w len (charsetText decodeText w)) c' fun text c'' ↦
        text.length ≤ len - 1 ∧ c''.pos = c'.pos + len := by
      refine (wp_sliceHere hc' (hlen len rfl) ?_).bind
      refine (wp_advance (hle.trans_lt hc'.fits) ?_).bind
      refine Wp.nested ((wp_charsetText hdecode hfits).mono fun text _ htext ↦ ?_)
      exact ⟨htake ▸ htext, rfl⟩
    refine hinner.bind_of fun text c'' ⟨htext, hend⟩ ↦ wp_pure.mpr ?_
    rintro s ⟨⟩
    by_cases hnil : text = []
    · exact .inl hnil
    · have := List.length_pos_of_ne_nil hnil
      exact .inr (by omega)

/-! ## Reading back -/

/-- Both readers find the text that the writer of each was given, and stop just behind it, whatever
comes next. -/
def ReadsBack (decodeText : Encoding → List UInt8 → Str) (w : Nat) (s : Str) : Prop :=
  ∀ t, Reads w (textString w) (writeTextString s) t (some s) ∧
    Reads w (encodedString decodeText w) (writeEncodedString s) t (some s)

/-- The text begins with DEL, which is the quote, or it has nothing but ASCII characters and begins
with a control character, which is taken for a length. -/
def Mistaken (s : Str) : Prop :=
  ∃ c ∈ s.head?, c.toNat = 0x7F ∨ (c.toNat < 0x20 ∧ isAscii s = true)

instance (s : Str) : Decidable (Mistaken s) :=
  inferInstanceAs (Decidable (∃ c ∈ s.head?, c.toNat = 0x7F ∨ (c.toNat < 0x20 ∧ isAscii s = true)))

theorem zero_not_mem_utf8 {s : Str} (h : Char.ofNat 0 ∉ s) : 0 ∉ utf8 s :=
  fun hmem ↦ h ((mem_utf8_of_ascii (c := Char.ofNat 0) (by decide)).mp hmem)

/-- A text that is not mistaken begins with a byte of text, as far as the readers look at it. -/
theorem head?_of_not_mistaken {s : Str} (h : ¬ Mistaken s) {b : UInt8} (hb : b ∈ (utf8 s).head?) :
    b ≠ 0x7F ∧ (isAscii s = true → 0x20 ≤ b) := by
  cases s with
  | nil => exact absurd hb nofun
  | cons c s =>
    by_cases hc : c.toNat < 128
    · rw [head?_utf8_of_ascii hc] at hb
      obtain rfl := Option.some.inj hb
      have hbyte : (UInt8.ofNat c.toNat).toNat = c.toNat := by
        rw [UInt8.toNat_ofNat', Nat.mod_eq_of_lt (by omega)]
      constructor
      · intro hdel
        exact h ⟨c, rfl, .inl (hbyte.symm.trans (congrArg UInt8.toNat hdel))⟩
      · intro hascii
        rw [UInt8.le_iff_toNat_le, hbyte]
        by_contra hctl
        exact h ⟨c, rfl, .inr ⟨Nat.lt_of_not_le hctl, hascii⟩⟩
    · have hge := le_of_mem_head?_utf8 (Nat.le_of_not_lt hc) hb
      constructor
      · rintro rfl
        exact absurd hge (by decide)
      · intro _
        exact UInt8.le_iff_toNat_le.mpr (le_trans (by decide) hge)

/-- Behind the quote, what is read is the rest of the text. -/
theorem not_readsBack_of_del {c : Char} (hc : c.toNat = 0x7F) {s : Str}
    (hnul : Char.ofNat 0 ∉ c :: s) (hfits : (writeTextString (c :: s)).length < 2 ^ w) :
    ¬ Reads w (textString w) (writeTextString (c :: s)) [] (some (c :: s)) := by
  intro h
  have hutf8 : utf8 (c :: s) = 0x7F :: utf8 s := by
    rw [utf8, List.flatMap_cons, utf8EncodeChar_of_ascii (by omega), hc]
    rfl
  have hwritten : writeTextString (c :: s) = [0x7F] ++ (utf8 s ++ [0]) := by
    have hlow : ¬ (some 0x7F : Option UInt8).any (0x80 ≤ ·) = true := by decide
    rw [writeTextString, hutf8, List.head?_cons, if_neg hlow]
    rfl
  have hrest : Reads w (textString w) (writeTextString (c :: s)) [] (some s) := by
    have hread := reads_textString_skip (w := w) (t := [])
      (zero_not_mem_utf8 fun hmem ↦ hnul (List.mem_cons_of_mem c hmem)) (reads_skipQuote _)
    rw [fromUtf8Lossy_utf8] at hread
    rwa [hwritten]
  have heq := Option.some.inj (h.unique hrest hfits)
  exact absurd (congrArg List.length heq) (Nat.succ_ne_self s.length)

/-- Behind a length, what is read is too short. -/
theorem not_readsBack_of_control (hdecode : DecodesNoLonger decodeText) {c : Char}
    (hc : c.toNat < 0x20) {s : Str} (hascii : isAscii (c :: s) = true)
    (hfits : (writeEncodedString (c :: s)).length < 2 ^ w) :
    ¬ Reads w (encodedString decodeText w) (writeEncodedString (c :: s)) [] (some (c :: s)) := by
  intro h
  have hhead := head?_utf8_of_ascii (c := c) (by omega) s
  have hb : UInt8.ofNat c.toNat < 0x20 := by
    rw [UInt8.lt_iff_toNat_lt, UInt8.toNat_ofNat', Nat.mod_eq_of_lt (by omega)]
    exact hc
  have hwritten : writeEncodedString (c :: s) = utf8 (c :: s) ++ [0] := by
    rw [writeEncodedString, if_pos hascii, writeTextString, hhead, if_neg]
    · rfl
    · intro hhigh
      exact absurd (UInt8.lt_of_lt_of_le hb (by decide : 0x20 ≤ 0x80))
        (UInt8.not_lt.mpr (of_decide_eq_true hhigh))
  have hfirst : (writeEncodedString (c :: s))[0]? = some (UInt8.ofNat c.toNat) := by
    rw [← List.head?_eq_getElem?, hwritten, List.head?_append, hhead]
    rfl
  obtain ⟨text, c', hop, htext⟩ := wp_encodedString_control hdecode (valid_start hfits) hfirst hb
  obtain ⟨rfl, rfl⟩ := Prod.mk.inj (Except.ok.inj (hop.symm.trans (h.start hfits)))
  rcases htext _ rfl with hnil | hlen
  · exact absurd hnil (List.cons_ne_nil c s)
  · dsimp only at hlen
    rw [hwritten, List.length_append, length_utf8_of_isAscii hascii, List.length_singleton] at hlen
    omega

/-- The form with a length and a charset is the longer one. -/
theorem length_writeTextString_le (s : Str) :
    (writeTextString s).length ≤ (writeEncodedString s).length := by
  by_cases hascii : isAscii s = true
  · rw [writeEncodedString, if_pos hascii]
  · rw [writeEncodedString_of_not_ascii hascii, writeTextString]
    split <;> simp only [List.length_append, List.length_cons, List.length_nil] <;> omega

/-- A text without a NUL, and without a byte order mark before it, is read back by both readers
exactly if it is not mistaken. -/
theorem readsBack_iff (hdecode : DecodesUtf8 decodeText) (hlonger : DecodesNoLonger decodeText)
    {s : Str} (hnul : Char.ofNat 0 ∉ s) (hbom : s.head? ≠ some byteOrderMark)
    (hfits : Fits w (writeEncodedString s).length) :
    ReadsBack decodeText w s ↔ ¬ Mistaken s := by
  constructor
  · rintro h ⟨c, hc, hmistake⟩
    obtain ⟨s, rfl⟩ : ∃ s', s = c :: s' := ⟨_, List.eq_cons_of_mem_head? hc⟩
    rcases hmistake with hdel | ⟨hctl, hascii⟩
    · refine not_readsBack_of_del hdel hnul ?_ (h []).1
      exact (length_writeTextString_le _).trans_lt hfits.usize
    · exact not_readsBack_of_control hlonger hctl hascii hfits.usize (h []).2
  · intro h t
    have hzero := zero_not_mem_utf8 hnul
    constructor
    · exact reads_textString_of hzero (fun hdel ↦ (head?_of_not_mistaken h hdel).1 rfl) t
    · refine reads_encodedString_of hdecode (fun hascii ↦ ⟨hzero, fun b hb ↦ ?_⟩) hbom hfits t
      exact ⟨(head?_of_not_mistaken h hb).2 hascii, (head?_of_not_mistaken h hb).1⟩

theorem readsBack_iff_subject :
    ReadsBack (fun _ ↦ fromUtf8Lossy) 32 "제목" ↔ ¬ Mistaken "제목" :=
  readsBack_iff (fun s _ ↦ fromUtf8Lossy_utf8 s) (fun _ ↦ length_fromUtf8Lossy_le) (by decide)
    (by decide) ⟨by decide, by decide⟩

/-- A subject that begins with a tab is taken for a length of nine. -/
theorem not_readsBack_of_tab :
    Char.ofNat 0 ∉ ("\tHello" : Str) ∧ ("\tHello" : Str).head? ≠ some byteOrderMark ∧
      ¬ ReadsBack (fun _ ↦ fromUtf8Lossy) 32 "\tHello" := by
  refine ⟨by decide, by decide, fun h ↦ ?_⟩
  have htab : Char.toNat '\t' < 0x20 := by decide
  exact not_readsBack_of_control (fun _ ↦ length_fromUtf8Lossy_le) htab (by decide) (by decide)
    (h []).2

end Modem2Sip.Mms
