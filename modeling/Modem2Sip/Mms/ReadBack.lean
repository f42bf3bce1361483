import Modem2Sip.Mms.Pdu

/-!
# What the writers write is read back

One lemma for each encoding of WSP: the reader's method, at what the writer has
written, ends behind it with the value that was given to the writer.  The lemmas hold
whatever comes next in the buffer, so those of the nested encodings are assembled from
those of their pieces.
-/

namespace Modem2Sip.Mms

open Cursor Text Reader

/-! ## Legal text -/

def isAsciiControl (c : Char) : Bool := c.toNat < 0x20 || c.toNat == 0x7F

/-- No ASCII control character, which is what WSP asks of a text. -/
def WspText (s : Str) : Prop := ∀ c ∈ s, isAsciiControl c = false

instance (s : Str) : Decidable (WspText s) := inferInstanceAs (Decidable (∀ c ∈ s, _))

@[simp] theorem wspText_append {s t : Str} : WspText (s ++ t) ↔ WspText s ∧ WspText t := by
  simp [WspText, or_imp, forall_and]

theorem WspText.of_subset {s t : Str} (h : WspText s) (hts : ∀ c ∈ t, c ∈ s) : WspText t :=
  fun c hc ↦ h c (hts c hc)

/-- The bytes of a legal text are none of the controls, either. -/
theorem WspText.le_of_mem_utf8 {s : Str} (h : WspText s) {b : UInt8} (hb : b ∈ utf8 s) :
    0x20 ≤ b ∧ b ≠ 0x7F := by
  obtain ⟨c, hc, hb⟩ := List.mem_flatMap.mp hb
  have hctl : 0x20 ≤ c.toNat ∧ c.toNat ≠ 0x7F := by simpa [isAsciiControl] using h c hc
  have hbyte : 0x20 ≤ b.toNat ∧ b.toNat ≠ 0x7F := by
    by_cases hascii : c.toNat < 128
    · rw [utf8EncodeChar_of_ascii hascii, List.mem_singleton] at hb
      rwa [hb, UInt8.toNat_ofNat', Nat.mod_eq_of_lt (by omega)]
    · have := le_of_mem_utf8EncodeChar (Nat.le_of_not_lt hascii) hb
      omega
  refine ⟨UInt8.le_iff_toNat_le.mpr hbyte.1, ?_⟩
  rintro rfl
  exact hbyte.2 rfl

theorem WspText.le_of_mem_head? {s : Str} (h : WspText s) {b : UInt8} (hb : b ∈ (utf8 s).head?) :
    0x20 ≤ b ∧ b ≠ 0x7F := h.le_of_mem_utf8 (List.mem_of_mem_head? hb)

theorem WspText.zero_not_mem {s : Str} (h : WspText s) : 0 ∉ utf8 s :=
  fun hmem ↦ absurd (h.le_of_mem_utf8 hmem).1 (by decide)

/-! ## Numbers -/

section Numbers

variable {w : Nat}

theorem reads_u8 (b : UInt8) (t : List UInt8) : Reads w (u8 w) [b] t (some b) := by
  refine Reads.peek_bind ?_
  exact (reads_advance [b] t).bind_left (Reads.pure _ _)

theorem reads_take (x t : List UInt8) : Reads w (take w x.length) x t (some x) := by
  refine Reads.bind_right (reads_left _) ?_
  rw [List.length_append, if_neg (by omega)]
  refine Reads.bind_right (reads_sliceHere x t) ?_
  exact (reads_advance x t).bind_left (Reads.pure _ _)

/-- What the reader makes of the groups of a uintvar. -/
def groupsValue (value : Nat) (groups : List UInt8) : Nat :=
  groups.foldl (fun value b ↦ value * 2 ^ 7 % 2 ^ 64 + b.toNat) value

theorem uintvarGroups_spec (n value : Nat) (groups : List UInt8) (hn : value < 2 ^ (7 * n))
    (hvalue : value < 2 ^ 64) (hgroups : ∀ b ∈ groups, b < 0x80) :
    (∀ b ∈ uintvarGroups n value groups, b < 0x80) ∧
      groupsValue 0 (uintvarGroups n value groups) = groupsValue value groups := by
  induction n generalizing value groups with
  | zero =>
    obtain rfl : value = 0 := by simpa using hn
    exact ⟨hgroups, rfl⟩
  | succ n ih =>
    have hb : (UInt8.ofNat (value % 2 ^ 7)).toNat = value % 2 ^ 7 := by
      rw [UInt8.toNat_ofNat']
      omega
    have hgroups' : ∀ b ∈ UInt8.ofNat (value % 2 ^ 7) :: groups, b < 0x80 := by
      intro b hmem
      rcases List.mem_cons.mp hmem with rfl | hmem
      · rw [UInt8.lt_iff_toNat_lt, hb]
        exact Nat.mod_lt _ (by decide)
      · exact hgroups b hmem
    rw [uintvarGroups]
    split
    · rename_i hzero
      have : (0 * 2 ^ 7 % 2 ^ 64 + value % 2 ^ 7) = value := by omega
      exact ⟨hgroups', by rw [groupsValue, List.foldl_cons, hb, this, groupsValue]⟩
    · have hlt : value / 2 ^ 7 < 2 ^ (7 * n) := by
        rw [Nat.div_lt_iff_lt_mul (by decide), ← Nat.pow_add]
        exact hn
      obtain ⟨hall, hval⟩ := ih _ _ hlt (by omega) hgroups'
      have : (value / 2 ^ 7 * 2 ^ 7 % 2 ^ 64 + value % 2 ^ 7) = value := by omega
      exact ⟨hall, hval.trans (by rw [groupsValue, List.foldl_cons, hb, this, groupsValue])⟩

/-- There are no more groups than the bits of the number ask for. -/
theorem length_uintvarGroups_le {n k value : Nat} (h : value < 2 ^ (7 * (k + 1)))
    (groups : List UInt8) : (uintvarGroups n value groups).length ≤ groups.length + (k + 1) := by
  induction n generalizing k value groups with
  | zero => exact Nat.le_add_right _ _
  | succ n ih =>
    rw [uintvarGroups]
    split
    · rw [List.length_cons]
      omega
    · rename_i hne
      cases k with
      | zero => exact absurd (Nat.div_eq_of_lt h) hne
      | succ k =>
        have hlt : value / 2 ^ 7 < 2 ^ (7 * (k + 1)) := by
          rw [Nat.div_lt_iff_lt_mul (by decide), ← Nat.pow_add]
          exact h
        have := ih hlt (UInt8.ofNat (value % 2 ^ 7) :: groups)
        rw [List.length_cons] at this
        exact this.trans (by omega)

theorem uintvarGroups_ne_nil (n value : Nat) {groups : List UInt8} (h : groups ≠ []) :
    uintvarGroups n value groups ≠ [] := by
  induction n generalizing value groups with
  | zero => exact h
  | succ n ih =>
    rw [uintvarGroups]
    split
    · exact List.cons_ne_nil _ _
    · exact ih _ (List.cons_ne_nil _ _)

theorem forall_lt_0x80 {P : UInt8 → Prop} (h : ∀ n < 128, P (UInt8.ofNat n)) (b : UInt8)
    (hb : b < 0x80) : P b := by
  have := h b.toNat (UInt8.lt_iff_toNat_lt.mp hb)
  rwa [UInt8.ofNat_toNat] at this

theorem highBit_of_lt : ∀ b : UInt8, b < 0x80 →
    highBit b = false ∧ highBit (b ||| 0x80) = true ∧ b &&& 0x7F = b ∧ (b ||| 0x80) &&& 0x7F = b :=
  forall_lt_0x80 (by decide +kernel)

/-- At most `n` groups, all but the last one marked as followed by another. -/
theorem reads_uintvarFrom (n value : Nat) {groups : List UInt8} (hne : groups ≠ [])
    (hall : ∀ b ∈ groups, b < 0x80) (hlen : groups.length ≤ n) (t : List UInt8) :
    Reads w (uintvarFrom w n value) (continued groups) t (some (groupsValue value groups)) := by
  induction n generalizing value groups with
  | zero => exact absurd (List.eq_nil_of_length_eq_zero (Nat.le_zero.mp hlen)) hne
  | succ n ih =>
    match groups, hne with
    | [b], _ =>
      obtain ⟨hhigh, -, hlow, -⟩ := highBit_of_lt b (hall b List.mem_cons_self)
      refine (reads_u8 b t).bind_left ?_
      dsimp only
      rw [hhigh, if_neg Bool.false_ne_true, hlow]
      exact Reads.pure _ _
    | b :: b' :: groups, _ =>
      obtain ⟨-, hhigh, -, hlow⟩ := highBit_of_lt b (hall b List.mem_cons_self)
      refine Reads.bind (x := [b ||| 0x80]) (reads_u8 _ _) ?_
      dsimp only
      rw [hhigh, if_pos rfl, hlow]
      exact ih _ (List.cons_ne_nil _ _) (fun c hc ↦ hall c (List.mem_cons_of_mem _ hc))
        (Nat.le_of_succ_le_succ hlen)

/-- Eight groups are what the reader takes, so the largest number it can read has 56 bits. -/
theorem uintvarGroups_write {value : Nat} (h : value < 2 ^ 56) :
    uintvarGroups 10 value [] ≠ [] ∧ (uintvarGroups 10 value []).length ≤ 8 ∧
      (∀ b ∈ uintvarGroups 10 value [], b < 0x80) ∧
        groupsValue 0 (uintvarGroups 10 value []) = value := by
  obtain ⟨hall, hvalue⟩ := uintvarGroups_spec 10 value [] (by omega) (by omega) (by simp)
  refine ⟨?_, length_uintvarGroups_le (n := 10) (k := 7) (by omega) [], hall, hvalue⟩
  rw [uintvarGroups]
  split
  · exact List.cons_ne_nil _ _
  · exact uintvarGroups_ne_nil _ _ (List.cons_ne_nil _ _)

theorem reads_uintvar {value : Nat} (h : value < 2 ^ 56) (t : List UInt8) :
    Reads w (uintvar w) (writeUintvar value) t (some value) := by
  obtain ⟨hne, hlen, hall, hvalue⟩ := uintvarGroups_write h
  have hgroups := reads_uintvarFrom (w := w) 8 0 hne hall hlen t
  rw [hvalue] at hgroups
  exact hgroups

/-- A length that a program can have in memory: `usize` holds it, and no processor gives a program
more than 56 bits of addresses. -/
structure Fits (w len : Nat) : Prop where
  usize : len < 2 ^ w
  addresses : len < 2 ^ 56

theorem Fits.mono {m n : Nat} (h : Fits w n) (hmn : m ≤ n) : Fits w m :=
  ⟨hmn.trans_lt h.usize, hmn.trans_lt h.addresses⟩

theorem Fits.left {x y : List UInt8} (h : Fits w (x ++ y).length) : Fits w x.length :=
  h.mono (List.length_append ▸ Nat.le_add_right _ _)

theorem Fits.right {x y : List UInt8} (h : Fits w (x ++ y).length) : Fits w y.length :=
  h.mono (List.length_append ▸ Nat.le_add_left _ _)

theorem Fits.tail {b : UInt8} {x : List UInt8} (h : Fits w (b :: x).length) : Fits w x.length :=
  h.mono (Nat.le_succ _)

/-- The ways to give a length: in one byte, or as a uintvar of at most eight groups. -/
inductive ValueLength : List UInt8 → Nat → Prop
  | short {b : UInt8} (h : b ≤ 30) : ValueLength [b] b.toNat
  | long {groups : List UInt8} (hne : groups ≠ []) (hlen : groups.length ≤ 8)
    (hall : ∀ b ∈ groups, b < 0x80) : ValueLength (0x1F :: continued groups) (groupsValue 0 groups)

/-- A length begins with a byte that no text and no short integer begins with. -/
theorem ValueLength.eq_cons {x : List UInt8} {len : Nat} (h : ValueLength x len) :
    ∃ b bs, x = b :: bs ∧ b < 0x20 := by
  cases h with
  | short h => exact ⟨_, _, rfl, UInt8.lt_of_le_of_lt h (by decide)⟩
  | long => exact ⟨_, _, rfl, by decide⟩

theorem ValueLength.reads {x : List UInt8} {len : Nat} (h : ValueLength x len) (hlen : len < 2 ^ w)
    (t : List UInt8) : Reads w (valueLength w) x t (some len) := by
  cases h with
  | short h =>
    refine Reads.peek_bind ?_
    dsimp only
    rw [if_pos h]
    exact (reads_advance [_] t).bind_left (Reads.pure _ _)
  | long hne hgroups hall =>
    refine Reads.peek_bind ?_
    dsimp only
    rw [if_neg (by decide), if_pos rfl]
    refine Reads.bind (reads_advance [0x1F] _) ?_
    refine (reads_uintvarFrom 8 0 hne hall hgroups t).bind_left ?_
    rw [Option.map_some, if_pos hlen]
    exact Reads.pure _ _

/-- What the length is before follows in full. -/
theorem ValueLength.bounded {x y : List UInt8} (h : ValueLength x y.length)
    (hlen : y.length < 2 ^ w) (t : List UInt8) :
    Reads w (boundedValueLength w) x (y ++ t) (some y.length) := by
  refine (h.reads hlen _).bind_left ?_
  refine Reads.bind_right (reads_left _) ?_
  rw [List.nil_append, List.length_append, Nat.min_eq_left (Nat.le_add_right _ _)]
  exact Reads.pure _ _

/-- A length before a value, and the value. -/
theorem ValueLength.prefixed {β : Type} {f : Option Nat → Scan UInt8 β} {x y t : List UInt8} {v : β}
    (h : ValueLength x y.length) (hlen : y.length < 2 ^ w)
    (hf : Reads w (f (some y.length)) y t v) :
    Reads w (boundedValueLength w >>= f) (x ++ y) t v :=
  (h.bounded hlen t).bind hf

/-- A decision on the first byte of a length. -/
theorem ValueLength.peek_prefixed {β : Type} {f : Option UInt8 → Scan UInt8 β} {x y t : List UInt8}
    {len : Nat} {v : β} (h : ValueLength x len)
    (hf : ∀ b < 0x20, Reads w (f (some b)) (x ++ y) t v) : Reads w (peek >>= f) (x ++ y) t v := by
  obtain ⟨b, bs, rfl, hb⟩ := h.eq_cons
  exact Reads.peek_bind (hf b hb)

theorem valueLength_write {len : Nat} (hlen : Fits w len) :
    ValueLength (writeValueLength len) len := by
  unfold writeValueLength
  split
  · rename_i hshort
    have hb : (UInt8.ofNat len).toNat = len := by
      rw [UInt8.toNat_ofNat', Nat.mod_eq_of_lt (by omega)]
    have hle : UInt8.ofNat len ≤ 30 := by
      rw [UInt8.le_iff_toNat_le, hb]
      exact hshort
    have hlength := ValueLength.short hle
    rwa [hb] at hlength
  · obtain ⟨hne, hgroups, hall, hvalue⟩ := uintvarGroups_write hlen.addresses
    have hlength := ValueLength.long hne hgroups hall
    rwa [hvalue] at hlength

theorem reads_inner {β : Type} {op : Scan UInt8 β} {x : List UInt8} {v : β} (h : Gives op x v)
    (t : List UInt8) : Reads w (inner w x.length op) x t v := by
  refine Reads.bind_right (reads_sliceHere x t) ?_
  exact (reads_advance x t).bind_left h.nested

theorem reads_prefixed {β : Type} {f : Option Nat → Scan UInt8 β} {x t : List UInt8} {v : β}
    (hlen : Fits w x.length) (h : Reads w (f (some x.length)) x t v) :
    Reads w (boundedValueLength w >>= f) (writeValueLength x.length ++ x) t v :=
  (valueLength_write hlen).prefixed hlen.usize h

end Numbers

/-! ## Texts -/

section Texts

variable {w : Nat}

/-- The loop over a text comes to its NUL and takes what lies between it and `start`. -/
theorem textLoop_eq {x : List UInt8} (hx : 0 ∉ x) {c : Reader} (hc : Valid w c) {t : List UInt8}
    (hrest : c.rest = x ++ 0 :: t) {start : Nat} (hstart : start ≤ c.pos) {n : Nat}
    (hn : x.length < n) :
    loop (textByte w start) n () c =
      .ok (some (fromUtf8Lossy ((c.data.take (c.pos + x.length)).drop start)),
        c.skip (x.length + 1)) := by
  induction x generalizing c n with
  | nil =>
    obtain ⟨n, rfl⟩ := Nat.exists_eq_succ_of_ne_zero (Nat.ne_zero_of_lt hn)
    have hlt : c.pos + 1 ≤ c.data.length := pos_add_length_le (x := [0]) hc hrest
    have hpeek : peek c = .ok (some 0, c) := by
      rw [peek, getElem?_pos hrest]
    have hsub : sub c.data start c.pos c = .ok ((c.data.take c.pos).drop start, c) :=
      if_pos ⟨hstart, hc.pos_le⟩
    have hadvance : advance w 1 c = .ok ((), c.skip 1) := if_pos (hlt.trans_lt hc.fits)
    have hbyte : textByte w start () c =
        .ok (.done (some (fromUtf8Lossy ((c.data.take c.pos).drop start))), c.skip 1) := by
      refine (bind_ok hpeek).trans ?_
      refine (get_bind _ c).trans ?_
      exact (bind_ok hsub).trans (bind_ok hadvance)
    exact (bind_ok hbyte).trans rfl
  | cons b x ih =>
    obtain ⟨n, rfl⟩ := Nat.exists_eq_succ_of_ne_zero (Nat.ne_zero_of_lt hn)
    have hb : b ≠ 0 := fun h ↦ hx (h ▸ List.mem_cons_self)
    have hlt : c.pos + 1 ≤ c.data.length := pos_add_length_le (x := [b]) hc hrest
    have hpeek : peek c = .ok (some b, c) := by
      rw [peek, getElem?_pos hrest]
    have hadvance : advance w 1 c = .ok ((), c.skip 1) := if_pos (hlt.trans_lt hc.fits)
    have hbyte : textByte w start () c = .ok (.cont (), c.skip 1) := by
      refine (bind_ok hpeek).trans ?_
      dsimp only
      rw [if_neg hb]
      exact bind_ok hadvance
    refine (bind_ok hbyte).trans ?_
    have hskip : c.skip 1 = c.skip [b].length := rfl
    refine (ih (fun h ↦ hx (List.mem_cons_of_mem _ h)) (hskip ▸ hc.skip (x := [b]) hrest)
      (hskip ▸ rest_skip_append (x := [b]) hrest) (Nat.le_succ_of_le hstart)
      (Nat.lt_of_succ_lt_succ hn)).trans ?_
    rw [skip, skip, skip, List.length_cons, Nat.add_right_comm _ 1, Nat.add_assoc _ 1,
      Nat.add_comm 1 (x.length + 1)]
    rfl

/-- Without a quote byte at the position, none is skipped. -/
theorem reads_skipQuote_nil {x : List UInt8} (h : x.head? ≠ some 0x7F) :
    Reads w (skipQuote w) [] x () := by
  refine Reads.bind_right (x := []) (b := x.head?) (fun p c _ _ hrest ↦ ?_) ?_
  · rw [peek, ← List.head?_drop]
    exact congrArg (fun x ↦ Except.ok (List.head? x, c)) hrest
  · rw [if_neg h]
    exact Reads.pure _ _

/-- A quote byte is skipped, whatever comes after it. -/
theorem reads_skipQuote (x : List UInt8) : Reads w (skipQuote w) [0x7F] x () := by
  refine Reads.peek_bind ?_
  rw [if_pos rfl]
  exact reads_advance [0x7F] _

/-- A text and its NUL, once the quote is dealt with. -/
theorem reads_textString_skip {quote x t : List UInt8} (h : 0 ∉ x)
    (hquote : Reads w (skipQuote w) quote (x ++ [0] ++ t) ()) :
    Reads w (textString w) (quote ++ (x ++ [0])) t (some (fromUtf8Lossy x)) := by
  refine Reads.bind hquote ?_
  intro p c hc _ hrest
  refine (get_bind _ c).trans ?_
  rw [List.append_assoc] at hrest
  have hlen : x.length < c.remaining + 1 := by
    rw [← length_rest, hrest, List.length_append]
    omega
  have hloop : loopHere (textByte w c.pos) () c =
      .ok (some (fromUtf8Lossy x), c.skip (x.length + 1)) := by
    refine (textLoop_eq h hc hrest le_rfl hlen).trans ?_
    rw [take_rest, hrest, List.take_left]
  refine (bind_ok hloop).trans ?_
  rw [List.length_append]
  rfl

theorem head?_append_nul {x : List UInt8} {b : UInt8} (h : x.head? ≠ some b) (hb : b ≠ 0)
    (t : List UInt8) : (x ++ [0] ++ t).head? ≠ some b := by
  cases x with
  | nil => exact fun heq ↦ hb (Option.some.inj heq).symm
  | cons b' bs => exact h

/-- A text with a NUL after it, whichever bytes it has. -/
theorem reads_textString_bytes {x : List UInt8} (h : 0 ∉ x) :
    ∃ s, ∀ t, Reads w (textString w) (x ++ [0]) t (some s) := by
  by_cases hquote : x.head? = some 0x7F
  · obtain ⟨x, rfl⟩ := List.head?_eq_some_iff.mp hquote
    have hx : 0 ∉ x := fun hmem ↦ h (List.mem_cons_of_mem _ hmem)
    exact ⟨_, fun t ↦ reads_textString_skip hx (reads_skipQuote _)⟩
  · exact ⟨_, fun t ↦ reads_textString_skip h
      (reads_skipQuote_nil (head?_append_nul hquote (by decide) t))⟩

/-- Any text without a NUL is read back unless it begins with the quote, which the writer puts just
where a text does not begin with an ASCII character. -/
theorem reads_textString_of {s : Str} (h : 0 ∉ utf8 s) (hdel : (utf8 s).head? ≠ some 0x7F)
    (t : List UInt8) : Reads w (textString w) (writeTextString s) t (some s) := by
  have hskip {quote : List UInt8} (hquote : Reads w (skipQuote w) quote (utf8 s ++ [0] ++ t) ()) :
      Reads w (textString w) (quote ++ (utf8 s ++ [0])) t (some s) := by
    have hread := reads_textString_skip h hquote
    rwa [fromUtf8Lossy_utf8] at hread
  rw [writeTextString, List.append_assoc]
  split
  · exact hskip (reads_skipQuote _)
  · exact hskip (reads_skipQuote_nil (head?_append_nul hdel (by decide) t))

theorem reads_textString {s : Str} (h : WspText s) (t : List UInt8) :
    Reads w (textString w) (writeTextString s) t (some s) :=
  reads_textString_of h.zero_not_mem (fun hdel ↦ (h.le_of_mem_head? hdel).2 rfl) t

end Texts

/-! ## Encoded strings and parameters -/

section Encoded

variable {decodeText : Encoding → List UInt8 → Str} {w : Nat}

/-- The byte order mark. -/
def byteOrderMark : Char := Char.ofNat 0xFEFF

/-- What `encoding_rs` makes of text in UTF-8: the text itself, unless it begins with a byte order
mark, which it takes away. -/
def DecodesUtf8 (decodeText : Encoding → List UInt8 → Str) : Prop :=
  ∀ s : Str, s.head? ≠ some byteOrderMark → decodeText .utf8 (utf8 s) = s

theorem reads_integerValue_short {b : UInt8} (hb : highBit b = true) (t : List UInt8) :
    Reads w (integerValue w) [b] t (some (b &&& 0x7F).toNat) := by
  refine Reads.peek_bind ?_
  dsimp only
  rw [if_pos hb]
  exact (reads_advance [b] t).bind_left (Reads.pure _ _)

theorem writeIntegerValue_utf8 : writeIntegerValue charsetUtf8 = [0xEA] := by decide

/-- The text in a buffer of its own, with the charset and the NUL that the writer puts around it. -/
theorem charsetText_gives (hdecode : DecodesUtf8 decodeText) {s : Str}
    (hbom : s.head? ≠ some byteOrderMark) (hfits : (0xEA :: utf8 s ++ [0]).length < 2 ^ w) :
    Gives (charsetText decodeText w) (0xEA :: utf8 s ++ [0]) s := by
  set x := 0xEA :: utf8 s ++ [0] with hx
  have hcharset : integerValue w ⟨x, 0⟩ = .ok (some 106, ⟨x, 1⟩) :=
    reads_integerValue_short (b := 0xEA) rfl (utf8 s ++ [0]) 0 ⟨x, 0⟩ (valid_start hfits) rfl
      (by simp [rest, hx])
  have hraw : sub x 1 x.length ⟨x, 1⟩ = .ok (utf8 s ++ [0], ⟨x, 1⟩) := by
    rw [sub, if_pos ⟨by simp [hx], le_rfl⟩, List.take_length, hx]
    rfl
  have hlast : sub (utf8 s ++ [0]) (utf8 s).length (utf8 s ++ [0]).length ⟨x, 1⟩ =
      .ok ([0], ⟨x, 1⟩) := by
    rw [sub, if_pos ⟨by simp, le_rfl⟩, List.take_length, List.drop_left]
  have htext : sub (utf8 s ++ [0]) 0 (utf8 s).length ⟨x, 1⟩ = .ok (utf8 s, ⟨x, 1⟩) := by
    rw [sub, if_pos ⟨Nat.zero_le _, by simp⟩, List.take_left]
    rfl
  refine ⟨⟨x, 1⟩, (bind_ok hcharset).trans ?_⟩
  refine (get_bind _ _).trans ?_
  refine (bind_ok hraw).trans ?_
  have hcut : (utf8 s ++ [0]).length - 1 = (utf8 s).length := by simp
  have hlen : ¬ (utf8 s ++ [0]).length < 1 := by simp
  have hutf8 : charsetFor ((some 106).getD 106 % 2 ^ 32) = .utf8 := rfl
  have hone : (if "UTF-16".toList.isPrefixOf Encoding.utf8.name then 2 else 1) = 1 := by decide
  dsimp only
  rw [hutf8, hone, if_neg hlen, hcut]
  refine (bind_ok hlast).trans ?_
  refine (bind_ok htext).trans ?_
  exact congrArg (fun text ↦ Except.ok (text, _)) (hdecode s hbom)

theorem charsetText_gives_nil (hdecode : DecodesUtf8 decodeText) :
    Gives (charsetText decodeText w) [] [] := by
  refine ⟨⟨[], 0⟩, ?_⟩
  have hcharset : integerValue w ⟨[], 0⟩ = .ok (none, ⟨[], 0⟩) := rfl
  refine (bind_ok hcharset).trans ?_
  refine (get_bind _ _).trans ?_
  exact congrArg (fun text ↦ Except.ok (text, _)) (hdecode [] (by simp))

/-- A written text begins with an ASCII character, its quote or its NUL. -/
theorem writeTextString_eq_cons (s : Str) :
    ∃ b bs, writeTextString s = b :: bs ∧ b < 0x80 ∧
      (s ≠ [] → b = 0x7F ∨ b ∈ (utf8 s).head?) := by
  unfold writeTextString
  split
  · exact ⟨_, _, rfl, by decide, fun _ ↦ .inl rfl⟩
  · rename_i hquote
    cases hs : utf8 s with
    | nil => exact ⟨_, _, rfl, by decide, fun hne ↦ absurd (utf8_injective hs) hne⟩
    | cons b bs =>
      refine ⟨b, bs ++ [0], rfl, ?_, fun _ ↦ .inr rfl⟩
      rw [hs] at hquote
      exact UInt8.not_le.mp fun hle ↦ hquote (decide_eq_true hle)

/-- A text that begins with neither the quote nor a control is read back as an encoded string. -/
theorem reads_encodedString_text_of (hdecode : DecodesUtf8 decodeText) {s : Str} (h : 0 ∉ utf8 s)
    (hhead : ∀ b ∈ (utf8 s).head?, 0x20 ≤ b ∧ b ≠ 0x7F) (t : List UInt8) :
    Reads w (encodedString decodeText w) (writeTextString s) t (some s) := by
  by_cases hne : s = []
  · subst hne
    -- The NUL of an empty text is read as the length of an encoded string without a charset.
    refine Reads.peek_bind (a := 0) (x := []) ?_
    dsimp only
    rw [if_neg (by decide), if_neg (by decide)]
    refine Reads.bind (x := writeValueLength 0) (y := [])
      ((valueLength_write ⟨Nat.two_pow_pos w, by decide⟩).bounded (y := []) (Nat.two_pow_pos w) t) ?_
    exact (reads_inner (charsetText_gives_nil hdecode) t).bind_left (Reads.pure _ _)
  · obtain ⟨b, bs, hbs, -, hb⟩ := writeTextString_eq_cons s
    have htext := reads_textString_of (w := w) h (fun hdel ↦ (hhead _ hdel).2 rfl) t
    rw [hbs] at htext ⊢
    refine Reads.peek_bind ?_
    dsimp only
    split
    · exact htext
    split
    · exact htext
    · rename_i hnot hquote
      exact absurd (hhead b ((hb hne).resolve_left hquote)) hnot

theorem reads_encodedString_text (hdecode : DecodesUtf8 decodeText) {s : Str} (h : WspText s)
    (t : List UInt8) : Reads w (encodedString decodeText w) (writeTextString s) t (some s) :=
  reads_encodedString_text_of hdecode h.zero_not_mem (fun _ ↦ h.le_of_mem_head?) t

theorem writeEncodedString_of_not_ascii {s : Str} (h : ¬ isAscii s = true) :
    writeEncodedString s =
      writeValueLength (0xEA :: utf8 s ++ [0]).length ++ (0xEA :: utf8 s ++ [0]) := by
  rw [writeEncodedString, if_neg h, writeIntegerValue_utf8]
  rfl

/-- A text that is not in ASCII goes with its length and its charset, whatever it begins with. -/
theorem reads_encodedString_of (hdecode : DecodesUtf8 decodeText) {s : Str}
    (htext : isAscii s = true → 0 ∉ utf8 s ∧ ∀ b ∈ (utf8 s).head?, 0x20 ≤ b ∧ b ≠ 0x7F)
    (hbom : s.head? ≠ some byteOrderMark) (hfits : Fits w (writeEncodedString s).length)
    (t : List UInt8) : Reads w (encodedString decodeText w) (writeEncodedString s) t (some s) := by
  by_cases hascii : isAscii s = true
  · rw [writeEncodedString, if_pos hascii]
    exact reads_encodedString_text_of hdecode (htext hascii).1 (htext hascii).2 t
  · rw [writeEncodedString_of_not_ascii hascii] at hfits ⊢
    refine (valueLength_write hfits.right).peek_prefixed fun b hb ↦ ?_
    have hlt : ¬ 0x20 ≤ b := UInt8.not_le.mpr hb
    have hquote : b ≠ 0x7F := by
      rintro rfl
      exact absurd hb (by decide)
    dsimp only
    rw [if_neg fun h ↦ hlt h.1, if_neg hquote]
    refine reads_prefixed hfits.right ?_
    exact (reads_inner (charsetText_gives hdecode hbom hfits.right.usize) t).bind_left
      (Reads.pure _ _)

theorem reads_encodedString (hdecode : DecodesUtf8 decodeText) {s : Str} (h : WspText s)
    (hbom : s.head? ≠ some byteOrderMark) (hfits : Fits w (writeEncodedString s).length)
    (t : List UInt8) : Reads w (encodedString decodeText w) (writeEncodedString s) t (some s) :=
  reads_encodedString_of hdecode (fun _ ↦ ⟨h.zero_not_mem, fun _ ↦ h.le_of_mem_head?⟩) hbom hfits t

/-! ### Parameters and content types -/

/-- A parameter as the writers give them: the bytes it is written as, and what it is read as. -/
structure Written (decodeText : Encoding → List UInt8 → Str) (w : Nat) (x : List UInt8)
    (p : Str × Str) : Prop where
  ne_nil : x ≠ []
  reads : ∀ t, Reads w (parameter decodeText w) x t (some p)

theorem written_charset : Written decodeText w [0x81, 0xEA] ("charset", "UTF-8") := by
  refine ⟨by simp, fun t ↦ ?_⟩
  refine Reads.bind (x := [0x81]) (y := [0xEA]) (reads_u8 _ _) ?_
  have hvalue : Reads w (parameterValue decodeText w 1) [0xEA] t "UTF-8" := by
    refine Reads.peek_bind ?_
    exact (reads_integerValue_short (b := 0xEA) rfl t).bind_left (Reads.pure _ _)
  exact hvalue.bind_left (Reads.pure _ _)

/-- A parameter whose value is a text. -/
theorem written_text (hdecode : DecodesUtf8 decodeText) {b : UInt8} (hb : highBit b = true)
    (hcode : b &&& 0x7F ∉ ([0x10, 0x00, 0x02, 0x0E, 0x16, 0x01] : List UInt8)) {s : Str}
    (h : WspText s) :
    Written decodeText w (b :: writeTextString s)
      ((paramName (b &&& 0x7F)).getD "x-unknown", s) := by
  refine ⟨List.cons_ne_nil _ _, fun t ↦ ?_⟩
  refine Reads.bind (x := [b]) (reads_u8 _ _) ?_
  dsimp only
  rw [if_pos hb]
  have hvalue : Reads w (parameterValue decodeText w (b &&& 0x7F)) (writeTextString s) t s := by
    simp only [List.mem_cons, List.not_mem_nil, or_false, not_or] at hcode
    obtain ⟨h₁, h₂, h₃, h₄, h₅, h₆⟩ := hcode
    rw [parameterValue, if_neg h₁, if_neg h₂, if_neg (by rintro (h | h | h) <;> contradiction),
      if_neg h₆]
    exact (reads_encodedString_text hdecode h t).bind_left (Reads.pure _ _)
  exact hvalue.bind_left (Reads.pure _ _)

/-- Parameters are read one by one up to the end of the buffer. -/
theorem reads_parameters {items : List (List UInt8 × (Str × Str))}
    (h : ∀ i ∈ items, Written decodeText w i.1 i.2) :
    Reads w (parameters decodeText w) (items.flatMap (·.1)) [] (items.map (·.2)) := by
  intro p
  refine ReadsLoop.here ?_
  rw [← List.append_nil (items.flatMap (·.1))]
  have hbody (i) (hi : i ∈ items) (params : Params) (t : List UInt8) :
      Reads w (nextParameter decodeText w params) i.1 t (.cont (params ++ [i.2])) := by
    refine Reads.atEnd_bind (h i hi).ne_nil ?_
    exact ((h i hi).reads t).bind_left (Reads.pure _ _)
  refine ReadsLoop.items (g := fun params i ↦ params ++ [i.2]) (fun i hi ↦ (h i hi).ne_nil) hbody ?_
  intro p
  have hparams : items.foldl (fun params i ↦ params ++ [i.2]) [] = items.map (·.2) := by
    rw [List.foldl_append_eq_append, List.nil_append, ← List.flatMap_def, ← List.map_eq_flatMap]
  rw [hparams]
  exact ReadsLoop.done (Reads.atEnd_bind_end (Reads.pure _ _) p)

/-- A well-known content type, and parameters up to the end of the buffer. -/
theorem typeAndParameters_gives_code (code : UInt8) (hcode : code < 0x80)
    (items : List (List UInt8 × (Str × Str))) (h : ∀ i ∈ items, Written decodeText w i.1 i.2)
    (hfits : ((0x80 ||| code) :: items.flatMap (·.1)).length < 2 ^ w) :
    Gives (typeAndParameters decodeText w) ((0x80 ||| code) :: items.flatMap (·.1))
      (some (contentTypeName code, items.map (·.2))) := by
  have hbit := highBit_of_lt code hcode
  rw [UInt8.or_comm] at hbit
  refine Reads.gives (Reads.peek_bind ?_) hfits
  dsimp only
  rw [if_pos hbit.2.1, hbit.2.2.2]
  refine Reads.bind (reads_advance [_] _) ?_
  exact (reads_parameters h).bind_left (Reads.pure _ _)

/-- A content type in text, and parameters up to the end of the buffer. -/
theorem typeAndParameters_gives_text {s : Str} (hs : WspText s)
    {items : List (List UInt8 × (Str × Str))} (h : ∀ i ∈ items, Written decodeText w i.1 i.2)
    (hfits : (writeTextString s ++ items.flatMap (·.1)).length < 2 ^ w) :
    Gives (typeAndParameters decodeText w) (writeTextString s ++ items.flatMap (·.1))
      (some (s, items.map (·.2))) := by
  obtain ⟨b, bs, hbs, hb, -⟩ := writeTextString_eq_cons s
  have htext := reads_textString (w := w) hs (items.flatMap (·.1) ++ [])
  rw [hbs] at htext hfits ⊢
  refine Reads.gives (Reads.peek_bind ?_) hfits
  dsimp only
  rw [(highBit_of_lt b hb).1, if_neg Bool.false_ne_true]
  refine Reads.bind htext ?_
  exact (reads_parameters h).bind_left (Reads.pure _ _)

/-- What a length-prefixed content type is read as is what its inside gives. -/
theorem reads_contentType {len x : List UInt8} {v : Option (Str × Params)}
    (hlen : ValueLength len x.length) (hx : x.length < 2 ^ w)
    (h : Gives (typeAndParameters decodeText w) x v) (t : List UInt8) :
    Reads w (contentType decodeText w) (len ++ x) t v := by
  refine hlen.peek_prefixed fun b hb ↦ ?_
  have hhigh := (highBit_of_lt b (UInt8.lt_trans hb (by decide))).1
  dsimp only
  rw [hhigh, if_neg Bool.false_ne_true, if_neg (UInt8.not_le.mpr hb)]
  exact hlen.prefixed hx (reads_inner h t)

end Encoded

end Modem2Sip.Mms
