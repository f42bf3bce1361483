import Modem2Sip.Mms.ReadBack

/-!
# Numbers that are read back

`mms/wsp.rs`: the three encodings of a number, and that of a length.  Writer and reader
count on different terms: a uintvar is written in up to ten groups and read in up to
eight, so the reader refuses what has more than 56 bits.  A long integer is written in
as many bytes as the number has, which a number of 64 bits never has more of than the
reader takes.
-/

namespace Modem2Sip.Mms

open Cursor Reader

section Numbers

variable {w : Nat}

/-! ## Long integers -/

/-- What the reader makes of the bytes of a long integer. -/
def bytesValue (value : Nat) (bytes : List UInt8) : Nat :=
  bytes.foldl (fun acc b ↦ acc * 2 ^ 8 % 2 ^ 64 + b.toNat) value

/-- The bytes put before `bytes` bring the reader to `value`, from where it goes on. -/
theorem bytesValue_longIntBytes (n value : Nat) (bytes : List UInt8) (hn : value < 2 ^ (8 * n))
    (hvalue : value < 2 ^ 64) :
    bytesValue 0 (longIntBytes n value bytes) = bytesValue value bytes := by
  induction n generalizing value bytes with
  | zero =>
    obtain rfl : value = 0 := by simpa using hn
    rfl
  | succ n ih =>
    rw [longIntBytes]
    split
    · rename_i hzero
      rw [hzero]
    · have hlt : value / 2 ^ 8 < 2 ^ (8 * n) := by
        rw [Nat.div_lt_iff_lt_mul (by decide), ← Nat.pow_add]
        exact hn
      have hb : (UInt8.ofNat (value % 2 ^ 8)).toNat = value % 2 ^ 8 := by
        rw [UInt8.toNat_ofNat']
        exact Nat.mod_mod _ _
      have hback : value / 2 ^ 8 * 2 ^ 8 % 2 ^ 64 + value % 2 ^ 8 = value := by omega
      rw [ih _ _ hlt (by omega), bytesValue, List.foldl_cons, hb, hback, bytesValue]

theorem length_longIntBytes_le (n value : Nat) (bytes : List UInt8) :
    (longIntBytes n value bytes).length ≤ n + bytes.length := by
  induction n generalizing value bytes with
  | zero => exact Nat.le_add_left _ _
  | succ n ih =>
    rw [longIntBytes]
    split
    · exact Nat.le_add_left _ _
    · have := ih (value / 2 ^ 8) (UInt8.ofNat (value % 2 ^ 8) :: bytes)
      rw [List.length_cons] at this
      omega

/-- A length byte and as many bytes as it says. -/
theorem reads_longInt_of {bytes : List UInt8} (hne : bytes ≠ []) (hlen : bytes.length ≤ 8)
    (t : List UInt8) :
    Reads w (longInt w) (UInt8.ofNat bytes.length :: bytes) t (some (bytesValue 0 bytes)) := by
  have hpos := List.length_pos_of_ne_nil hne
  have hcount : (UInt8.ofNat bytes.length).toNat = bytes.length := by
    rw [UInt8.toNat_ofNat', Nat.mod_eq_of_lt (by omega)]
  have hlegal : ¬ (UInt8.ofNat bytes.length = 0 ∨ 8 < UInt8.ofNat bytes.length) := by
    rintro (hzero | hlarge)
    · rw [hzero] at hcount
      exact hpos.ne hcount
    · rw [UInt8.lt_iff_toNat_lt, hcount] at hlarge
      exact absurd hlen (Nat.not_le_of_lt hlarge)
  refine Reads.bind (x := [UInt8.ofNat bytes.length]) (reads_u8 _ _) ?_
  dsimp only
  rw [if_neg hlegal, hcount]
  exact (reads_take bytes t).bind_left (Reads.pure _ _)

theorem reads_longInt {value : Nat} (h : value < 2 ^ 64) (t : List UInt8) :
    Reads w (longInt w) (writeLongInt value) t (some value) := by
  have hvalue := bytesValue_longIntBytes 8 value [] h h
  have hlen := length_longIntBytes_le 8 value []
  unfold writeLongInt
  dsimp only
  split
  · -- Only the number 0 has no byte of its own.
    rename_i hnil
    rw [hnil] at hvalue
    obtain rfl : 0 = value := hvalue
    exact reads_longInt_of (List.cons_ne_nil 0 []) (by decide) t
  · rename_i hne
    have hreads := reads_longInt_of (w := w) hne hlen t
    rw [hvalue] at hreads
    exact hreads

/-! ## Integer values -/

/-- The length byte of a long integer is not taken for a short integer. -/
theorem writeLongInt_eq_cons (value : Nat) :
    ∃ b bs, writeLongInt value = b :: bs ∧ highBit b = false := by
  have hlen := length_longIntBytes_le 8 value []
  unfold writeLongInt
  dsimp only
  split
  · exact ⟨_, _, rfl, by decide⟩
  · refine ⟨_, _, rfl, (highBit_of_lt _ ?_).1⟩
    rw [List.length_nil] at hlen
    rw [UInt8.lt_iff_toNat_lt, UInt8.toNat_ofNat', Nat.mod_eq_of_lt (by omega)]
    exact Nat.lt_of_le_of_lt hlen (by decide)

theorem reads_integerValue {value : Nat} (h : value < 2 ^ 64) (t : List UInt8) :
    Reads w (integerValue w) (writeIntegerValue value) t (some value) := by
  unfold writeIntegerValue
  split
  · rename_i hshort
    have hb : (UInt8.ofNat value).toNat = value := by
      rw [UInt8.toNat_ofNat', Nat.mod_eq_of_lt (by omega)]
    have hlt : UInt8.ofNat value < 0x80 := by
      rw [UInt8.lt_iff_toNat_lt, hb]
      exact Nat.lt_succ_of_le hshort
    obtain ⟨-, hhigh, -, hlow⟩ := highBit_of_lt _ hlt
    have hreads := reads_integerValue_short (w := w) hhigh t
    rwa [hlow, hb, UInt8.or_comm] at hreads
  · obtain ⟨b, bs, heq, hlow⟩ := writeLongInt_eq_cons value
    have hlong := reads_longInt (w := w) h t
    rw [heq] at hlong ⊢
    refine Reads.peek_bind ?_
    dsimp only
    rw [if_neg (Bool.eq_false_iff.mp hlow)]
    exact hlong

/-! ## Numbers of more than eight groups -/

theorem le_length_uintvarGroups (n value : Nat) (groups : List UInt8) :
    groups.length ≤ (uintvarGroups n value groups).length := by
  induction n generalizing value groups with
  | zero => exact le_rfl
  | succ n ih =>
    rw [uintvarGroups]
    split
    · exact Nat.le_succ _
    · have := ih (value / 2 ^ 7) (UInt8.ofNat (value % 2 ^ 7) :: groups)
      exact (Nat.le_succ _).trans this

/-- There are no fewer groups than the bits of the number ask for. -/
theorem lt_length_uintvarGroups {n k value : Nat} (hk : k < n) (h : 2 ^ (7 * k) ≤ value)
    (groups : List UInt8) : groups.length + k < (uintvarGroups n value groups).length := by
  induction n generalizing k value groups with
  | zero => exact absurd hk (Nat.not_lt_zero _)
  | succ n ih =>
    rw [uintvarGroups]
    cases k with
    | zero =>
      split
      · exact Nat.lt_succ_self _
      · exact le_length_uintvarGroups n _ (_ :: groups)
    | succ k =>
      have hle : 2 ^ (7 * k) ≤ value / 2 ^ 7 := by
        rw [Nat.le_div_iff_mul_le (by decide), ← Nat.pow_add]
        exact h
      have hne : value / 2 ^ 7 ≠ 0 := Nat.ne_zero_of_lt ((Nat.two_pow_pos _).trans_le hle)
      have := ih (Nat.lt_of_succ_lt_succ hk) hle (UInt8.ofNat (value % 2 ^ 7) :: groups)
      rw [List.length_cons] at this
      rw [if_neg hne]
      omega

/-- Each of the groups that the reader takes says that there is another one. -/
theorem uintvarFrom_refuses {n : Nat} {groups : List UInt8} (hn : n < groups.length)
    (hall : ∀ b ∈ groups, b < 0x80) (value : Nat) {t : List UInt8} {c : Reader} (hc : Valid w c)
    (hrest : c.rest = continued groups ++ t) :
    Wp (uintvarFrom w n value) c fun v _ ↦ v = none := by
  induction n generalizing groups value c with
  | zero => exact wp_pure.mpr rfl
  | succ n ih =>
    obtain ⟨b, b', groups, rfl⟩ : ∃ b b' bs, groups = b :: b' :: bs := by
      match groups, hn with
      | b :: b' :: bs, _ => exact ⟨b, b', bs, rfl⟩
    obtain ⟨-, hhigh, -, -⟩ := highBit_of_lt b (hall b List.mem_cons_self)
    have hu8 := reads_u8 (w := w) (b ||| 0x80) (continued (b' :: groups) ++ t) _ c hc rfl hrest
    refine Wp.bind ⟨_, _, hu8, ?_⟩
    dsimp only
    rw [if_pos hhigh]
    exact ih (Nat.lt_of_succ_lt_succ hn) (fun g hg ↦ hall g (List.mem_cons_of_mem _ hg)) _
      (hc.skip (x := [_]) hrest) (rest_skip_append (x := [_]) hrest)

theorem uintvar_refuses {value : Nat} (hlarge : 2 ^ 56 ≤ value) (h : value < 2 ^ 64)
    {t : List UInt8} {c : Reader} (hc : Valid w c) (hrest : c.rest = writeUintvar value ++ t) :
    Wp (uintvar w) c fun v _ ↦ v = none := by
  have hgroups := lt_length_uintvarGroups (n := 10) (k := 8) (by decide) hlarge []
  rw [List.length_nil, Nat.zero_add] at hgroups
  have hall := (uintvarGroups_spec 10 value [] (by omega) h (by simp)).1
  exact uintvarFrom_refuses hgroups hall 0 hc hrest

/-- What the writers of numbers write is read back, and the reader stops behind it.  A number that
a uintvar cannot bring over is refused, and not taken for another one. -/
theorem reads_numbers {value : Nat} (h : value < 2 ^ 64) (t : List UInt8) :
    Reads w (integerValue w) (writeIntegerValue value) t (some value) ∧
      Reads w (longInt w) (writeLongInt value) t (some value) ∧
      (value < 2 ^ 56 →
        Reads w (uintvar w) (writeUintvar value) t (some value) ∧
          Reads 64 (valueLength 64) (writeValueLength value) t (some value)) ∧
      (2 ^ 56 ≤ value → ∀ c, Valid w c → c.rest = writeUintvar value ++ t →
        Wp (uintvar w) c fun v _ ↦ v = none) := by
  refine ⟨reads_integerValue h t, reads_longInt h t, ?_, ?_⟩
  · intro hsmall
    exact ⟨reads_uintvar hsmall t, (valueLength_write ⟨h, hsmall⟩).reads h t⟩
  · intro hlarge c hc hrest
    exact uintvar_refuses hlarge h hc hrest

end Numbers

/-- The largest number that a uintvar brings over, and the first one that it does not. -/
theorem reads_numbers_56 :
    Reads 64 (uintvar 64) (writeUintvar (2 ^ 56 - 1)) [0x00] (some (2 ^ 56 - 1)) ∧
      Wp (uintvar 64) ⟨writeUintvar (2 ^ 56) ++ [0x00], 0⟩ fun v _ ↦ v = none :=
  ⟨((reads_numbers (by decide) [0x00]).2.2.1 (by decide)).1,
    (reads_numbers (by decide) [0x00]).2.2.2 (by decide) _ ⟨by decide, by decide⟩ rfl⟩

end Modem2Sip.Mms
