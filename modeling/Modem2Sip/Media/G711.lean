import Mathlib.Data.Nat.Bitwise
import Mathlib.Tactic.Ring
import Modem2Sip.Lib.Cells
import Modem2Sip.Media.Tones

/-!
# G.711

`audio/codec.rs`: the two companding laws.  Both put the magnitude of a sample into a cell and give the
number of the cell, and both are read back as the middle of the cell.
-/

namespace Modem2Sip.Media

/-! ## Coding and decoding -/

/-- The loops that look for the highest bit, from an exponent and its mask down. -/
def exponentLoop (low pcm : Nat) : Nat → Nat → Nat
  | 0, _ => 0
  | exp + 1, mask =>
    if low < exp + 1 ∧ pcm &&& mask = 0 then exponentLoop low pcm exp (mask >>> 1) else exp + 1

def clip : Nat := 32635

def bias : Nat := 0x84

/-- What both laws cut a magnitude into: the exponent in bits 4 to 6, and the mantissa below. -/
def fields (low pcm : Nat) : UInt8 :=
  let exponent := exponentLoop low pcm 7 0x4000
  (UInt8.ofNat exponent <<< 4) ||| UInt8.ofNat ((pcm >>> (exponent + 3)) &&& 0x0F)

def linearToUlaw (sample : Sample) : UInt8 :=
  let sign : UInt8 := if sample.toInt < 0 then 0x80 else 0
  let pcm := min sample.toInt.natAbs clip + bias
  ~~~(sign ||| fields 0 pcm)

def ulawToLinear (ulaw : UInt8) : Sample :=
  let u := ~~~ulaw
  let exponent := ((u >>> 4) &&& 0x07).toNat
  let mantissa := (u &&& 0x0F).toNat
  let sample : Int := (((mantissa <<< 3) + bias) <<< exponent : Nat) - bias
  if u &&& 0x80 ≠ 0 then .ofInt (-sample) else .ofInt sample

def linearToAlaw (sample : Sample) : UInt8 :=
  let sign : UInt8 := if sample.toInt < 0 then 0 else 0x80
  let pcm := min (if sample.toInt < 0 then -sample.toInt - 1 else sample.toInt).toNat clip
  let encoded := if pcm < 256 then UInt8.ofNat (pcm >>> 4) else fields 1 pcm
  (sign ||| encoded) ^^^ 0x55

def alawToLinear (alaw : UInt8) : Sample :=
  let a := alaw ^^^ 0x55
  let exponent := ((a >>> 4) &&& 0x07).toNat
  let mantissa := (a &&& 0x0F).toNat
  let sample := min
    (if exponent = 0 then (mantissa <<< 4) + 8 else ((mantissa <<< 4) + 0x108) <<< (exponent - 1)) 32767
  if a &&& 0x80 ≠ 0 then .ofInt sample else .ofInt (-sample)

inductive Law where
  | ulaw
  | alaw
deriving DecidableEq, Repr

/-- `encode`, whose buffer is cleared first. -/
def encode (law : Law) (pcm : List Sample) : List UInt8 :=
  match law with
  | .ulaw => pcm.map linearToUlaw
  | .alaw => pcm.map linearToAlaw

/-- `decode`. -/
def decode (law : Law) (payload : List UInt8) : List Sample :=
  match law with
  | .ulaw => payload.map ulawToLinear
  | .alaw => payload.map alawToLinear

/-! ## The highest bit -/

theorem and_two_pow_eq_zero {x n : Nat} (h : x < 2 ^ (n + 1)) : x &&& 2 ^ n = 0 ↔ x < 2 ^ n := by
  rw [Nat.and_two_pow]
  constructor
  · intro hzero
    by_contra hle
    have hbit : x.testBit n = true :=
      Nat.testBit_of_two_pow_le_and_two_pow_add_one_gt (Nat.le_of_not_lt hle) h
    rw [hbit, Bool.toNat_true, Nat.one_mul] at hzero
    exact absurd hzero (Nat.two_pow_pos n).ne'
  · intro hlt
    rw [Nat.testBit_lt_two_pow hlt]
    exact Nat.zero_mul _

/-- The loop ends at the highest bit, or at the exponent that is the last. -/
theorem exponentLoop_spec (low : Nat) {pcm : Nat} (exp : Nat) (hlow : low ≤ exp)
    (hhigh : pcm < 2 ^ (exp + 8)) (hle : 2 ^ (low + 7) ≤ pcm) :
    low ≤ exponentLoop low pcm exp (2 ^ (exp + 7)) ∧
      2 ^ (exponentLoop low pcm exp (2 ^ (exp + 7)) + 7) ≤ pcm ∧
        pcm < 2 ^ (exponentLoop low pcm exp (2 ^ (exp + 7)) + 8) := by
  induction exp with
  | zero =>
      obtain rfl : low = 0 := Nat.le_zero.mp hlow
      exact ⟨Nat.le_refl _, hle, hhigh⟩
  | succ exp ih =>
      have hbit := and_two_pow_eq_zero (n := exp + 8) hhigh
      have hmask : 2 ^ (exp + 1 + 7) >>> 1 = 2 ^ (exp + 7) := by
        rw [Nat.shiftRight_one, show exp + 1 + 7 = exp + 7 + 1 by omega, Nat.pow_succ,
          Nat.mul_div_cancel _ (by decide)]
      rw [exponentLoop]
      split
      · rename_i hgo
        rw [hmask]
        exact ih (by omega) (hbit.mp hgo.2)
      · rename_i hstop
        refine ⟨hlow, ?_, hhigh⟩
        by_cases hlast : low < exp + 1
        · by_contra hlt
          exact hstop ⟨hlast, hbit.mpr (Nat.lt_of_not_le hlt)⟩
        · obtain rfl : low = exp + 1 := by omega
          exact hle

/-- An exponent and a mantissa in their places. -/
def packed (exponent mantissa : Nat) : UInt8 := (UInt8.ofNat exponent <<< 4) ||| UInt8.ofNat mantissa

/-- They are found in their places again, whatever the sign. -/
theorem packed_spec {e m : Nat} (he : e < 8) (hm : m < 16) :
    (((0x80 ||| packed e m) >>> 4 &&& 0x07).toNat = e ∧ ((0x80 ||| packed e m) &&& 0x0F).toNat = m ∧
      (0x80 ||| packed e m) &&& 0x80 ≠ 0) ∧
    ((packed e m >>> 4 &&& 0x07).toNat = e ∧ (packed e m &&& 0x0F).toNat = m ∧
      ¬ packed e m &&& 0x80 ≠ 0) := by
  have hall : ∀ e : Fin 8, ∀ m : Fin 16,
      (((0x80 ||| packed e m) >>> 4 &&& 0x07).toNat = e ∧ ((0x80 ||| packed e m) &&& 0x0F).toNat = m ∧
        (0x80 ||| packed e m) &&& 0x80 ≠ 0) ∧
      ((packed e m >>> 4 &&& 0x07).toNat = e ∧ (packed e m &&& 0x0F).toNat = m ∧
        ¬ packed e m &&& 0x80 ≠ 0) := by decide +kernel
  exact hall ⟨e, he⟩ ⟨m, hm⟩

/-- What the fields say about the magnitude. -/
structure Fields (low pcm e m : Nat) : Prop where
  fields_eq : fields low pcm = packed e m
  low_le : low ≤ e
  e_lt : e < 8
  m_lt : m < 16
  le : 2 ^ (e + 7) ≤ pcm
  lt : pcm < 2 ^ (e + 8)
  div_eq : pcm / 2 ^ (e + 3) = 16 + m

theorem exists_fields (low : Nat) {pcm : Nat} (hlow : low ≤ 7) (hle : 2 ^ (low + 7) ≤ pcm) (hlt : pcm < 2 ^ 15) :
    ∃ e m, Fields low pcm e m := by
  obtain ⟨hloop, hbottom, htop⟩ := exponentLoop_spec low 7 hlow hlt hle
  generalize he : exponentLoop low pcm 7 (2 ^ (7 + 7)) = e at hloop hbottom htop
  have he8 : e < 8 := by
    by_contra h
    have hpow : 2 ^ 15 ≤ 2 ^ (e + 7) := Nat.pow_le_pow_right (by decide) (by omega)
    omega
  have hlower : 16 ≤ pcm / 2 ^ (e + 3) := by
    rw [Nat.le_div_iff_mul_le (Nat.two_pow_pos _), show 16 = 2 ^ 4 from rfl, ← Nat.pow_add]
    rwa [show 4 + (e + 3) = e + 7 by omega]
  have hupper : pcm / 2 ^ (e + 3) < 32 := by
    rw [Nat.div_lt_iff_lt_mul (Nat.two_pow_pos _), show 32 = 2 ^ 5 from rfl, ← Nat.pow_add]
    rwa [show 5 + (e + 3) = e + 8 by omega]
  have hmantissa : (pcm >>> (e + 3)) &&& 0x0F = pcm / 2 ^ (e + 3) - 16 := by
    rw [Nat.shiftRight_eq_div_pow, show 0x0F = 2 ^ 4 - 1 from rfl, Nat.and_two_pow_sub_one_eq_mod]
    omega
  refine ⟨e, pcm / 2 ^ (e + 3) - 16, ?_, hloop, he8, by omega, hbottom, htop, by omega⟩
  have hmask : 0x4000 = 2 ^ (7 + 7) := rfl
  unfold fields
  dsimp only
  rw [hmask, he, hmantissa]
  rfl

/-- The middle of the cell that the fields name. -/
theorem Fields.mid_eq {low pcm e m j : Nat} (h : Fields low pcm e m) (hj : 0 < j) (hlevel : j ≤ e + 3)
    (hfirst : j < e + 3 ∨ pcm < 2 ^ (j + 5)) :
    Cells.mid j pcm = (16 + m) * 2 ^ (e + 3) + 2 ^ (e + 2) := by
  have hcell : Cells.level j pcm = e + 3 := by
    rcases Nat.lt_or_ge j (e + 3) with hlt | hge
    · exact Cells.level_eq_of_le hlt h.le h.lt
    · obtain rfl : j = e + 3 := by omega
      exact Cells.level_eq_of_lt (hfirst.resolve_left (Nat.lt_irrefl _))
  have hhalf : 2 ^ (e + 3) / 2 = 2 ^ (e + 2) := by
    rw [Nat.pow_succ, Nat.mul_div_cancel _ (by decide)]
  rw [Cells.mid, Cells.floor, Cells.width, hcell, h.div_eq, hhalf]

/-! ## There and back -/

/-- A sample after it was coded and decoded. -/
def hop : Law → Sample → Sample
  | .ulaw, s => ulawToLinear (linearToUlaw s)
  | .alaw, s => alawToLinear (linearToAlaw s)

/-- The magnitude that a law looks at. -/
def Law.magnitude : Law → Int → Nat
  | .ulaw, x => min x.natAbs clip + bias
  | .alaw, x => min (if x < 0 then -x - 1 else x).toNat clip

/-- The exponent of the narrowest cells. -/
def Law.level : Law → Nat
  | .ulaw => 3
  | .alaw => 4

/-- What is taken from the middle of the cell again. -/
def Law.offset : Law → Nat
  | .ulaw => bias
  | .alaw => 0

/-- The magnitude that comes back. -/
def Law.back (law : Law) (x : Int) : Nat := Cells.mid law.level (law.magnitude x) - law.offset

def Law.value (law : Law) (x : Int) : Int := if x < 0 then -law.back x else law.back x

theorem toInt_ofInt_of_lt {v : Nat} (h : v < 2 ^ 15) :
    (Int16.ofInt v).toInt = v ∧ (Int16.ofInt (-v)).toInt = -v :=
  ⟨Int16.toInt_ofInt_of_le (by omega) (by omega), Int16.toInt_ofInt_of_le (by omega) (by omega)⟩

theorem magnitude_lt (law : Law) (x : Int) : law.magnitude x < 2 ^ 15 := by
  cases law with
  | ulaw => exact (Nat.add_le_add_right (Nat.min_le_right x.natAbs clip) bias).trans_lt (by decide)
  | alaw => exact (Nat.min_le_right _ clip).trans_lt (by decide)

theorem offset_le_magnitude (law : Law) (x : Int) : law.offset ≤ law.magnitude x := by
  cases law with
  | ulaw => exact Nat.le_add_left _ _
  | alaw => exact Nat.zero_le _

theorem mid_magnitude_lt (law : Law) (x : Int) : Cells.mid law.level (law.magnitude x) < 2 ^ 15 := by
  have hmono := Cells.mid_mono (j := law.level) (Nat.le_pred_of_lt (magnitude_lt law x))
  have htop : Cells.mid law.level (2 ^ 15 - 1) < 2 ^ 15 := by cases law <;> decide
  exact Nat.lt_of_le_of_lt hmono htop

theorem offset_le_mid (law : Law) (x : Int) :
    law.offset ≤ Cells.mid law.level (law.magnitude x) := by
  have hmono := Cells.mid_mono (j := law.level) (offset_le_magnitude law x)
  have hoffset : law.offset ≤ Cells.mid law.level law.offset := by cases law <;> decide
  exact hoffset.trans hmono

theorem back_lt (law : Law) (x : Int) : law.back x < 2 ^ 15 :=
  (Nat.sub_le _ _).trans_lt (mid_magnitude_lt law x)

theorem toInt_ulaw (s : Sample) : (hop .ulaw s).toInt = Law.ulaw.value s.toInt := by
  have hback := back_lt .ulaw s.toInt
  obtain ⟨hpos, hneg⟩ := toInt_ofInt_of_lt hback
  have hmagnitude : Law.ulaw.magnitude s.toInt = min s.toInt.natAbs clip + bias := rfl
  obtain ⟨e, m, h⟩ := exists_fields 0 (by decide)
    ((show 2 ^ (0 + 7) ≤ bias by decide).trans (offset_le_magnitude .ulaw s.toInt))
    (magnitude_lt .ulaw s.toInt)
  have hmid := h.mid_eq (j := 3) (by decide) (by omega) (by
    have := h.lt
    by_cases he : e = 0
    · subst he
      exact .inr this
    · exact .inl (by omega))
  have hsample : (((m <<< 3) + bias) <<< e : Nat) = Cells.mid 3 (Law.ulaw.magnitude s.toInt) := by
    rw [hmid, Nat.shiftLeft_eq, Nat.shiftLeft_eq, Nat.pow_add, Nat.pow_add, bias]
    ring
  have hvalue : ((((m <<< 3) + bias) <<< e : Nat) : Int) - bias = (Law.ulaw.back s.toInt : Nat) := by
    have hle := offset_le_mid .ulaw s.toInt
    rw [hsample]
    exact (Int.ofNat_sub hle).symm
  obtain ⟨⟨he, hm, hs⟩, ⟨he', hm', hs'⟩⟩ := packed_spec h.e_lt h.m_lt
  rw [hmagnitude] at h
  unfold hop linearToUlaw ulawToLinear Law.value
  dsimp only
  rw [h.fields_eq, UInt8.not_not]
  by_cases hsign : s.toInt < 0
  · rw [if_pos hsign, if_pos hsign, he, hm, if_pos hs, hvalue, hneg]
  · rw [if_neg hsign, if_neg hsign, UInt8.zero_or, he', hm', if_neg hs', hvalue, hpos]

/-- The cell of a magnitude under the A-law, where the first cells have no leading bit. -/
theorem exists_packed {pcm : Nat} (hlt : pcm < 2 ^ 15) :
    ∃ e m, (if pcm < 256 then UInt8.ofNat (pcm >>> 4) else fields 1 pcm) = packed e m ∧ e < 8 ∧ m < 16 ∧
      (if e = 0 then (m <<< 4) + 8 else ((m <<< 4) + 0x108) <<< (e - 1)) = Cells.mid 4 pcm := by
  by_cases hsmall : pcm < 256
  · have hcell : Cells.level 4 pcm = 4 := Cells.level_eq_of_lt (hsmall.trans (by decide))
    refine ⟨0, pcm / 16, ?_, by decide, by omega, ?_⟩
    · rw [if_pos hsmall, Nat.shiftRight_eq_div_pow]
      exact (UInt8.zero_or).symm
    · rw [if_pos rfl, Cells.mid, Cells.floor, Cells.width, hcell, Nat.shiftLeft_eq]
      omega
  · obtain ⟨e, m, h⟩ := exists_fields 1 (by decide) (Nat.le_of_not_lt hsmall) hlt
    have hlow := h.low_le
    have hmid := h.mid_eq (j := 4) (by decide) (by omega) (by
      have := h.lt
      by_cases he : e = 1
      · subst he
        exact .inr this
      · exact .inl (by omega))
    refine ⟨e, m, ?_, h.e_lt, h.m_lt, ?_⟩
    · rw [if_neg hsmall]
      exact h.fields_eq
    · obtain ⟨k, rfl⟩ : ∃ k, e = k + 1 := ⟨e - 1, by omega⟩
      rw [if_neg (Nat.succ_ne_zero k), hmid, Nat.shiftLeft_eq, Nat.shiftLeft_eq, Nat.add_sub_cancel]
      ring

theorem toInt_alaw (s : Sample) : (hop .alaw s).toInt = Law.alaw.value s.toInt := by
  have hback := back_lt .alaw s.toInt
  obtain ⟨hpos, hneg⟩ := toInt_ofInt_of_lt hback
  have hmagnitude : min (if s.toInt < 0 then -s.toInt - 1 else s.toInt).toNat clip =
      Law.alaw.magnitude s.toInt := rfl
  have hmid : Cells.mid 4 (Law.alaw.magnitude s.toInt) = Law.alaw.back s.toInt := rfl
  obtain ⟨e, m, hpacked, he8, hm16, hsample⟩ := exists_packed (magnitude_lt .alaw s.toInt)
  obtain ⟨⟨he, hm, hs⟩, ⟨he', hm', hs'⟩⟩ := packed_spec he8 hm16
  unfold hop linearToAlaw alawToLinear Law.value
  dsimp only
  rw [hmagnitude, hpacked, UInt8.xor_assoc, UInt8.xor_self, UInt8.xor_zero]
  by_cases hsign : s.toInt < 0
  · rw [if_pos hsign, if_pos hsign, UInt8.zero_or, he', hm', if_neg hs', hsample, hmid,
      min_eq_left (by omega), hneg]
  · rw [if_neg hsign, if_neg hsign, he, hm, if_pos hs, hsample, hmid, min_eq_left (by omega), hpos]

theorem toInt_hop (law : Law) (s : Sample) : (hop law s).toInt = law.value s.toInt := by
  cases law with
  | ulaw => exact toInt_ulaw s
  | alaw => exact toInt_alaw s

/-! ## What a leg does to a call -/

/-- The samples between which a law does not clip. -/
def Law.limit : Law → Int → Int
  | .ulaw, x => max (-clip) (min x clip)
  | .alaw, x => max (-clip - 1) (min x clip)

theorem value_near (law : Law) (x : Int) :
    32 * (law.value x - law.limit x).natAbs ≤ (law.limit x).natAbs + 256 := by
  have hnear := Cells.mid_sub_le (j := law.level) (by cases law <;> decide) (law.magnitude x)
  have hwidth := Cells.width_le law.level (law.magnitude x)
  have hoffset := offset_le_mid law x
  generalize hw : Cells.width law.level (law.magnitude x) = w at hnear hwidth
  unfold Law.value Law.back
  generalize Cells.mid law.level (law.magnitude x) = mid at hnear hoffset ⊢
  cases law with
  | ulaw =>
      dsimp only [Law.magnitude, Law.level, Law.offset, Law.limit, clip, bias] at *
      split <;> omega
  | alaw =>
      dsimp only [Law.magnitude, Law.level, Law.offset, Law.limit, clip, bias] at *
      split <;> omega

theorem magnitude_le (law : Law) (x : Int) : law.magnitude x ≤ clip + law.offset := by
  cases law with
  | ulaw => exact Nat.add_le_add_right (Nat.min_le_right _ _) _
  | alaw => exact Nat.min_le_right _ _

theorem back_le_clip (law : Law) (x : Int) : law.back x ≤ clip := by
  have hmono := Cells.mid_mono (j := law.level) (magnitude_le law x)
  have htop : Cells.mid law.level (clip + law.offset) ≤ clip + law.offset := by
    cases law <;> decide
  exact Nat.sub_le_iff_le_add.mpr (hmono.trans htop)

theorem value_mono (law : Law) {x y : Int} (h : x ≤ y) : law.value x ≤ law.value y := by
  -- On either side of zero the magnitudes are in order, or in the opposite one.
  have hback {a b : Int} (hab : law.magnitude a ≤ law.magnitude b) : law.back a ≤ law.back b :=
    Nat.sub_le_sub_right (Cells.mid_mono hab) _
  unfold Law.value
  split
  · split
    · have hmagnitude : law.magnitude y ≤ law.magnitude x := by
        cases law <;> dsimp only [Law.magnitude, clip] <;> omega
      exact Int.neg_le_neg (Int.ofNat_le.mpr (hback hmagnitude))
    · omega
  · have hmagnitude : law.magnitude x ≤ law.magnitude y := by
      cases law <;> dsimp only [Law.magnitude, clip] <;> omega
    rw [if_neg (by omega)]
    exact Int.ofNat_le.mpr (hback hmagnitude)

/-- The magnitude that comes back is the middle of the cell, or the one below it. -/
theorem magnitude_value (law : Law) (x : Int) :
    law.magnitude (law.value x) ≤ Cells.mid law.level (law.magnitude x) ∧
      Cells.mid law.level (law.magnitude x) ≤ law.magnitude (law.value x) + 1 := by
  have hclip := back_le_clip law x
  have hoffset := offset_le_mid law x
  have hback : law.back x = Cells.mid law.level (law.magnitude x) - law.offset := rfl
  rw [Law.value]
  generalize Cells.mid law.level (law.magnitude x) = mid at hoffset hback ⊢
  generalize law.back x = back at hclip hback ⊢
  cases law with
  | ulaw =>
      dsimp only [Law.offset, Law.magnitude] at *
      split <;> omega
  | alaw =>
      dsimp only [Law.offset, Law.magnitude] at *
      split <;> split <;> omega

/-- The magnitude that came back is in the cell that was left. -/
theorem back_value (law : Law) (x : Int) : law.back (law.value x) = law.back x := by
  obtain ⟨hle, hge⟩ := magnitude_value law x
  have hmid : Cells.mid law.level (law.magnitude x) =
      Cells.floor law.level (law.magnitude x) + Cells.width law.level (law.magnitude x) / 2 := rfl
  have hwidth : 2 ^ 1 ≤ Cells.width law.level (law.magnitude x) :=
    Nat.pow_le_pow_right (by decide) ((show 1 ≤ law.level by cases law <;> decide).trans (le_max_left _ _))
  have hcell : Cells.mid law.level (law.magnitude (law.value x)) = Cells.mid law.level (law.magnitude x) :=
    Cells.mid_eq_of_mem (by omega) (by omega)
  rw [Law.back, hcell, Law.back]

theorem value_value (law : Law) (x : Int) : law.value (law.value x) = law.value x := by
  have hback := back_value law x
  rw [Law.value, hback]
  unfold Law.value
  split <;> omega

theorem hop_hop (law : Law) (s : Sample) : hop law (hop law s) = hop law s := by
  apply Int16.toInt_inj.mp
  rw [toInt_hop, toInt_hop, value_value]

theorem decode_encode (law : Law) (pcm : List Sample) : decode law (encode law pcm) = pcm.map (hop law) := by
  cases law <;> exact List.map_map

/-- A call over any number of legs under one law, coded and decoded on each: the first leg is the only one
that changes it.  Every sample stays within its clip and about a thirtieth of its size, and no louder
sample ends below a softer one. -/
theorem legs (law : Law) (pcm : List Sample) (n : Nat) :
    (decode law ∘ encode law)^[n + 1] pcm = pcm.map (hop law) ∧
      (∀ s, 32 * ((hop law s).toInt - law.limit s.toInt).natAbs ≤ (law.limit s.toInt).natAbs + 256) ∧
      ∀ s t : Sample, s ≤ t → hop law s ≤ hop law t := by
  refine ⟨?_, ?_, ?_⟩
  · induction n generalizing pcm with
    | zero => exact decode_encode law pcm
    | succ n ih =>
        rw [Function.iterate_succ_apply, ih, Function.comp_apply, decode_encode, List.map_map]
        refine List.map_congr_left ?_
        intro s _
        exact hop_hop law s
  · intro s
    rw [toInt_hop]
    exact value_near law s.toInt
  · intro s t h
    rw [Int16.le_iff_toInt_le] at h ⊢
    rw [toInt_hop, toInt_hop]
    exact value_mono law h

end Modem2Sip.Media
