import Mathlib.Data.BitVec

/-!
# Words with a common prefix

Two words of one width agree up to a length if their first bits are the same, counted
from the most significant one.  Words that agree up to a length agree up to every
shorter one, and a mask that keeps the first bits alone decides it.
-/

namespace Prefix

variable {w len : Nat} {x y : BitVec w}

/-- The first `len` bits of the two words are the same. -/
def Agree (len : Nat) (x y : BitVec w) : Prop := ∀ i < len, x.getMsbD i = y.getMsbD i

instance : Decidable (Agree len x y) := inferInstanceAs (Decidable (∀ i < len, _))

theorem Agree.mono (h : Agree len x y) {shorter : Nat} (hle : shorter ≤ len) : Agree shorter x y :=
  fun i hi ↦ h i (hi.trans_le hle)

/-- All ones, moved up until `len` of them are left. -/
theorem getMsbD_allOnes_shiftLeft (hlen : len ≤ w) (i : Nat) :
    (BitVec.allOnes w <<< (w - len)).getMsbD i = decide (i < len) := by
  rw [BitVec.getMsbD_shiftLeft, BitVec.getMsbD_allOnes]
  simp only [decide_eq_decide]
  omega

/-- A mask that keeps the first `len` bits tells whether they are the same. -/
theorem and_eq_and_iff {mask : BitVec w} (hlen : len ≤ w)
    (hmask : ∀ i < w, mask.getMsbD i = decide (i < len)) :
    x &&& mask = y &&& mask ↔ Agree len x y := by
  constructor
  · intro h i hi
    have hbit := congrArg (fun z : BitVec w ↦ z.getMsbD i) h
    simpa [BitVec.getMsbD_and, hmask i (hi.trans_le hlen), hi] using hbit
  · intro h
    refine BitVec.eq_of_getMsbD_eq fun i hi ↦ ?_
    rw [BitVec.getMsbD_and, BitVec.getMsbD_and, hmask i hi]
    by_cases hkept : i < len
    · rw [h i hkept]
    · rw [decide_eq_false hkept, Bool.and_false, Bool.and_false]

end Prefix
