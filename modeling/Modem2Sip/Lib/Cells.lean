import Mathlib.Algebra.Order.Ring.Nat

/-!
# Cells that get wider

Numbers are put into cells of equal width up to a point, and from there on into sixteen cells for each
power of two.  A number is represented by the middle of its cell.  To do so twice is to do it once; it
keeps the order; and what is lost is a fixed part of the number.
-/

namespace Cells

/-- The width of the cell of a number is a power of two, with this exponent; it is not below `j`. -/
def level (j x : Nat) : Nat := max j (Nat.log2 x - 4)

def width (j x : Nat) : Nat := 2 ^ level j x

/-- Where the cell begins. -/
def floor (j x : Nat) : Nat := x / width j x * width j x

/-- The middle of the cell. -/
def mid (j x : Nat) : Nat := floor j x + width j x / 2

variable {j x y : Nat}

theorem width_pos (j x : Nat) : 0 < width j x := Nat.two_pow_pos _

theorem floor_le (j x : Nat) : floor j x ≤ x := Nat.div_mul_le_self x _

theorem lt_floor_add_width (j x : Nat) : x < floor j x + width j x := by
  have h := Nat.div_add_mod x (width j x)
  have hmod := Nat.mod_lt x (width_pos j x)
  rw [Nat.mul_comm] at h
  unfold floor
  omega

/-- Below the point from which on the cells get wider, and between two powers of two above it. -/
theorem level_cases (j x : Nat) : (level j x = j ∧ x < 2 ^ (j + 5)) ∨
    ∃ n, j < n ∧ level j x = n ∧ 2 ^ (n + 4) ≤ x ∧ x < 2 ^ (n + 5) := by
  by_cases hzero : x = 0
  · refine .inl ⟨?_, hzero ▸ Nat.two_pow_pos _⟩
    rw [level, hzero]
    exact max_eq_left (Nat.zero_le j)
  have hlow : 2 ^ Nat.log2 x ≤ x := Nat.log2_self_le hzero
  have hhigh : x < 2 ^ (Nat.log2 x + 1) := Nat.lt_log2_self
  by_cases hj : Nat.log2 x ≤ j + 4
  · refine .inl ⟨max_eq_left (by omega), hhigh.trans_le (Nat.pow_le_pow_right (by decide) (by omega))⟩
  · refine .inr ⟨Nat.log2 x - 4, by omega, max_eq_right (by omega), ?_, ?_⟩
    · rwa [Nat.sub_add_cancel (by omega)]
    · rwa [show Nat.log2 x - 4 + 5 = Nat.log2 x + 1 by omega]

theorem level_eq_of_lt (h : x < 2 ^ (j + 5)) : level j x = j := by
  rcases level_cases j x with ⟨hlevel, -⟩ | ⟨n, hn, -, hlow, -⟩
  · exact hlevel
  · have hpow : 2 ^ (j + 5) ≤ 2 ^ (n + 4) := Nat.pow_le_pow_right (by decide) (by omega)
    omega

theorem level_eq_of_le {n : Nat} (hn : j < n) (hlow : 2 ^ (n + 4) ≤ x) (hhigh : x < 2 ^ (n + 5)) :
    level j x = n := by
  have hne : x ≠ 0 := by
    have := Nat.two_pow_pos (n + 4)
    omega
  have hlog : Nat.log2 x = n + 4 := (Nat.log2_eq_iff hne).mpr ⟨hlow, hhigh⟩
  rw [level, hlog]
  exact max_eq_right (by omega)

/-- A cell does not reach over a multiple of a larger power of two. -/
theorem floor_add_width_le {n : Nat} (hn : level j x ≤ n) {m : Nat} (hx : x < m * 2 ^ n) :
    floor j x + width j x ≤ m * 2 ^ n := by
  have hpow : 2 ^ n = 2 ^ (n - level j x) * 2 ^ level j x := by
    rw [← Nat.pow_add, Nat.sub_add_cancel hn]
  rw [hpow, ← Nat.mul_assoc] at hx ⊢
  have hdiv : x / width j x < m * 2 ^ (n - level j x) := (Nat.div_lt_iff_lt_mul (width_pos j x)).mpr hx
  have hmul := Nat.mul_le_mul_right (width j x) (Nat.succ_le_of_lt hdiv)
  rw [Nat.succ_mul] at hmul
  exact hmul

theorem le_floor {n : Nat} (hn : level j x ≤ n) {m : Nat} (hx : m * 2 ^ n ≤ x) :
    m * 2 ^ n ≤ floor j x := by
  have hpow : 2 ^ n = 2 ^ (n - level j x) * 2 ^ level j x := by
    rw [← Nat.pow_add, Nat.sub_add_cancel hn]
  rw [hpow, ← Nat.mul_assoc] at hx ⊢
  exact Nat.mul_le_mul_right _ ((Nat.le_div_iff_mul_le (width_pos j x)).mpr hx)

/-- The numbers of a cell have the same cell. -/
theorem cell_eq (hlow : floor j x ≤ y) (hhigh : y < floor j x + width j x) :
    width j y = width j x ∧ floor j y = floor j x := by
  have hlevel : level j y = level j x := by
    rcases level_cases j x with ⟨hlevel, hx⟩ | ⟨n, hn, hlevel, hle, hlt⟩
    · have hx' : x < 2 ^ 5 * 2 ^ j := by rwa [← Nat.pow_add, Nat.add_comm]
      have htop := floor_add_width_le hlevel.le hx'
      rw [hlevel]
      refine level_eq_of_lt ?_
      rw [Nat.add_comm, Nat.pow_add]
      omega
    · have hle' : 2 ^ 4 * 2 ^ n ≤ x := by rwa [← Nat.pow_add, Nat.add_comm]
      have hlt' : x < 2 ^ 5 * 2 ^ n := by rwa [← Nat.pow_add, Nat.add_comm]
      have hbottom := le_floor hlevel.le hle'
      have htop := floor_add_width_le hlevel.le hlt'
      rw [hlevel]
      refine level_eq_of_le hn ?_ ?_
      · rw [Nat.add_comm, Nat.pow_add]
        omega
      · rw [Nat.add_comm, Nat.pow_add]
        omega
  have hwidth : width j y = width j x := congrArg (2 ^ ·) hlevel
  refine ⟨hwidth, ?_⟩
  have hdiv : y / width j x = x / width j x := by
    refine Nat.div_eq_of_lt_le hlow ?_
    rw [Nat.succ_mul]
    exact hhigh
  rw [floor, hwidth, hdiv, floor]

theorem mid_eq_of_mem (hlow : floor j x ≤ y) (hhigh : y < floor j x + width j x) :
    mid j y = mid j x := by
  obtain ⟨hwidth, hfloor⟩ := cell_eq hlow hhigh
  rw [mid, mid, hwidth, hfloor]

theorem mid_lt (j x : Nat) : mid j x < floor j x + width j x :=
  Nat.add_lt_add_left (Nat.div_lt_self (width_pos j x) (by decide)) _

/-- A number is not put in front of a smaller one. -/
theorem mid_mono (h : x ≤ y) : mid j x ≤ mid j y := by
  by_cases hx : y < floor j x + width j x
  · exact (mid_eq_of_mem ((floor_le j x).trans h) hx).ge
  · -- The cell of `y` begins behind that of `x`.
    have hfloor : floor j x + width j x ≤ floor j y := by
      by_contra hlt
      have hy := lt_floor_add_width j y
      rcases le_total (floor j x) (floor j y) with hle | hle
      · obtain ⟨hwidth, hsame⟩ := cell_eq hle (Nat.lt_of_not_le hlt)
        have hself := cell_eq (j := j) (x := y) (y := floor j y) (Nat.le_refl _)
          (Nat.lt_add_of_pos_right (width_pos j y))
        omega
      · obtain ⟨hwidth, hsame⟩ := cell_eq (j := j) (x := y) (y := x) (by
          have := floor_le j x
          omega) (by omega)
        omega
    have := mid_lt j x
    have : floor j y ≤ mid j y := Nat.le_add_right _ _
    omega

/-- The middle is at most half of the cell away. -/
theorem mid_sub_le (hj : 0 < j) (x : Nat) :
    mid j x ≤ x + width j x / 2 ∧ x + 1 ≤ mid j x + width j x / 2 := by
  have hlow := floor_le j x
  have hhigh := lt_floor_add_width j x
  have heven : width j x / 2 * 2 = width j x := by
    have hlevel : level j x = level j x - 1 + 1 := by
      have : j ≤ level j x := le_max_left _ _
      omega
    rw [width, hlevel, Nat.pow_succ, Nat.mul_div_cancel _ (by decide)]
  unfold mid
  omega

/-- A cell that is wider than the first ones is at most a sixteenth of its numbers. -/
theorem width_le (j x : Nat) : 16 * width j x ≤ max (16 * 2 ^ j) x := by
  rcases level_cases j x with ⟨hlevel, -⟩ | ⟨n, -, hlevel, hlow, -⟩
  · rw [width, hlevel]
    exact le_max_left _ _
  · rw [width, hlevel]
    refine le_max_of_le_right ?_
    rw [Nat.add_comm, Nat.pow_add] at hlow
    exact hlow

end Cells
