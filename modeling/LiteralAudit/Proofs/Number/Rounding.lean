import Mathlib

/-!
# Rounding to the nearest float

A float of 64 bits that is not negative is `m * 2 ^ e` with fewer than 53 binary digits in `m` and `e`
at least -1074. `nearest x` is the float nearest to a rational number, the even one of two that are as
near: the exponent comes from the size of the number (`gridExponent`), the digits from rounding to an
integer (`nearestEven`). Nothing here is bounded from above, so that overflow does not occur.

Rounding keeps the order (`nearest_mono`) and leaves floats as they are (`nearest_of_onGrid`).
-/

namespace LiteralAudit.Number

/-! ## Integers -/

/-- The integer nearest to a number that is not negative, the even one of two. -/
def nearestEven (x : ℚ) : ℕ :=
  if x - ⌊x⌋₊ < 1 / 2 then ⌊x⌋₊
  else if 1 / 2 < x - ⌊x⌋₊ then ⌊x⌋₊ + 1
  else ⌊x⌋₊ + ⌊x⌋₊ % 2

theorem floor_le_nearestEven (x : ℚ) : ⌊x⌋₊ ≤ nearestEven x := by
  unfold nearestEven
  split
  · exact le_rfl
  · split <;> omega

theorem nearestEven_le_floor_succ (x : ℚ) : nearestEven x ≤ ⌊x⌋₊ + 1 := by
  unfold nearestEven
  split
  · omega
  · split <;> omega

theorem nearestEven_mono {x y : ℚ} (h : x ≤ y) : nearestEven x ≤ nearestEven y := by
  obtain hlt | heq := (Nat.floor_mono h).lt_or_eq
  · calc nearestEven x ≤ ⌊x⌋₊ + 1 := nearestEven_le_floor_succ x
      _ ≤ ⌊y⌋₊ := hlt
      _ ≤ nearestEven y := floor_le_nearestEven y
  · -- with one integer part, the fractions decide
    have hfraction : x - ⌊y⌋₊ ≤ y - ⌊y⌋₊ := by linarith
    unfold nearestEven
    rw [heq]
    by_cases hx : x - ⌊y⌋₊ < 1 / 2
    · rw [if_pos hx]
      exact floor_le_nearestEven y
    · by_cases hy : 1 / 2 < y - ⌊y⌋₊
      · rw [if_neg hx, if_neg (by linarith : ¬y - ⌊y⌋₊ < 1 / 2), if_pos hy]
        split <;> omega
      · rw [if_neg hx, if_neg (by linarith : ¬y - ⌊y⌋₊ < 1 / 2), if_neg hy,
          if_neg (by linarith : ¬1 / 2 < x - ⌊y⌋₊)]

@[simp] theorem nearestEven_natCast (n : ℕ) : nearestEven n = n := by
  simp [nearestEven]

/-! ## Floats -/

/-- The exponent of the floats around a number: 53 binary digits, as long as it is not too small. -/
def gridExponent (x : ℚ) : ℤ := max (Int.log 2 x - 52) (-1074)

/-- The float nearest to a number that is not negative. -/
def nearest (x : ℚ) : ℚ := nearestEven (x / 2 ^ gridExponent x) * 2 ^ gridExponent x

/-- Digits and exponent of a float. -/
structure OnGrid (m : ℕ) (e : ℤ) : Prop where
  lt : m < 2 ^ 53
  ge : -1074 ≤ e
  full : 2 ^ 52 ≤ m ∨ e = -1074

theorem two_zpow_pos (e : ℤ) : (0 : ℚ) < 2 ^ e := zpow_pos (by norm_num) e

theorem two_zpow_add (e f : ℤ) : (2 : ℚ) ^ (e + f) = 2 ^ e * 2 ^ f := zpow_add₀ (by norm_num) e f

theorem two_zpow_le {e f : ℤ} (h : e ≤ f) : (2 : ℚ) ^ e ≤ 2 ^ f := zpow_le_zpow_right₀ (by norm_num) h

theorem grid_pos {m : ℕ} (hm : 0 < m) (e : ℤ) : (0 : ℚ) < m * 2 ^ e :=
  mul_pos (by exact_mod_cast hm) (two_zpow_pos e)

theorem log_eq_iff {x : ℚ} (hx : 0 < x) (k : ℤ) :
    Int.log 2 x = k ↔ (2 : ℚ) ^ k ≤ x ∧ x < 2 ^ (k + 1) := by
  have hle := Int.zpow_le_iff_le_log (b := 2) (x := k) one_lt_two hx
  have hlt := Int.lt_zpow_iff_log_lt (b := 2) (x := k + 1) one_lt_two hx
  push_cast at hle hlt
  rw [hle, hlt]
  omega

theorem neg_le_gridExponent (x : ℚ) : -1074 ≤ gridExponent x := le_max_right _ _

theorem gridExponent_mono {x y : ℚ} (hx : 0 < x) (h : x ≤ y) : gridExponent x ≤ gridExponent y :=
  max_le_max_right _ (sub_le_sub_right (Int.log_mono_right hx h) 52)

/-- A number lies below the 53 digits of its exponent. -/
theorem div_grid_lt (x : ℚ) : x / 2 ^ gridExponent x < 2 ^ 53 := by
  rw [div_lt_iff₀ (two_zpow_pos _)]
  calc x < 2 ^ (Int.log 2 x + 1) := by exact_mod_cast Int.lt_zpow_succ_log_self one_lt_two x
    _ ≤ 2 ^ (53 + gridExponent x) := two_zpow_le (by unfold gridExponent; omega)
    _ = 2 ^ 53 * 2 ^ gridExponent x := by rw [two_zpow_add]; norm_cast

/-- Unless the exponent is the least one, a number needs all 53 digits. -/
theorem le_div_grid {x : ℚ} (hx : 0 < x) (h : gridExponent x ≠ -1074) :
    2 ^ 52 ≤ x / 2 ^ gridExponent x := by
  rw [le_div_iff₀ (two_zpow_pos _)]
  calc (2 : ℚ) ^ 52 * 2 ^ gridExponent x = 2 ^ (52 + gridExponent x) := by
        rw [two_zpow_add]; norm_cast
    _ ≤ 2 ^ Int.log 2 x := two_zpow_le (by unfold gridExponent at h ⊢; omega)
    _ ≤ x := by exact_mod_cast Int.zpow_log_le_self one_lt_two hx

theorem nearestEven_grid_le (x : ℚ) : nearestEven (x / 2 ^ gridExponent x) ≤ 2 ^ 53 := by
  have h := nearestEven_mono (div_grid_lt x).le
  have hpow : nearestEven (2 ^ 53) = 2 ^ 53 := by exact_mod_cast nearestEven_natCast (2 ^ 53)
  rwa [hpow] at h

theorem le_nearestEven_grid {x : ℚ} (hx : 0 < x) (h : gridExponent x ≠ -1074) :
    2 ^ 52 ≤ nearestEven (x / 2 ^ gridExponent x) := by
  have h := nearestEven_mono (le_div_grid hx h)
  have hpow : nearestEven (2 ^ 52) = 2 ^ 52 := by exact_mod_cast nearestEven_natCast (2 ^ 52)
  rwa [hpow] at h

@[simp] theorem nearest_zero : nearest 0 = 0 := by
  have h : nearestEven 0 = 0 := by exact_mod_cast nearestEven_natCast 0
  simp [nearest, h]

theorem nearest_nonneg (x : ℚ) : 0 ≤ nearest x :=
  mul_nonneg (Nat.cast_nonneg _) (two_zpow_pos _).le

theorem nearest_mono {x y : ℚ} (hx : 0 ≤ x) (h : x ≤ y) : nearest x ≤ nearest y := by
  obtain rfl | hx := hx.eq_or_lt
  · rw [nearest_zero]
    exact nearest_nonneg y
  have hy : 0 < y := hx.trans_le h
  unfold nearest
  obtain hlt | heq := (gridExponent_mono hx h).lt_or_eq
  · -- one power of two lies between the rounded numbers
    have hx53 : (nearestEven (x / 2 ^ gridExponent x) : ℚ) ≤ 2 ^ 53 := by
      exact_mod_cast nearestEven_grid_le x
    have hy52 : (2 : ℚ) ^ 52 ≤ nearestEven (y / 2 ^ gridExponent y) := by
      have hne : gridExponent y ≠ -1074 := by
        have := neg_le_gridExponent x
        omega
      exact_mod_cast le_nearestEven_grid hy hne
    calc nearestEven (x / 2 ^ gridExponent x) * (2 : ℚ) ^ gridExponent x
        ≤ 2 ^ 53 * 2 ^ gridExponent x := mul_le_mul_of_nonneg_right hx53 (two_zpow_pos _).le
      _ = 2 ^ 52 * 2 ^ (1 + gridExponent x) := by rw [two_zpow_add]; ring
      _ ≤ 2 ^ 52 * 2 ^ gridExponent y :=
        mul_le_mul_of_nonneg_left (two_zpow_le (by omega)) (by norm_num)
      _ ≤ nearestEven (y / 2 ^ gridExponent y) * 2 ^ gridExponent y :=
        mul_le_mul_of_nonneg_right hy52 (two_zpow_pos _).le
  · rw [heq]
    have hdigits := nearestEven_mono (div_le_div_of_nonneg_right h (two_zpow_pos (gridExponent y)).le)
    exact mul_le_mul_of_nonneg_right (by exact_mod_cast hdigits) (two_zpow_pos _).le

theorem gridExponent_of_onGrid {m : ℕ} {e : ℤ} (hm : 0 < m) (h : OnGrid m e) :
    gridExponent (m * 2 ^ e) = e := by
  have hpos := grid_pos hm e
  have hlt : (m * 2 ^ e : ℚ) < 2 ^ (53 + e) := by
    rw [two_zpow_add]
    exact mul_lt_mul_of_pos_right (by exact_mod_cast h.lt) (two_zpow_pos e)
  have hlog : Int.log 2 (m * 2 ^ e : ℚ) < 53 + e :=
    (Int.lt_zpow_iff_log_lt one_lt_two hpos).1 (by exact_mod_cast hlt)
  obtain hfull | rfl := h.full
  · have hle : (2 : ℚ) ^ (52 + e) ≤ m * 2 ^ e := by
      rw [two_zpow_add]
      exact mul_le_mul_of_nonneg_right (by exact_mod_cast hfull) (two_zpow_pos e).le
    have hlog52 : 52 + e ≤ Int.log 2 (m * 2 ^ e : ℚ) :=
      (Int.zpow_le_iff_le_log one_lt_two hpos).1 (by exact_mod_cast hle)
    have := h.ge
    unfold gridExponent
    omega
  · unfold gridExponent
    omega

theorem nearest_of_onGrid {m : ℕ} {e : ℤ} (hm : 0 < m) (h : OnGrid m e) :
    nearest (m * 2 ^ e) = m * 2 ^ e := by
  rw [nearest, gridExponent_of_onGrid hm h, mul_div_cancel_right₀ _ (two_zpow_pos e).ne',
    nearestEven_natCast]

theorem nearest_two_pow (k : ℕ) : nearest (2 ^ k) = 2 ^ k := by
  obtain ⟨e, he⟩ : ∃ e : ℤ, e = k - 52 := ⟨_, rfl⟩
  have hvalue : ((2 ^ 52 : ℕ) : ℚ) * 2 ^ e = 2 ^ k := by
    rw [show ((2 ^ 52 : ℕ) : ℚ) = 2 ^ (52 : ℤ) by norm_cast, ← two_zpow_add, ← zpow_natCast]
    congr 1
    omega
  rw [← hvalue]
  exact nearest_of_onGrid (by norm_num) ⟨by norm_num, by omega, .inl le_rfl⟩

/-- Integers of 53 binary digits are floats. -/
theorem nearest_natCast {n : ℕ} (h : n < 2 ^ 53) : nearest n = n := by
  obtain rfl | hpos := n.eq_zero_or_pos
  · simp
  have hlog : n.log2 < 53 := (Nat.log2_lt hpos.ne').2 h
  obtain ⟨k, hk⟩ : ∃ k, n.log2 + k = 52 := ⟨52 - n.log2, by omega⟩
  have hvalue : ((n * 2 ^ k : ℕ) : ℚ) * 2 ^ (-k : ℤ) = n := by
    push_cast
    rw [mul_assoc, ← zpow_natCast, ← two_zpow_add, add_neg_cancel, zpow_zero, mul_one]
  have hlow : 2 ^ 52 ≤ n * 2 ^ k := by
    rw [← hk, pow_add]
    exact Nat.mul_le_mul_right _ (Nat.log2_self_le hpos.ne')
  have hhigh : n * 2 ^ k < 2 ^ 53 := by
    calc n * 2 ^ k < 2 ^ (n.log2 + 1) * 2 ^ k :=
          Nat.mul_lt_mul_of_pos_right Nat.lt_log2_self (Nat.two_pow_pos k)
      _ = 2 ^ 53 := by rw [← pow_add]; congr 1; omega
  rw [← hvalue]
  exact nearest_of_onGrid (Nat.mul_pos hpos (Nat.two_pow_pos k)) ⟨hhigh, by omega, .inl hlow⟩

/-- Rounding stays below the powers of two. -/
theorem nearest_le_two_pow {x : ℚ} (hx : 0 ≤ x) {k : ℕ} (h : x ≤ 2 ^ k) : nearest x ≤ 2 ^ k :=
  nearest_two_pow k ▸ nearest_mono hx h

end LiteralAudit.Number

/-!
## What float arithmetic computes

A float that is not negative stands for a rational number (`Denotes`). Products, quotients, differences
and conversions of such floats are the exact results, rounded to the nearest float (`nearest`), and
comparing them is comparing the numbers. Rounding works on a mantissa whose lost digits are remembered
as two bits: `Located` says which numbers those bits leave possible, one shift halves the number
(`Located.shiftRight`), and the digits that come out are `nearestEven` (`Located.roundedMantissa_eq`).
-/

namespace LiteralAudit.Number

open Float.Model Float.Model.UnpackedFloat

/-! ## Mantissas with lost digits -/

/-- The mantissa is what is left of the number: the round bit is its next binary digit, the sticky bit
tells whether any digit follows. -/
def Located : ExtendedMantissa → ℚ → Prop
  | ⟨m, false, false⟩, x => x = m
  | ⟨m, false, true⟩, x => m < x ∧ x < m + 1 / 2
  | ⟨m, true, false⟩, x => x = m + 1 / 2
  | ⟨m, true, true⟩, x => m + 1 / 2 < x ∧ x < m + 1

theorem Located.bounds {a : ExtendedMantissa} {x : ℚ} (h : Located a x) :
    a.mantissa ≤ x ∧ x < a.mantissa + 1 := by
  obtain ⟨m, round, sticky⟩ := a
  cases round <;> cases sticky <;> simp only [Located] at h ⊢ <;> constructor <;> linarith

theorem Located.floor_eq {a : ExtendedMantissa} {x : ℚ} (h : Located a x) : ⌊x⌋₊ = a.mantissa := by
  obtain ⟨hle, hlt⟩ := h.bounds
  exact (Nat.floor_eq_iff ((Nat.cast_nonneg _).trans hle)).2 ⟨hle, hlt⟩

theorem Located.roundedMantissa_eq {a : ExtendedMantissa} {x : ℚ} (h : Located a x) :
    a.roundedMantissa = nearestEven x := by
  have hfloor := h.floor_eq
  unfold nearestEven
  rw [hfloor]
  obtain ⟨m, round, sticky⟩ := a
  cases round <;> cases sticky <;> simp only [Located] at h ⊢
  · rw [if_pos (by linarith)]; rfl
  · rw [if_pos (by linarith)]; rfl
  · rw [if_neg (by linarith), if_neg (by linarith)]; rfl
  · rw [if_neg (by linarith), if_pos (by linarith)]; rfl

/-- Shifting out a digit halves the number. -/
theorem Located.shiftRightOne {a : ExtendedMantissa} {x : ℚ} (h : Located a x) :
    Located a.shiftRightOne (x / 2) := by
  obtain ⟨m, round, sticky⟩ := a
  obtain ⟨k, rfl | rfl⟩ : ∃ k, m = 2 * k ∨ m = 2 * k + 1 := ⟨m / 2, by omega⟩
  · have hhalf : 2 * k / 2 = k := by omega
    have hbit : (2 * k % 2 != 0) = false := by simp
    simp only [ExtendedMantissa.shiftRightOne, hhalf, hbit]
    cases round <;> cases sticky <;> simp only [Located, Bool.or_true, Bool.or_false] at h ⊢ <;>
      push_cast at h <;> first | linarith | constructor <;> linarith
  · have hhalf : (2 * k + 1) / 2 = k := by omega
    have hbit : ((2 * k + 1) % 2 != 0) = true := by simp
    simp only [ExtendedMantissa.shiftRightOne, hhalf, hbit]
    cases round <;> cases sticky <;> simp only [Located, Bool.or_true, Bool.or_false] at h ⊢ <;>
      push_cast at h <;> first | linarith | constructor <;> linarith

theorem Located.shiftRight {a : ExtendedMantissa} {x : ℚ} (h : Located a x) (n : ℕ) :
    Located (a >>> n) (x / 2 ^ n) := by
  induction n with
  | zero =>
    rw [pow_zero, div_one]
    exact h
  | succ n ih =>
    have hstep : a >>> (n + 1) = (a >>> n).shiftRightOne := rfl
    rw [hstep, pow_succ, ← div_div]
    exact ih.shiftRightOne

theorem located_exact (m : ℕ) : Located (.ofMantissaAndAccuracy m .exact) m := rfl

/-- What is left of a division says where the quotient is. -/
theorem located_fraction (m : ℕ) {num den : ℕ} (h : num < den) :
    Located (.ofMantissaAndAccuracy m (accuracyOfFraction num den)) (m + num / den) := by
  have hden : (0 : ℚ) < den := by exact_mod_cast (Nat.zero_le num).trans_lt h
  unfold accuracyOfFraction
  by_cases hzero : num = 0
  · rw [if_pos hzero, hzero, Nat.cast_zero, zero_div, add_zero]
    exact located_exact m
  · rw [if_neg hzero]
    have hnum : (0 : ℚ) < num := by exact_mod_cast Nat.pos_of_ne_zero hzero
    obtain hlt | heq | hgt := lt_trichotomy (2 * num) den
    · rw [Nat.compare_eq_lt.2 hlt]
      have hhalf : (num / den : ℚ) < 1 / 2 := by
        rw [div_lt_div_iff₀ hden two_pos]
        exact_mod_cast (by omega : num * 2 < 1 * den)
      exact ⟨by linarith [div_pos hnum hden], by linarith⟩
    · rw [Nat.compare_eq_eq.2 heq]
      have hhalf : (num / den : ℚ) = 1 / 2 := by
        rw [div_eq_div_iff hden.ne' two_ne_zero]
        exact_mod_cast (by omega : num * 2 = 1 * den)
      exact congrArg (_ + ·) hhalf
    · rw [Nat.compare_eq_gt.2 hgt]
      have hhalf : (1 / 2 : ℚ) < num / den := by
        rw [div_lt_div_iff₀ two_pos hden]
        exact_mod_cast (by omega : 1 * den < num * 2)
      have hone : (num / den : ℚ) < 1 := by
        rw [div_lt_one hden]
        exact_mod_cast h
      exact ⟨by linarith, by linarith⟩

/-! ## Numbers that floats stand for -/

/-- The float is not negative and stands for the number. -/
inductive Denotes : UnpackedFloat → ℚ → Prop
  | zero : Denotes (.zero .positive) 0
  | finite {m : ℕ} {e : ℤ} (hm : 0 < m) (h : OnGrid m e) : Denotes (.finite .positive m e hm) (m * 2 ^ e)

variable {u v : UnpackedFloat} {x y : ℚ}

theorem Denotes.nonneg (h : Denotes u x) : 0 ≤ x := by
  cases h with
  | zero => exact le_rfl
  | finite hm h => exact (grid_pos hm _).le

/-- A number that a float stands for is its own nearest float. -/
theorem Denotes.nearest_eq (h : Denotes u x) : nearest x = x := by
  cases h with
  | zero => exact nearest_zero
  | finite hm h => exact nearest_of_onGrid hm h

theorem targetExponent_eq (k : ℤ) :
    Format.binary64.targetExponent k = max (k - 53) (-1074) := rfl

/-- The mantissa has the digits that rounding needs, or the exponent is the least one. -/
theorem gridExponent_eq {m : ℕ} {e : ℤ} {x : ℚ} (hx : 0 < x)
    (hm : m ≤ x / 2 ^ e ∧ x / 2 ^ e < m + 1) (hdigits : 2 ^ 52 ≤ m ∨ e ≤ -1074) :
    Format.binary64.targetExponent (totalExponent m e) = gridExponent x ∧ e ≤ gridExponent x := by
  have he := two_zpow_pos e
  rw [le_div_iff₀ he, div_lt_iff₀ he] at hm
  rw [targetExponent_eq, totalExponent, gridExponent]
  obtain rfl | hpos := m.eq_zero_or_pos
  · have hsmall : x < 2 ^ e := by simpa using hm.2
    have hlog : Int.log 2 x < e := (Int.lt_zpow_iff_log_lt one_lt_two hx).1 (by exact_mod_cast hsmall)
    rw [Nat.log2_zero]
    omega
  · have hlow : 2 ^ m.log2 ≤ m := Nat.log2_self_le hpos.ne'
    have hhigh : m + 1 ≤ 2 ^ (m.log2 + 1) := Nat.lt_log2_self
    have hlog : Int.log 2 x = m.log2 + e := by
      refine (log_eq_iff hx _).2 ⟨?_, ?_⟩
      · calc (2 : ℚ) ^ (m.log2 + e) = 2 ^ m.log2 * 2 ^ e := by rw [two_zpow_add, zpow_natCast]
          _ ≤ m * 2 ^ e := mul_le_mul_of_nonneg_right (by exact_mod_cast hlow) he.le
          _ ≤ x := hm.1
      · calc x < (m + 1) * 2 ^ e := hm.2
          _ ≤ 2 ^ (m.log2 + 1) * 2 ^ e :=
            mul_le_mul_of_nonneg_right (by exact_mod_cast hhigh) he.le
          _ = 2 ^ (m.log2 + e + 1) := by
            rw [add_right_comm, two_zpow_add]
            norm_cast
    have hfull : 2 ^ 52 ≤ m → 52 ≤ m.log2 := fun h => (Nat.le_log2 hpos.ne').2 h
    rw [hlog]
    omega

theorem shiftToTargetExponent_of_le {m : ℕ} {e : ℤ}
    (h : Format.binary64.targetExponent (totalExponent m e) ≤ e) :
    shiftToTargetExponent Format.binary64 m e .exact = (⟨m, false, false⟩, e) := by
  have hshift : (Format.binary64.targetExponent (totalExponent m e) - e).toNat = 0 := by omega
  simp only [shiftToTargetExponent, shiftToExponent, hshift]
  exact Prod.ext rfl (add_zero e)

/-- Rounding what is located gives the nearest float. -/
theorem denotes_roundWithAccuracy {m : ℕ} {e : ℤ} {accuracy : Accuracy} (hx : 0 < x)
    (h : Located (.ofMantissaAndAccuracy m accuracy) (x / 2 ^ e)) (hdigits : 2 ^ 52 ≤ m ∨ e ≤ -1074) :
    Denotes (roundWithAccuracy Format.binary64 .positive m e accuracy) (nearest x) := by
  have hmantissa : (ExtendedMantissa.ofMantissaAndAccuracy m accuracy).mantissa = m := by
    obtain _ | ordering := accuracy
    · rfl
    · cases ordering <;> rfl
  have hbounds := h.bounds
  rw [hmantissa] at hbounds
  obtain ⟨htarget, hle⟩ := gridExponent_eq hx hbounds hdigits
  obtain ⟨n, hn⟩ : ∃ n : ℕ, gridExponent x = e + n := ⟨(gridExponent x - e).toNat, by omega⟩
  -- the first shift brings the number to its own exponent
  have hfirst : shiftToTargetExponent Format.binary64 m e accuracy =
      (ExtendedMantissa.ofMantissaAndAccuracy m accuracy >>> n, gridExponent x) := by
    have hshift : (gridExponent x - e).toNat = n := by omega
    simp only [shiftToTargetExponent, shiftToExponent, htarget, hshift, ← hn]
  have hrounded : (ExtendedMantissa.ofMantissaAndAccuracy m accuracy >>> n).roundedMantissa =
      nearestEven (x / 2 ^ gridExponent x) := by
    rw [(h.shiftRight n).roundedMantissa_eq, hn, two_zpow_add, ← div_div, zpow_natCast]
  rw [roundWithAccuracy, hfirst]
  dsimp only
  rw [hrounded, nearest]
  have hmax := nearestEven_grid_le x
  have hmin := le_nearestEven_grid hx
  have hge := neg_le_gridExponent x
  generalize nearestEven (x / 2 ^ gridExponent x) = r at *
  generalize gridExponent x = g at *
  obtain rfl | hpos := r.eq_zero_or_pos
  · rw [shiftToTargetExponent_of_le (by rw [targetExponent_eq, totalExponent, Nat.log2_zero]; omega)]
    simpa using Denotes.zero
  obtain hlt | heq := hmax.lt_or_eq
  · have hlog : r.log2 < 53 := (Nat.log2_lt hpos.ne').2 hlt
    rw [shiftToTargetExponent_of_le (by rw [targetExponent_eq, totalExponent]; omega)]
    rw [dif_neg hpos.ne']
    exact .finite hpos ⟨hlt, hge, by by_cases h : g = -1074 <;> tauto⟩
  · -- rounding up gave one digit more
    subst heq
    have hsecond : shiftToTargetExponent Format.binary64 (2 ^ 53) g .exact =
        (⟨2 ^ 52, false, false⟩, g + 1) := by
      have hshift : (Format.binary64.targetExponent (totalExponent (2 ^ 53) g) - g).toNat = 1 := by
        rw [targetExponent_eq, totalExponent, Nat.log2_two_pow]
        omega
      simp only [shiftToTargetExponent, shiftToExponent, hshift]
      rfl
    rw [hsecond]
    have hvalue : ((2 ^ 53 : ℕ) : ℚ) * 2 ^ g = (2 ^ 52 : ℕ) * 2 ^ (g + 1) := by
      rw [two_zpow_add]
      push_cast
      ring
    rw [hvalue]
    exact .finite (by norm_num) ⟨by norm_num, by omega, .inl le_rfl⟩

/-- A mantissa that has lost nothing. -/
theorem denotes_roundExact {m : ℕ} {e : ℤ} (hm : 0 < m) (hdigits : 2 ^ 52 ≤ m ∨ e ≤ -1074) :
    Denotes (roundWithAccuracy Format.binary64 .positive m e .exact) (nearest (m * 2 ^ e)) := by
  refine denotes_roundWithAccuracy (grid_pos hm e) ?_ hdigits
  rw [mul_div_cancel_right₀ _ (two_zpow_pos e).ne']
  exact located_exact m

/-! ## Operations -/

theorem Denotes.mul (hu : Denotes u x) (hv : Denotes v y) :
    Denotes (u.mul Format.binary64 v) (nearest (x * y)) := by
  cases hu with
  | zero =>
    rw [zero_mul, nearest_zero]
    cases hv <;> exact .zero
  | @finite m e hm h =>
    cases hv with
    | zero =>
      rw [mul_zero, nearest_zero]
      exact .zero
    | @finite n f hn h' =>
      have hvalue : (m * 2 ^ e * (n * 2 ^ f) : ℚ) = (m * n : ℕ) * 2 ^ (e + f) := by
        rw [two_zpow_add]
        push_cast
        ring
      have hdigits : 2 ^ 52 ≤ m * n ∨ e + f ≤ -1074 := by
        obtain hm52 | rfl := h.full
        · exact .inl (hm52.trans (Nat.le_mul_of_pos_right m hn))
        · obtain hn52 | rfl := h'.full
          · exact .inl (hn52.trans (Nat.le_mul_of_pos_left n hm))
          · exact .inr (by omega)
      rw [hvalue]
      exact denotes_roundExact (Nat.mul_pos hm hn) hdigits

/-- The quotient is that of a shifted mantissa, and has enough digits. -/
theorem exists_divCore {m n : ℕ} (e f : ℤ) (hm : 0 < m) (hn : 0 < n) :
    ∃ (k : ℕ) (g : ℤ), e - f = g + k ∧ (2 ^ 52 ≤ m * 2 ^ k / n ∨ g ≤ -1074) ∧
      divCore Format.binary64 m e n f = (m * 2 ^ k / n, g, accuracyOfFraction (m * 2 ^ k % n) n) := by
  obtain ⟨g, hg⟩ : ∃ g, g = min (e - f)
    (Format.binary64.targetExponent (totalExponent m e - totalExponent n f)) := ⟨_, rfl⟩
  obtain ⟨k, hk⟩ : ∃ k : ℕ, e - f = g + k := ⟨(e - f - g).toNat, by omega⟩
  refine ⟨k, g, hk, ?_, ?_⟩
  · rw [targetExponent_eq, totalExponent, totalExponent] at hg
    rw [or_iff_not_imp_right]
    intro hbig
    rw [Nat.le_div_iff_mul_le hn]
    calc 2 ^ 52 * n ≤ 2 ^ 52 * 2 ^ (n.log2 + 1) := Nat.mul_le_mul_left _ Nat.lt_log2_self.le
      _ = 2 ^ (52 + (n.log2 + 1)) := (pow_add _ _ _).symm
      _ ≤ 2 ^ (m.log2 + k) := Nat.pow_le_pow_right two_pos (by omega)
      _ = 2 ^ m.log2 * 2 ^ k := pow_add _ _ _
      _ ≤ m * 2 ^ k := Nat.mul_le_mul_right _ (Nat.log2_self_le hm.ne')
  · have hshift : (e - f - g).toNat = k := by omega
    rw [← Nat.shiftLeft_eq, ← hshift, hg]
    rfl

theorem Denotes.div (hu : Denotes u x) (hv : Denotes v y) (hy : 0 < y) :
    Denotes (u.div Format.binary64 v) (nearest (x / y)) := by
  cases hv with
  | zero => exact absurd hy (lt_irrefl 0)
  | @finite n f hn h' =>
    cases hu with
    | zero =>
      rw [zero_div, nearest_zero]
      exact .zero
    | @finite m e hm h =>
      obtain ⟨k, g, hk, hdigits, hcore⟩ := exists_divCore e f hm hn
      have hdiv : UnpackedFloat.div Format.binary64 (.finite .positive m e hm)
          (.finite .positive n f hn) = roundWithAccuracy Format.binary64 .positive
            (divCore Format.binary64 m e n f).1 (divCore Format.binary64 m e n f).2.1
            (divCore Format.binary64 m e n f).2.2 := rfl
      have hvalue : (m * 2 ^ e / (n * 2 ^ f) / 2 ^ g : ℚ) =
          (m * 2 ^ k / n : ℕ) + (m * 2 ^ k % n : ℕ) / n := by
        have hsplit : (m * 2 ^ k : ℚ) = n * (m * 2 ^ k / n : ℕ) + (m * 2 ^ k % n : ℕ) := by
          exact_mod_cast (Nat.div_add_mod _ n).symm
        have he : (2 : ℚ) ^ e = 2 ^ f * 2 ^ g * 2 ^ k := by
          rw [← zpow_natCast, ← two_zpow_add, ← two_zpow_add]
          congr 1
          omega
        have hn0 : (n : ℚ) ≠ 0 := by exact_mod_cast hn.ne'
        rw [he]
        field_simp
        exact hsplit
      rw [hdiv, hcore]
      refine denotes_roundWithAccuracy ?_ ?_ hdigits
      · exact div_pos (grid_pos hm e) hy
      · rw [hvalue]
        exact located_fraction _ (Nat.mod_lt _ hn)

theorem denotes_round {m : ℕ} (hm : 0 < m) (e : ℤ) :
    Denotes (UnpackedFloat.round Format.binary64 .positive m e) (nearest (m * 2 ^ e)) := by
  obtain ⟨k, hk⟩ : ∃ k, k = (e - Format.binary64.targetExponent (totalExponent m e)).toNat := ⟨_, rfl⟩
  have hround : UnpackedFloat.round Format.binary64 .positive m e =
      roundWithAccuracy Format.binary64 .positive (m * 2 ^ k) (e - k) .exact := by
    rw [← Nat.shiftLeft_eq, hk]
    rfl
  have hvalue : (m * 2 ^ e : ℚ) = (m * 2 ^ k : ℕ) * 2 ^ (e - k) := by
    rw [show e = (k : ℤ) + (e - k) by omega, two_zpow_add]
    push_cast
    rw [zpow_natCast, add_sub_cancel_left]
    ring
  have hdigits : 2 ^ 52 ≤ m * 2 ^ k ∨ e - k ≤ -1074 := by
    rw [targetExponent_eq, totalExponent] at hk
    rw [or_iff_not_imp_right]
    intro hbig
    calc 2 ^ 52 ≤ 2 ^ (m.log2 + k) := Nat.pow_le_pow_right two_pos (by omega)
      _ = 2 ^ m.log2 * 2 ^ k := pow_add _ _ _
      _ ≤ m * 2 ^ k := Nat.mul_le_mul_right _ (Nat.log2_self_le hm.ne')
  rw [hround, hvalue]
  exact denotes_roundExact (Nat.mul_pos hm (Nat.two_pow_pos k)) hdigits

/-- A float with a negative sign. -/
inductive Negative : UnpackedFloat → Prop
  | zero : Negative (.zero .negative)
  | finite (m : ℕ) (e : ℤ) (hm : 0 < m) : Negative (.finite .negative m e hm)

theorem negative_roundWithAccuracy (m : ℕ) (e : ℤ) (accuracy : Accuracy) :
    Negative (roundWithAccuracy Format.binary64 .negative m e accuracy) := by
  unfold roundWithAccuracy
  dsimp only
  split
  · exact .zero
  · exact .finite _ _ _

/-- Two mantissas, brought to the smaller exponent, make the exact difference. -/
theorem exists_sub_finite {m n : ℕ} (e f : ℤ) (hm : 0 < m) (hn : 0 < n) :
    ∃ (d : ℤ) (g : ℤ), (m * 2 ^ e - n * 2 ^ f : ℚ) = d * 2 ^ g ∧
      UnpackedFloat.sub Format.binary64 (.finite .positive m e hm) (.finite .positive n f hn) =
        UnpackedFloat.normalize Format.binary64 d g .positive := by
  obtain ⟨j, hj⟩ : ∃ j : ℕ, e = min e f + j := ⟨(e - min e f).toNat, by omega⟩
  obtain ⟨k, hk⟩ : ∃ k : ℕ, f = min e f + k := ⟨(f - min e f).toNat, by omega⟩
  refine ⟨(m * 2 ^ j : ℕ) - (n * 2 ^ k : ℕ), min e f, ?_, ?_⟩
  · have he : (2 : ℚ) ^ e = 2 ^ min e f * 2 ^ j := by rw [← zpow_natCast, ← two_zpow_add, ← hj]
    have hf : (2 : ℚ) ^ f = 2 ^ min e f * 2 ^ k := by rw [← zpow_natCast, ← two_zpow_add, ← hk]
    rw [he, hf]
    push_cast
    ring
  · have hshift : (e - min e f).toNat = j := by omega
    have hshift' : (f - min e f).toNat = k := by omega
    rw [← Nat.shiftLeft_eq, ← Nat.shiftLeft_eq, ← hshift, ← hshift']
    rfl

theorem Denotes.sub (hu : Denotes u x) (hv : Denotes v y) (h : y ≤ x) :
    Denotes (u.sub Format.binary64 v) (nearest (x - y)) := by
  cases hv with
  | zero =>
    rw [sub_zero, hu.nearest_eq]
    cases hu with
    | zero => exact .zero
    | finite hm hgrid => exact .finite hm hgrid
  | @finite n f hn hgrid' =>
    cases hu with
    | zero => exact absurd h (grid_pos hn f).not_ge
    | @finite m e hm hgrid =>
      obtain ⟨d, g, hvalue, hsub⟩ := exists_sub_finite e f hm hn
      rw [hsub, hvalue]
      have hd : 0 ≤ d := by
        have hnonneg : (0 : ℚ) ≤ d * 2 ^ g := hvalue ▸ sub_nonneg.2 h
        exact_mod_cast nonneg_of_mul_nonneg_left hnonneg (two_zpow_pos g)
      unfold UnpackedFloat.normalize
      obtain rfl | hpos := hd.eq_or_lt
      · rw [Int.cast_zero, zero_mul, nearest_zero]
        exact .zero
      · rw [Int.compare_eq_gt.2 hpos]
        have hcast : (d : ℚ) = d.toNat := by exact_mod_cast (Int.toNat_of_nonneg hd).symm
        rw [hcast]
        exact denotes_round (by omega) g

/-- A greater number leaves a negative difference. -/
theorem Denotes.sub_negative (hu : Denotes u x) (hv : Denotes v y) (h : x < y) :
    Negative (u.sub Format.binary64 v) := by
  cases hv with
  | zero => exact absurd h hu.nonneg.not_gt
  | @finite n f hn hgrid' =>
    cases hu with
    | zero => exact .finite _ _ hn
    | @finite m e hm hgrid =>
      obtain ⟨d, g, hvalue, hsub⟩ := exists_sub_finite e f hm hn
      have hd : d < 0 := by
        have hneg : (d * 2 ^ g : ℚ) < 0 := hvalue ▸ sub_neg.2 h
        exact_mod_cast neg_of_mul_neg_left hneg (two_zpow_pos g).le
      rw [hsub, UnpackedFloat.normalize, Int.compare_eq_lt.2 hd]
      exact negative_roundWithAccuracy _ _ _

end LiteralAudit.Number
