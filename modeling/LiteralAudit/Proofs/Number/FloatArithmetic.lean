import Mathlib
import LiteralAudit.Proofs.Number.Rounding

/-!
# Floats and the numbers they stand for

Every operation on floats packs its result into 64 bits and unpacks it before the next one. A number
below `2 ^ 1024` survives that (`Denotes.unpack_pack`), so that the operations on `Float` compute rounded
exact results (`StandsFor`). Comparing floats compares the numbers, also where one of them is compared
with a float that stands for no number (`StandsFor.lt_of_le_of_lt`).
-/

namespace LiteralAudit.Number

open Float.Model Float.Model.UnpackedFloat

variable {u v : UnpackedFloat} {x y : ℚ}

/-! ## Packing -/

/-- A field of bits that holds a number below its size is no other field. -/
theorem ofNat_ne {w n k : ℕ} (hn : n < 2 ^ w) (hk : k < 2 ^ w) (h : n ≠ k) :
    BitVec.ofNat w n ≠ BitVec.ofNat w k := by
  intro heq
  have hmod := congrArg BitVec.toNat heq
  rw [BitVec.toNat_ofNat, BitVec.toNat_ofNat, Nat.mod_eq_of_lt hn, Nat.mod_eq_of_lt hk] at hmod
  exact h hmod

theorem unpack_pack_normal {m : ℕ} {e : ℤ} (hm : 0 < m) (h : OnGrid m e) (hfull : 2 ^ 52 ≤ m)
    (he : e ≤ 971) :
    UnpackedFloat.unpack Format.binary64 (UnpackedFloat.pack Format.binary64
      (.finite .positive m e hm)) = .finite .positive m e hm := by
  have hlt := h.lt
  have hge := h.ge
  obtain ⟨n, hn⟩ : ∃ n : ℕ, e + 1075 = n := ⟨(e + 1075).toNat, by omega⟩
  have hlog : m.log2 = 52 := (Nat.log2_eq_iff hm.ne').2 ⟨hfull, hlt⟩
  have hbias : Format.binary64.exponentBias = 1023 := rfl
  have hbiased : (e + (1023 : ℕ) + (52 : ℕ)).toNat = n := by omega
  have hpack : UnpackedFloat.pack Format.binary64 (.finite .positive m e hm) =
      packComponents Format.binary64 .positive (.ofNat 11 n) (.ofNat 52 m) := by
    simp only [UnpackedFloat.pack, hlog, hbias, hbiased]
    rw [if_neg (by omega), if_pos (by rfl)]
  have hexponent : (BitVec.ofNat 11 n).toNat = n := by
    rw [BitVec.toNat_ofNat]
    exact Nat.mod_eq_of_lt (by omega)
  have hmantissa : (1#1 ++ BitVec.ofNat 52 m).toNat = m := by
    rw [BitVec.toNat_append, ← Nat.shiftLeft_add_eq_or_of_lt (BitVec.ofNat 52 m).isLt]
    simp only [BitVec.toNat_ofNat]
    omega
  rw [hpack, UnpackedFloat.unpack]
  simp only [unpackMantissa_packComponents, unpackExponent_packComponents, unpackSign_packComponents,
    Sign.ofBitVec_toBitVec]
  have hones : BitVec.ofNat 11 n ≠ -1#11 := ofNat_ne (k := 2047) (by omega) (by omega) (by omega)
  have hzero : BitVec.ofNat 11 n ≠ 0#11 := ofNat_ne (by omega) (by omega) (by omega)
  rw [if_neg hones, if_neg hzero]
  simp only [hmantissa, hexponent, hbias]
  congr 1
  omega

theorem unpack_pack_subnormal {m : ℕ} (hm : 0 < m) (hsmall : m < 2 ^ 52) :
    UnpackedFloat.unpack Format.binary64 (UnpackedFloat.pack Format.binary64
      (.finite .positive m (-1074) hm)) = .finite .positive m (-1074) hm := by
  have hlog : m.log2 < 52 := (Nat.log2_lt hm.ne').2 hsmall
  have hpack : UnpackedFloat.pack Format.binary64 (.finite .positive m (-1074) hm) =
      packComponents Format.binary64 .positive 0#11 (.ofNat 52 m) := by
    have hbits : Format.binary64.mantissaBits = 53 := rfl
    simp only [UnpackedFloat.pack, hbits]
    rw [if_neg (by decide), if_neg (by omega)]
  have hmantissa : (BitVec.ofNat 52 m).toNat = m := by
    rw [BitVec.toNat_ofNat]
    exact Nat.mod_eq_of_lt hsmall
  rw [hpack, UnpackedFloat.unpack]
  simp only [unpackMantissa_packComponents, unpackExponent_packComponents, unpackSign_packComponents,
    Sign.ofBitVec_toBitVec]
  rw [if_neg (by decide), if_pos trivial,
    dif_neg (ofNat_ne (k := 0) hsmall (Nat.two_pow_pos 52) hm.ne')]
  simp only [hmantissa]
  rfl

/-- Floats below `2 ^ 1024` survive packing. -/
theorem Denotes.unpack_pack (h : Denotes u x) (hx : x < 2 ^ 1024) : (Float.Model.pack u).unpack = u := by
  cases h with
  | zero => rfl
  | @finite m e hm h =>
    show UnpackedFloat.unpack Format.binary64 (UnpackedFloat.pack Format.binary64 _) = _
    by_cases hfull : 2 ^ 52 ≤ m
    · refine unpack_pack_normal hm h hfull ?_
      by_contra hbig
      have hpow : (2 : ℚ) ^ 1024 ≤ m * 2 ^ e := by
        calc (2 : ℚ) ^ 1024 = 2 ^ (52 : ℤ) * 2 ^ (972 : ℤ) := by
              rw [← two_zpow_add, ← zpow_natCast]
              rfl
          _ ≤ m * 2 ^ e := mul_le_mul (by exact_mod_cast hfull) (two_zpow_le (by omega))
            (two_zpow_pos _).le (Nat.cast_nonneg m)
      exact absurd hx hpow.not_gt
    · obtain rfl := h.full.resolve_left hfull
      exact unpack_pack_subnormal hm (not_le.1 hfull)

/-- A negative float is packed with its sign. -/
theorem Negative.exists_pack (h : Negative u) :
    ∃ e m, UnpackedFloat.pack Format.binary64 u = packComponents Format.binary64 .negative e m := by
  cases h with
  | zero => exact ⟨_, _, rfl⟩
  | finite m e hm =>
    simp only [UnpackedFloat.pack]
    split
    · exact ⟨_, _, rfl⟩
    · split <;> exact ⟨_, _, rfl⟩

/-! ## Comparison -/

theorem OnGrid.lt_of_exponent_lt {m n : ℕ} {e f : ℤ} (h : OnGrid m e) (h' : OnGrid n f) (hlt : e < f) :
    (m * 2 ^ e : ℚ) < n * 2 ^ f := by
  have hfull : 2 ^ 52 ≤ n := h'.full.resolve_right (by have := h.ge; omega)
  calc (m * 2 ^ e : ℚ) < 2 ^ 53 * 2 ^ e :=
        mul_lt_mul_of_pos_right (by exact_mod_cast h.lt) (two_zpow_pos e)
    _ = 2 ^ 52 * 2 ^ (1 + e) := by rw [two_zpow_add]; ring
    _ ≤ 2 ^ 52 * 2 ^ f := mul_le_mul_of_nonneg_left (two_zpow_le (by omega)) (by norm_num)
    _ ≤ n * 2 ^ f := mul_le_mul_of_nonneg_right (by exact_mod_cast hfull) (two_zpow_pos f).le

/-- Exponents decide, and mantissas between equal exponents. -/
theorem grid_lt_iff {m n : ℕ} {e f : ℤ} (h : OnGrid m e) (h' : OnGrid n f) :
    (m * 2 ^ e : ℚ) < n * 2 ^ f ↔ e < f ∨ e = f ∧ m < n := by
  obtain hlt | rfl | hgt := lt_trichotomy e f
  · exact iff_of_true (h.lt_of_exponent_lt h' hlt) (.inl hlt)
  · rw [mul_lt_mul_iff_left₀ (two_zpow_pos e), Nat.cast_lt]
    simp
  · refine iff_of_false (h'.lt_of_exponent_lt h hgt).not_gt ?_
    omega

theorem lt_finite_iff {m n : ℕ} {e f : ℤ} (hm : 0 < m) (hn : 0 < n) :
    UnpackedFloat.lt (.finite .positive m e hm) (.finite .positive n f hn) = true ↔
      e < f ∨ e = f ∧ m < n := by
  have hlt : UnpackedFloat.lt (.finite .positive m e hm) (.finite .positive n f hn) =
      (some ((compare e f).then (compare m n)) == some .lt) := rfl
  rw [hlt, beq_iff_eq, Option.some_inj, Ordering.then_eq_lt, Int.compare_eq_lt, Int.compare_eq_eq,
    Nat.compare_eq_lt]

theorem le_finite_iff {m n : ℕ} {e f : ℤ} (hm : 0 < m) (hn : 0 < n) :
    UnpackedFloat.le (.finite .positive m e hm) (.finite .positive n f hn) = true ↔
      ¬(f < e ∨ f = e ∧ n < m) := by
  have hle : UnpackedFloat.le (.finite .positive m e hm) (.finite .positive n f hn) =
      ((compare e f).then (compare m n)).isLE := rfl
  rw [hle, Ordering.isLE_iff_ne_gt, Ordering.then_eq_gt, Int.compare_eq_gt, Int.compare_eq_eq,
    Nat.compare_eq_gt, eq_comm (a := e)]

theorem Denotes.lt_iff (hu : Denotes u x) (hv : Denotes v y) : u.lt v = true ↔ x < y := by
  cases hu with
  | zero =>
    cases hv with
    | zero => exact iff_of_false (by decide) (lt_irrefl 0)
    | finite hn h' => exact iff_of_true rfl (grid_pos hn _)
  | finite hm h =>
    cases hv with
    | zero => exact iff_of_false (by exact Bool.false_ne_true) (grid_pos hm _).not_gt
    | finite hn h' => rw [lt_finite_iff, grid_lt_iff h h']

theorem Denotes.le_iff (hu : Denotes u x) (hv : Denotes v y) : u.le v = true ↔ x ≤ y := by
  cases hu with
  | zero =>
    cases hv with
    | zero => exact iff_of_true rfl le_rfl
    | finite hn h' => exact iff_of_true rfl (grid_pos hn _).le
  | finite hm h =>
    cases hv with
    | zero => exact iff_of_false (by exact Bool.false_ne_true) (grid_pos hm _).not_ge
    | finite hn h' => rw [le_finite_iff, ← not_lt, grid_lt_iff h' h]

/-- Above a float that stands for a number are only positive floats and infinity. -/
theorem Denotes.positive_of_lt (hv : Denotes v y) {w : UnpackedFloat} (hw : v.lt w = true) :
    w = .infinity .positive ∨ ∃ k g hk, w = .finite .positive k g hk := by
  obtain s | _ | s | ⟨s, k, g, hk⟩ := w
  · cases s with
    | negative => cases hv <;> cases hw
    | positive => exact .inl rfl
  · cases hv <;> cases hw
  · cases hv <;> cases hw
  · cases s with
    | negative => cases hv <;> cases hw
    | positive => exact .inr ⟨k, g, hk, rfl⟩

/-- What is above the greater number is above the smaller one, whether or not it is a number. -/
theorem Denotes.lt_of_le_of_lt (hu : Denotes u x) (hv : Denotes v y) (h : x ≤ y) {w : UnpackedFloat}
    (hw : v.lt w = true) : u.lt w = true := by
  have hle := (hu.le_iff hv).2 h
  obtain rfl | ⟨k, g, hk, rfl⟩ := hv.positive_of_lt hw
  · cases hu <;> rfl
  · cases hu with
    | zero => rfl
    | finite hm hgrid =>
      cases hv with
      | zero => cases hle
      | finite hn h' =>
        rw [lt_finite_iff] at hw ⊢
        rw [le_finite_iff] at hle
        omega

/-! ## Floats -/

/-- The float is not negative and stands for the number. -/
def StandsFor (a : Float) (x : ℚ) : Prop := Denotes a.toModel.unpack x

variable {a b : Float}

theorem lt_iff_unpack : a < b ↔ a.toModel.unpack.lt b.toModel.unpack = true := decide_eq_true_iff

theorem le_iff_unpack : a ≤ b ↔ a.toModel.unpack.le b.toModel.unpack = true := decide_eq_true_iff

theorem StandsFor.lt_iff (ha : StandsFor a x) (hb : StandsFor b y) : a < b ↔ x < y :=
  lt_iff_unpack.trans (Denotes.lt_iff ha hb)

theorem StandsFor.le_iff (ha : StandsFor a x) (hb : StandsFor b y) : a ≤ b ↔ x ≤ y :=
  le_iff_unpack.trans (Denotes.le_iff ha hb)

theorem StandsFor.lt_of_le_of_lt (ha : StandsFor a x) (hb : StandsFor b y) (h : x ≤ y) {t : Float}
    (ht : b < t) : a < t :=
  lt_iff_unpack.2 (Denotes.lt_of_le_of_lt ha hb h (lt_iff_unpack.1 ht))

/-- A result that is a rounded number below `2 ^ 1024` stands for it. -/
theorem standsFor_pack (hx : 0 ≤ x) (hmax : x ≤ 2 ^ 1023) (h : Denotes u (nearest x)) :
    StandsFor (.ofModel (.pack u)) (nearest x) := by
  have hlt : nearest x < 2 ^ 1024 :=
    (nearest_le_two_pow hx hmax).trans_lt (pow_lt_pow_right₀ one_lt_two (by norm_num))
  show Denotes (Float.Model.pack u).unpack _
  rw [h.unpack_pack hlt]
  exact h

theorem StandsFor.nonneg (ha : StandsFor a x) : 0 ≤ x := Denotes.nonneg ha

theorem StandsFor.nearest_eq (ha : StandsFor a x) : nearest x = x := Denotes.nearest_eq ha

theorem StandsFor.mul (ha : StandsFor a x) (hb : StandsFor b y) (hmax : x * y ≤ 2 ^ 1023) :
    StandsFor (a * b) (nearest (x * y)) :=
  standsFor_pack (mul_nonneg ha.nonneg hb.nonneg) hmax (Denotes.mul ha hb)

theorem StandsFor.div (ha : StandsFor a x) (hb : StandsFor b y) (hy : 0 < y) (hmax : x / y ≤ 2 ^ 1023) :
    StandsFor (a / b) (nearest (x / y)) :=
  standsFor_pack (div_nonneg ha.nonneg hb.nonneg) hmax (Denotes.div ha hb hy)

theorem StandsFor.sub (ha : StandsFor a x) (hb : StandsFor b y) (h : y ≤ x) (hmax : x ≤ 2 ^ 1023) :
    StandsFor (a - b) (nearest (x - y)) :=
  standsFor_pack (sub_nonneg.2 h) ((sub_le_self x hb.nonneg).trans hmax) (Denotes.sub ha hb h)

theorem StandsFor.sub_not_pos (ha : StandsFor a x) (hb : StandsFor b y) (h : x < y) : ¬0 < a - b := by
  obtain ⟨e, m, hpack⟩ := (Denotes.sub_negative ha hb h).exists_pack
  have hunpack : (a - b).toModel.unpack =
      UnpackedFloat.unpack Format.binary64 (packComponents Format.binary64 .negative e m) := by
    rw [← hpack]
    rfl
  rw [lt_iff_unpack, hunpack, UnpackedFloat.unpack]
  simp only [unpackMantissa_packComponents, unpackExponent_packComponents, unpackSign_packComponents,
    Sign.ofBitVec_toBitVec]
  split
  · split <;> exact Bool.false_ne_true
  · split
    · split <;> exact Bool.false_ne_true
    · exact Bool.false_ne_true

theorem standsFor_zero : StandsFor 0 0 := .zero

theorem denotes_ofInt (n : ℕ) : Denotes (UnpackedFloat.ofInt Format.binary64 n) (nearest n) := by
  unfold UnpackedFloat.ofInt UnpackedFloat.normalize
  obtain rfl | hpos := n.eq_zero_or_pos
  · show Denotes (.zero .positive) _
    rw [Nat.cast_zero, nearest_zero]
    exact .zero
  · rw [Int.compare_eq_gt.2 (by omega)]
    simpa using denotes_round hpos 0

theorem denotes_ofScientific {n : ℕ} (hpos : 0 < n) :
    Denotes (UnpackedFloat.ofScientific Format.binary64 n 0) (nearest n) := by
  have hproduct : UnpackedFloat.ofScientific Format.binary64 n 0 =
      roundWithAccuracy Format.binary64 .positive (n * 2 ^ 53) (-53) .exact := by
    have hdigits : Format.binary64.mantissaBits = 53 := rfl
    unfold UnpackedFloat.ofScientific
    simp only [hdigits]
    rw [dif_neg hpos.ne', if_neg (by norm_num), if_neg (by omega), if_pos le_rfl, UnpackedFloat.mul,
      Int.toNat_zero, pow_zero, mul_one, add_zero, Nat.shiftLeft_eq]
    rfl
  have hvalue : (n : ℚ) = (n * 2 ^ 53 : ℕ) * 2 ^ (-53 : ℤ) := by
    rw [Nat.cast_mul, mul_assoc]
    norm_num
  rw [hproduct, hvalue]
  exact denotes_roundExact (Nat.mul_pos hpos (Nat.two_pow_pos 53)) (.inl (by omega))

theorem standsFor_one : StandsFor (Float.ofBits 0x3FF0000000000000) 1 := by
  have hone : ((2 ^ 52 : ℕ) : ℚ) * 2 ^ (-52 : ℤ) = 1 := by norm_num
  have hunpack : (Float.ofBits 0x3FF0000000000000).toModel.unpack =
      .finite .positive (2 ^ 52) (-52) (by decide) := by rfl
  rw [StandsFor, hunpack, ← hone]
  exact .finite _ ⟨by norm_num, by norm_num, .inl le_rfl⟩

/-- Conversion of a natural number rounds it, on both of its ways. -/
theorem standsFor_ofNat {n : ℕ} (hn : (n : ℚ) ≤ 2 ^ 1023) : StandsFor (Float.ofNat n) (nearest n) := by
  by_cases hsmall : n < 2 ^ 53
  · have hmul : Float.ofNat n = n.toUInt64.toFloat * Float.ofBits 0x3FF0000000000000 :=
      dif_pos ⟨hsmall, Nat.zero_le 22⟩
    have hconverted : StandsFor n.toUInt64.toFloat (nearest n) := by
      have hint : n.toUInt64.toFloat = .ofModel (.pack (UnpackedFloat.ofInt Format.binary64 n)) := by
        have hto : n.toUInt64.toNat = n := Nat.mod_eq_of_lt (by omega)
        show Float.ofModel (.pack (UnpackedFloat.ofInt _ (n.toUInt64.toNat : ℕ))) = _
        rw [hto]
      rw [hint]
      exact standsFor_pack (Nat.cast_nonneg n) hn (denotes_ofInt n)
    have hproduct := hconverted.mul standsFor_one (by
      rw [mul_one]
      exact nearest_le_two_pow (Nat.cast_nonneg n) hn)
    rw [mul_one, hconverted.nearest_eq] at hproduct
    rw [hmul]
    exact hproduct
  · have hscientific : Float.ofNat n = .ofModel (.pack (UnpackedFloat.ofScientific Format.binary64 n 0)) :=
      dif_neg fun h => hsmall h.1
    rw [hscientific]
    exact standsFor_pack (Nat.cast_nonneg n) hn (denotes_ofScientific (by omega))

/-- Small natural numbers are converted exactly. -/
theorem standsFor_natCast {n : ℕ} (h : n < 2 ^ 53) : StandsFor (Float.ofNat n) n := by
  have hmax : (n : ℚ) ≤ 2 ^ 1023 := by
    calc (n : ℚ) ≤ 2 ^ 53 := by exact_mod_cast h.le
      _ ≤ 2 ^ 1023 := pow_le_pow_right₀ one_le_two (by norm_num)
  exact nearest_natCast h ▸ standsFor_ofNat hmax

theorem standsFor_hundred : StandsFor 100 100 := by
  exact_mod_cast standsFor_natCast (n := 100) (by norm_num)

end LiteralAudit.Number

/-!
## The order of floats

Every float but NaN has a place in one order (`place?`): the infinities at the ends, zero in the middle, and
the finite floats between them by exponent and mantissa. Floats compare as their places do
(`compare_eq_place`), and NaN compares with nothing.

* `lt_of_lt_of_le`: a float below another one is below everything that is no less than that one.
* `le_iff_not_lt`: floats that are not NaN are never left without an order.
-/

namespace LiteralAudit.Number

open Float.Model Float.Model.UnpackedFloat

/-! ### Places -/

/-- The place of a float among all others: by its sign, then by its exponent, then by its mantissa. -/
def place? : UnpackedFloat → Option (ℤ ×ₗ ℤ ×ₗ ℤ)
  | .notANumber => none
  | .infinity .negative => some (toLex (-2, toLex (0, 0)))
  | .finite .negative m e _ => some (toLex (-1, toLex (-e, -m)))
  | .zero _ => some (toLex (0, toLex (0, 0)))
  | .finite .positive m e _ => some (toLex (1, toLex (e, m)))
  | .infinity .positive => some (toLex (2, toLex (0, 0)))

variable {u v : UnpackedFloat}

theorem place?_eq_none_iff : place? u = none ↔ u.isNaN = true := by
  obtain (_ | _) | _ | _ | ⟨_ | _, m, e, hm⟩ := u <;> simp [place?, UnpackedFloat.isNaN]

theorem compare_neg (x y : ℤ) : compare (-x) (-y) = (compare x y).swap := by
  have hanti : StrictAnti (Neg.neg : ℤ → ℤ) := fun _ _ h => neg_lt_neg h
  rw [Int.compare_swap, ← cmp_eq_compare, ← cmp_eq_compare, hanti.cmp_map_eq]

theorem compare_natCast (m n : ℕ) : compare (m : ℤ) n = compare m n := by
  have hmono : StrictMono (Nat.cast : ℕ → ℤ) := fun _ _ h => Int.ofNat_lt.2 h
  rw [← cmp_eq_compare, ← cmp_eq_compare, hmono.cmp_map_eq]

/-- Floats compare as their places do. -/
theorem compare_eq_place : UnpackedFloat.compare u v =
    (place? u).bind fun a => (place? v).map (compare a) := by
  obtain (_ | _) | _ | s | ⟨_ | _, m, e, hm⟩ := u <;>
    obtain (_ | _) | _ | t | ⟨_ | _, n, f, hn⟩ := v
  -- Only finite floats of one sign have more than their signs to compare.
  case finite.negative.finite.negative =>
    show some ((compare e f).then (compare m n)).swap =
      some ((compare (-e) (-f)).then (compare (-(m : ℤ)) (-n)))
    rw [compare_neg, compare_neg, compare_natCast, Ordering.swap_then]
  case finite.positive.finite.positive =>
    show some ((compare e f).then (compare m n)) = some ((compare e f).then (compare (m : ℤ) n))
    rw [compare_natCast]
  all_goals rfl

theorem lt_iff_place : u.lt v = true ↔ ∃ a ∈ place? u, ∃ b ∈ place? v, a < b := by
  rw [UnpackedFloat.lt, beq_iff_eq, compare_eq_place]
  cases place? u <;> cases place? v <;> simp [compare_lt_iff_lt]

theorem le_iff_place : u.le v = true ↔ ∃ a ∈ place? u, ∃ b ∈ place? v, a ≤ b := by
  rw [UnpackedFloat.le, compare_eq_place]
  cases place? u <;> cases place? v <;> simp [Ordering.isLE_iff_ne_gt, compare_gt_iff_gt]

/-! ### Floats -/

variable {a b c : Float}

/-- A float below another one is below everything that is no less than that one. -/
theorem lt_of_lt_of_le (h : a < b) (h' : b ≤ c) : a < c := by
  rw [lt_iff_unpack, lt_iff_place] at h ⊢
  rw [le_iff_unpack, le_iff_place] at h'
  obtain ⟨p, hp, q, hq, hlt⟩ := h
  obtain ⟨q', hq', r, hr, hle⟩ := h'
  obtain rfl := Option.mem_unique hq hq'
  exact ⟨p, hp, r, hr, hlt.trans_le hle⟩

theorem not_lt_of_isNaN (h : b.isNaN = true) : ¬a < b := by
  rw [lt_iff_unpack, lt_iff_place]
  rintro ⟨-, -, q, hq, -⟩
  exact absurd (place?_eq_none_iff.2 h) (Option.ne_none_iff_exists'.2 ⟨q, hq⟩)

theorem isNaN_of_lt (h : a < b) : b.isNaN = false := by
  rw [← Bool.not_eq_true]
  intro hnan
  exact not_lt_of_isNaN hnan h

/-- Of two floats that are not NaN, the first is no greater than the second unless it is above it. -/
theorem le_iff_not_lt (ha : a.isNaN = false) (hb : b.isNaN = false) : a ≤ b ↔ ¬b < a := by
  obtain ⟨p, hp⟩ := Option.ne_none_iff_exists'.1 (mt place?_eq_none_iff.1 (Bool.eq_false_iff.1 ha))
  obtain ⟨q, hq⟩ := Option.ne_none_iff_exists'.1 (mt place?_eq_none_iff.1 (Bool.eq_false_iff.1 hb))
  rw [le_iff_unpack, le_iff_place, lt_iff_unpack, lt_iff_place]
  simp [hp, hq]

theorem isNaN_of_le (h : a ≤ b) : a.isNaN = false ∧ b.isNaN = false := by
  rw [le_iff_unpack, le_iff_place] at h
  obtain ⟨p, hp, q, hq, -⟩ := h
  constructor <;> rw [← Bool.not_eq_true] <;> intro hnan
  · exact absurd (place?_eq_none_iff.2 hnan) (Option.ne_none_iff_exists'.2 ⟨p, hp⟩)
  · exact absurd (place?_eq_none_iff.2 hnan) (Option.ne_none_iff_exists'.2 ⟨q, hq⟩)

end LiteralAudit.Number
