import LiteralAudit.Browser.Screen
import Mathlib

/-!
# Sparklines of counts

The index of a bar is a quotient of 64-bit integers. As long as the values lie so close together that the
dividend fits 64 bits (`Sparkline.Near`), every step towards the index is exact (`Near.exact`), and it is
the index of a bar (`Near.exists_level`). It is the higher the higher the value (`Near.barIndex_mono`), from
the lowest bar for the least value (`Near.barIndex_least`) to the highest one for the greatest
(`Near.barIndex_greatest`).

Counts up to `2 ^ 59` lie that close together, however many there are, so that each of them has a bar
(`Sparkline.bars_in_order`), and a browser that shows the counts of earlier runs always has a screen
(`Browser.exists_view?_of_counts`).
-/

namespace LiteralAudit

namespace Number

theorem fits64_iff {i : Int} : fits64 i = true ↔ minInt64 ≤ i ∧ i ≤ maxInt64 := by
  rw [fits64, Bool.and_eq_true, decide_eq_true_eq, decide_eq_true_eq]

theorem fits64_of_nonneg {i : Int} (h : 0 ≤ i) (hle : i ≤ maxInt64) : fits64 i = true :=
  fits64_iff.2 ⟨Int.le_trans (by decide) h, hle⟩

theorem wrap64_of_fits64 {i : Int} (h : fits64 i = true) : wrap64 i = i := by
  obtain ⟨hle, hge⟩ := fits64_iff.1 h
  rw [minInt64] at hle
  rw [maxInt64] at hge
  exact Int.bmod_eq_of_le (by omega) (by omega)

end Number

namespace Sparkline

variable {lo hi v w : Int}

/-! ## The index of a bar -/

/-- Block elements are numbered by their height. -/
theorem bars_ascend : bars.Pairwise (· < ·) := by decide

/-- The dividend: how far a value is above the least one, as many times as there are steps from the lowest
bar to the highest. -/
def scaled (lo v : Int) : Int := (v - lo) * (bars.length - 1)

theorem scaled_nonneg (h : lo ≤ v) : 0 ≤ scaled lo v :=
  Int.mul_nonneg (Int.sub_nonneg_of_le h) (by decide)

theorem scaled_mono (lo : Int) (h : v ≤ w) : scaled lo v ≤ scaled lo w :=
  Int.mul_le_mul_of_nonneg_right (Int.sub_le_sub_right h lo) (by decide)

theorem sub_le_scaled (h : lo ≤ v) : v - lo ≤ scaled lo v := by
  have hstep : (1 : Int) ≤ bars.length - 1 := by decide
  calc v - lo = (v - lo) * 1 := (Int.mul_one _).symm
    _ ≤ scaled lo v := Int.mul_le_mul_of_nonneg_left hstep (Int.sub_nonneg_of_le h)

/-- No step towards the index of the bar for `v` leaves 64 bits or divides by zero. -/
structure Exact (lo hi v : Int) : Prop where
  offset : Number.fits64 (v - lo) = true
  dividend : Number.fits64 (scaled lo v) = true
  divisor : Number.fits64 (hi - lo) = true
  divisor_ne_zero : Number.wrap64 (hi - lo) ≠ 0
  quotient : Number.fits64 (Int.tdiv (scaled lo v) (hi - lo)) = true

/-- Where every step is exact, the index is the quotient that it stands for. -/
theorem Exact.barIndex_eq (h : Exact lo hi v) :
    barIndex lo hi v = Int.tdiv (scaled lo v) (hi - lo) := by
  have hne : hi ≠ lo := by
    rintro rfl
    exact h.divisor_ne_zero (by rw [Int.sub_self]; rfl)
  have hdividend := Number.wrap64_of_fits64 h.dividend
  rw [scaled] at hdividend
  rw [barIndex, if_neg (by simpa using hne), Number.wrap64_of_fits64 h.offset, hdividend,
    Number.wrap64_of_fits64 h.divisor]
  exact Number.wrap64_of_fits64 h.quotient

/-- Values that are all equal have the bar in the middle. -/
theorem barIndex_self (lo v : Int) : barIndex lo lo v = bars.length / 2 := by
  rw [barIndex, if_pos (by simp)]

/-- Two values that are so close together that the index of every bar between them can be computed. -/
structure Near (lo hi : Int) : Prop where
  le : lo ≤ hi
  scaled_le : scaled lo hi ≤ Number.maxInt64

namespace Near

theorem of_counts (h : lo ≤ hi) (hlow : 0 ≤ lo) (hhigh : hi ≤ 2 ^ 59) : Near lo hi where
  le := h
  scaled_le :=
    calc scaled lo hi ≤ 2 ^ 59 * (bars.length - 1) := Int.mul_le_mul_of_nonneg_right (by omega) (by decide)
      _ ≤ Number.maxInt64 := by decide

variable (h : Near lo hi)

include h

theorem exact (hlt : lo < hi) (hlow : lo ≤ v) (hhigh : v ≤ hi) : Exact lo hi v := by
  have hnonneg := scaled_nonneg hlow
  have hle : scaled lo v ≤ Number.maxInt64 := Int.le_trans (scaled_mono lo hhigh) h.scaled_le
  have hdivisor : Number.fits64 (hi - lo) = true :=
    Number.fits64_of_nonneg (Int.sub_nonneg_of_le h.le) (Int.le_trans (sub_le_scaled h.le) h.scaled_le)
  refine {
    offset := Number.fits64_of_nonneg (Int.sub_nonneg_of_le hlow) (Int.le_trans (sub_le_scaled hlow) hle)
    dividend := Number.fits64_of_nonneg hnonneg hle
    divisor := hdivisor
    divisor_ne_zero := ?_
    quotient := ?_ }
  · rw [Number.wrap64_of_fits64 hdivisor]
    omega
  · -- A quotient of such numbers is no greater than its dividend.
    rw [Int.tdiv_eq_ediv_of_nonneg hnonneg]
    exact Number.fits64_of_nonneg (Int.ediv_nonneg hnonneg (Int.sub_nonneg_of_le h.le))
      (Int.le_trans (Int.ediv_le_self _ hnonneg) hle)

theorem barIndex_eq (hlt : lo < hi) (hlow : lo ≤ v) (hhigh : v ≤ hi) :
    barIndex lo hi v = scaled lo v / (hi - lo) :=
  (h.exact hlt hlow hhigh).barIndex_eq.trans (Int.tdiv_eq_ediv_of_nonneg (scaled_nonneg hlow))

theorem barIndex_least (hlt : lo < hi) : barIndex lo hi lo = 0 := by
  rw [h.barIndex_eq hlt Int.le_rfl h.le, scaled, Int.sub_self, Int.zero_mul, Int.zero_ediv]

theorem barIndex_greatest (hlt : lo < hi) : barIndex lo hi hi = bars.length - 1 := by
  rw [h.barIndex_eq hlt h.le Int.le_rfl, scaled, Int.mul_ediv_cancel_left _ (by omega)]

theorem barIndex_mono (hlow : lo ≤ v) (hle : v ≤ w) (hhigh : w ≤ hi) :
    barIndex lo hi v ≤ barIndex lo hi w := by
  obtain rfl | hlt := Int.le_iff_eq_or_lt.1 h.le
  · rw [barIndex_self, barIndex_self]
  · rw [h.barIndex_eq hlt hlow (Int.le_trans hle hhigh), h.barIndex_eq hlt (Int.le_trans hlow hle) hhigh]
    exact Int.ediv_le_ediv (Int.sub_pos_of_lt hlt) (scaled_mono lo hle)

/-- Between the index for the least value and that for the greatest one there are only bars. -/
theorem exists_level (hlow : lo ≤ v) (hhigh : v ≤ hi) :
    ∃ level : Fin bars.length, barIndex lo hi v = (level : Nat) := by
  have hrange : 0 ≤ barIndex lo hi v ∧ barIndex lo hi v < bars.length := by
    obtain rfl | hlt := Int.le_iff_eq_or_lt.1 h.le
    · rw [barIndex_self]
      decide
    · have hleast := h.barIndex_mono Int.le_rfl hlow hhigh
      have hgreatest := h.barIndex_mono hlow hhigh Int.le_rfl
      rw [h.barIndex_least hlt] at hleast
      rw [h.barIndex_greatest hlt] at hgreatest
      omega
  exact ⟨⟨(barIndex lo hi v).toNat, by omega⟩, (Int.toNat_of_nonneg hrange.1).symm⟩

end Near

/-! ## The bars of a list -/

theorem bar?_of_level {level : Fin bars.length} (h : barIndex lo hi v = (level : Nat)) :
    bar? lo hi v = some (Text.ofString bars[level]) := by
  rw [bar?, h, if_neg (by omega), Int.toNat_natCast, List.getElem?_eq_getElem level.isLt]
  rfl

theorem isLeast_foldl_min (first : Int) (rest : List Int) :
    IsLeast {v | v ∈ first :: rest} (rest.foldl min first) :=
  List.min?_eq_some_iff.1 List.min?_cons'

theorem isGreatest_foldl_max (first : Int) (rest : List Int) :
    IsGreatest {v | v ∈ first :: rest} (rest.foldl max first) :=
  List.max?_eq_some_iff.1 List.max?_cons'

theorem mapM_bar? {level : Int → Fin bars.length} {values : List Int}
    (h : ∀ v ∈ values, barIndex lo hi v = (level v : Nat)) :
    values.mapM (bar? lo hi) = some (values.map fun v => Text.ofString bars[level v]) := by
  induction values with
  | nil => rfl
  | cons v values ih =>
    rw [List.mapM_cons, bar?_of_level (h v List.mem_cons_self),
      ih fun w hw => h w (List.mem_cons_of_mem v hw)]
    rfl

/-- When each value has a bar, the bars stand in the order of the values, with the first value and the last
one behind them. -/
theorem render?_of_levels {values : List Int} (hne : values ≠ []) (hlo : IsLeast {v | v ∈ values} lo)
    (hhi : IsGreatest {v | v ∈ values} hi) {level : Int → Fin bars.length}
    (hlevel : ∀ v ∈ values, barIndex lo hi v = (level v : Nat)) :
    render? values = some (values.flatMap (fun v => Text.ofString bars[level v]) ++ " [" ++
      Text.ofInt (values.head hne) ++ "→" ++ Text.ofInt (values.getLast hne) ++ "]") := by
  cases values with
  | nil => exact absurd rfl hne
  | cons first rest =>
    have hlast : rest.getLast?.getD first = (first :: rest).getLast hne :=
      Option.some.inj (List.getLast?_cons.symm.trans (List.getLast?_eq_some_getLast hne))
    rw [← hlast, List.head_cons, render?, (isLeast_foldl_min first rest).unique hlo,
      (isGreatest_foldl_max first rest).unique hhi, mapM_bar? hlevel, Option.map_some,
      List.flatMap_def]

/-- Counts up to `2 ^ 59` are near each other, however many there are. -/
theorem exists_near_of_counts {values : List Int} (hne : values ≠ [])
    (hcounts : ∀ v ∈ values, 0 ≤ v ∧ v ≤ 2 ^ 59) :
    ∃ lo hi, IsLeast {v | v ∈ values} lo ∧ IsGreatest {v | v ∈ values} hi ∧ Near lo hi := by
  obtain ⟨first, rest, rfl⟩ := List.exists_cons_of_ne_nil hne
  have hlo := isLeast_foldl_min first rest
  have hhi := isGreatest_foldl_max first rest
  exact ⟨_, _, hlo, hhi, .of_counts (hlo.2 hhi.1) (hcounts _ hlo.1).1 (hcounts _ hhi.1).2⟩

theorem Near.exists_levels (h : Near lo hi) {values : List Int} (hlo : IsLeast {v | v ∈ values} lo)
    (hhi : IsGreatest {v | v ∈ values} hi) :
    ∃ level : Int → Fin bars.length, ∀ v ∈ values, barIndex lo hi v = (level v : Nat) := by
  have : Nonempty (Fin bars.length) := ⟨0, by decide⟩
  choose! level hlevel using fun v (hv : v ∈ values) => h.exists_level (hlo.2 hv) (hhi.2 hv)
  exact ⟨level, hlevel⟩

/-- The sparkline of counts: each count has one of the eight bars, and no step of the 64-bit arithmetic that
chooses it overflows or divides by zero. The bars stand in the order of the counts, with the first count and
the last one behind them. A greater count never has a lower bar, and unless all counts are equal the least
one has the lowest bar and the greatest one the highest. -/
theorem bars_in_order {values : List Int} (hne : values ≠ [])
    (hcounts : ∀ v ∈ values, 0 ≤ v ∧ v ≤ 2 ^ 59) :
    ∃ lo hi, IsLeast {v | v ∈ values} lo ∧ IsGreatest {v | v ∈ values} hi ∧
      bars.length = 8 ∧ bars.Pairwise (· < ·) ∧ ∃ level : Int → Fin bars.length,
        (∀ v ∈ values, barIndex lo hi v = (level v : Nat) ∧ (lo < hi → Exact lo hi v)) ∧
        render? values = some (values.flatMap (fun v => Text.ofString bars[level v]) ++ " [" ++
          Text.ofInt (values.head hne) ++ "→" ++ Text.ofInt (values.getLast hne) ++ "]") ∧
        (∀ v ∈ values, ∀ w ∈ values, v ≤ w → level v ≤ level w) ∧
        (lo < hi → (level lo : Nat) = 0 ∧ (level hi : Nat) = bars.length - 1) := by
  obtain ⟨lo, hi, hlo, hhi, hnear⟩ := exists_near_of_counts hne hcounts
  obtain ⟨level, hlevel⟩ := hnear.exists_levels hlo hhi
  have hexact (v : Int) (hv : v ∈ values) (hlt : lo < hi) : Exact lo hi v :=
    hnear.exact hlt (hlo.2 hv) (hhi.2 hv)
  refine ⟨lo, hi, hlo, hhi, rfl, bars_ascend, level, fun v hv => ⟨hlevel v hv, hexact v hv⟩,
    render?_of_levels hne hlo hhi hlevel, fun v hv w hw hle => ?_, fun hlt => ⟨?_, ?_⟩⟩
  · have hmono := hnear.barIndex_mono (hlo.2 hv) hle (hhi.2 hw)
    rw [hlevel v hv, hlevel w hw] at hmono
    exact Int.ofNat_le.1 hmono
  · exact Int.ofNat.inj ((hlevel lo hlo.1).symm.trans (hnear.barIndex_least hlt))
  · exact Int.ofNat.inj ((hlevel hi hhi.1).symm.trans (hnear.barIndex_greatest hlt))

/-- Counts from both ends of the range, and from between them. -/
def farApart : List Int := [2 ^ 58, 0, 2 ^ 59, 3]

theorem farApart_in_order : farApart ≠ [] ∧ (∀ v ∈ farApart, 0 ≤ v ∧ v ≤ 2 ^ 59) ∧
    ∃ level : Int → Fin bars.length,
      Exact 0 (2 ^ 59) (2 ^ 58) ∧
      render? farApart = some (farApart.flatMap (fun v => Text.ofString bars[level v]) ++ " [" ++
        Text.ofInt (2 ^ 58) ++ "→" ++ Text.ofInt 3 ++ "]") ∧
      (level 0 : Nat) = 0 ∧ level 3 ≤ level (2 ^ 58) ∧ (level (2 ^ 58) : Nat) = 3 ∧
      (level (2 ^ 59) : Nat) = 7 := by
  have hne : farApart ≠ [] := by decide
  have hcounts : ∀ v ∈ farApart, 0 ≤ v ∧ v ≤ 2 ^ 59 := by decide
  obtain ⟨lo, hi, hlo, hhi, -, -, level, hlevel, hrender, hmono, hends⟩ := bars_in_order hne hcounts
  have hleast : lo = 0 := hlo.unique ⟨by decide, fun v hv => (hcounts v hv).1⟩
  have hgreatest : hi = 2 ^ 59 := hhi.unique ⟨by decide, fun v hv => (hcounts v hv).2⟩
  subst hleast hgreatest
  have hmiddle := hlevel (2 ^ 58) (by decide)
  refine ⟨hne, hcounts, level, hmiddle.2 (by decide), hrender, (hends (by decide)).1,
    hmono 3 (by decide) (2 ^ 58) (by decide) (by decide), ?_, (hends (by decide)).2⟩
  exact Int.ofNat.inj (hmiddle.1.symm.trans (by decide))

-- Four times as far apart, the dividend wraps to a number below zero, where there is no bar.
example : render? [0, 2 ^ 61] = none := by decide

end Sparkline

/-- A browser can show its screen behind any runs of up to `2 ^ 59` issues each, also behind none. -/
theorem Browser.exists_view?_of_counts (b : Browser) {runs : List Report}
    (hhistory : b.history = runs.map fun r => (r.issues.length : Int))
    (hcounts : ∀ r ∈ runs, r.issues.length ≤ 2 ^ 59) : ∃ screen, b.view? = some screen := by
  have hrender : ∃ drawn, Sparkline.render? b.history = some drawn := by
    by_cases hne : b.history = []
    · exact ⟨[], by rw [hne]; rfl⟩
    · have hvalues : ∀ v ∈ b.history, 0 ≤ v ∧ v ≤ 2 ^ 59 := by
        intro v hv
        rw [hhistory] at hv
        obtain ⟨r, hr, rfl⟩ := List.mem_map.1 hv
        exact ⟨Int.natCast_nonneg _, by exact_mod_cast hcounts r hr⟩
      obtain ⟨lo, hi, hlo, hhi, hnear⟩ := Sparkline.exists_near_of_counts hne hvalues
      obtain ⟨level, hlevel⟩ := hnear.exists_levels hlo hhi
      exact ⟨_, Sparkline.render?_of_levels hne hlo hhi hlevel⟩
  obtain ⟨drawn, hdrawn⟩ := hrender
  rw [view?, header?, hdrawn]
  exact ⟨_, rfl⟩

end LiteralAudit
