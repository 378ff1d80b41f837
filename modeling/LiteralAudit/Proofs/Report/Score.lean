import LiteralAudit.Proofs.Number.FloatArithmetic
import LiteralAudit.Proofs.Report.Counts
import LiteralAudit.Report.Score

/-!
# Points and scores

The points of a report are the weights of its issues (`Score.points_countBySeverity`), as long as they
fit 64 bits. Its score is `100 - points * 100 / worst`, at least 0, with every step rounded to the nearest
float (`Score.standsFor_score`), so that more points never raise it (`Score.ofPoints_anti`), and it never
leaves 0 to 100 (`Score.score_bounds`).

A finalized report shows counts and a score that depend on neither the order of its issues nor that in which
a table is read (`Report.finalize_counts_in_any_order`).
-/

namespace LiteralAudit

open Number

/-! ## Points -/

theorem Severity.weight_bounds (s : Severity) : 0 ≤ s.weight ∧ s.weight ≤ 10 := by
  cases s <;> simp [weight]

theorem Number.wrap64_eq_self {i : Int} (h : 0 ≤ i) (hlt : i < 2 ^ 63) : wrap64 i = i :=
  Int.bmod_eq_of_le (by omega) (by omega)

/-- A sum that wraps at every step is the sum that wraps once. -/
theorem Number.foldl_wrap64 {α : Type} (f : α → Int) (l : List α) (sum : Int) :
    l.foldl (fun sum x => wrap64 (sum + wrap64 (f x))) (wrap64 sum) = wrap64 (sum + (l.map f).sum) := by
  induction l generalizing sum with
  | nil => simp
  | cons x l ih =>
    have hstep : wrap64 (wrap64 sum + wrap64 (f x)) = wrap64 (sum + f x) := by
      unfold wrap64
      rw [Int.bmod_add_bmod, Int.add_bmod_bmod]
    rw [List.foldl_cons, hstep, ih, List.map_cons, List.sum_cons, add_assoc]

namespace Score

/-- The points of one issue. -/
def weightOf (name : Text) : Int := (Severity.ofName name).weight

theorem weightOf_bounds (name : Text) : 0 ≤ weightOf name ∧ weightOf name ≤ 10 :=
  Severity.weight_bounds _

/-- Whatever order a table is read in, its points are the sum of what its entries add, wrapped once. -/
theorem points_eq_wrap64 (c : Counts) : points c = wrap64 (c.weighted weightOf) := by
  have hfold := foldl_wrap64 (fun x : Text × Int => weightOf x.1 * x.2) c 0
  rw [zero_add] at hfold
  exact hfold

/-- Nothing wraps while the sum fits 64 bits. -/
theorem points_eq_weighted {c : Counts} (h : c.Nonneg) (hlt : c.weighted weightOf < 2 ^ 63) :
    points c = c.weighted weightOf := by
  have hsum : 0 ≤ c.weighted weightOf := by
    refine List.sum_nonneg fun i hi => ?_
    obtain ⟨x, hx, rfl⟩ := List.mem_map.1 hi
    exact mul_nonneg (weightOf_bounds x.1).1 (h x hx)
  rw [points_eq_wrap64, wrap64_eq_self hsum hlt]

/-- The points of issues, with nothing lost. -/
def pointsOf (issues : List Issue) : Int := (issues.map fun i => weightOf i.severity.name).sum

theorem pointsOf_bounds (issues : List Issue) :
    0 ≤ pointsOf issues ∧ pointsOf issues ≤ 10 * issues.length := by
  induction issues with
  | nil => exact ⟨le_rfl, le_rfl⟩
  | cons i issues ih =>
    have hweight := weightOf_bounds i.severity.name
    have hcons : pointsOf (i :: issues) = weightOf i.severity.name + pointsOf issues := List.sum_cons
    rw [hcons, List.length_cons]
    omega

/-- The known levels, none of which has been counted yet. -/
def noneCounted : Counts := (Severity.known.map (·.name)).foldl (fun c name => c.set name 0) []

theorem sorted_noneCounted : noneCounted.Sorted := by decide

theorem countBySeverity_eq (issues : List Issue) :
    Report.countBySeverity issues = noneCounted.tally (issues.map (·.severity.name)) := rfl

theorem weighted_countBySeverity (issues : List Issue) :
    (Report.countBySeverity issues).weighted weightOf = pointsOf issues := by
  rw [countBySeverity_eq, Counts.weighted_tally _ sorted_noneCounted, List.map_map]
  exact zero_add _

theorem points_countBySeverity {issues : List Issue} (h : pointsOf issues < 2 ^ 63) :
    points (Report.countBySeverity issues) = pointsOf issues := by
  have hnonneg : noneCounted.Nonneg := by decide
  have hcounts : (Report.countBySeverity issues).Nonneg := hnonneg.tally _
  have hweighted := weighted_countBySeverity issues
  rw [points_eq_weighted hcounts (hweighted ▸ h), hweighted]

/-! ## Scores -/

/-- The score that points bring. Every step of the arithmetic rounds. -/
def ofPoints (points worst : ℕ) : ℚ :=
  nearest (max 0 (100 - nearest (nearest (nearest points * 100) / nearest worst)))

theorem ofPoints_anti {p q : ℕ} (h : p ≤ q) (worst : ℕ) : ofPoints q worst ≤ ofPoints p worst := by
  have hpoints : nearest p ≤ nearest q := nearest_mono (Nat.cast_nonneg p) (by exact_mod_cast h)
  have hpercent : nearest (nearest p * 100) ≤ nearest (nearest q * 100) :=
    nearest_mono (mul_nonneg (nearest_nonneg _) (by norm_num))
      (mul_le_mul_of_nonneg_right hpoints (by norm_num))
  have hlost : nearest (nearest (nearest p * 100) / nearest worst) ≤
      nearest (nearest (nearest q * 100) / nearest worst) :=
    nearest_mono (div_nonneg (nearest_nonneg _) (nearest_nonneg _))
      (div_le_div_of_nonneg_right hpercent (nearest_nonneg _))
  exact nearest_mono (le_max_left _ _) (max_le_max_left _ (sub_le_sub_left hlost _))

theorem ofPoints_le (points worst : ℕ) : ofPoints points worst ≤ 100 := by
  have hhundred : nearest 100 = 100 := nearest_natCast (n := 100) (by norm_num)
  have hlost : 0 ≤ nearest (nearest (nearest points * 100) / nearest worst) := nearest_nonneg _
  calc ofPoints points worst
      ≤ nearest 100 := nearest_mono (le_max_left _ _) (max_le (by norm_num) (sub_le_self _ hlost))
    _ = 100 := hhundred

/-- The score of a table is that of its points. -/
theorem standsFor_score {c : Counts} {files : Int} {p w : ℕ} (hp : points c = p)
    (hw : wrap64 (files * worstPerFile) = w) (hpos : 0 < w) (hplt : p < 2 ^ 63) (hwlt : w < 2 ^ 63) :
    StandsFor (score c files) (ofPoints p w) := by
  have hscore : score c files =
      if 100 - Float.ofNat p * 100 / Float.ofNat w > 0
      then 100 - Float.ofNat p * 100 / Float.ofNat w else 0 := by
    rw [score, hw, hp, if_neg (by omega)]
    rfl
  have hbound : ∀ {x : ℚ} {k : ℕ}, k ≤ 1023 → x ≤ 2 ^ k → x ≤ 2 ^ 1023 := fun hk hx =>
    hx.trans (pow_le_pow_right₀ one_le_two hk)
  have hp63 : (p : ℚ) ≤ 2 ^ 63 := by exact_mod_cast hplt.le
  have hw63 : (w : ℚ) ≤ 2 ^ 63 := by exact_mod_cast hwlt.le
  have hpoints := standsFor_ofNat (hbound (by norm_num) hp63)
  have hworst := standsFor_ofNat (hbound (by norm_num) hw63)
  have hpercent : nearest p * 100 ≤ 2 ^ 70 := by
    have := nearest_le_two_pow (Nat.cast_nonneg p) hp63
    linarith
  have hproduct := hpoints.mul standsFor_hundred (hbound (by norm_num) hpercent)
  have hone : 1 ≤ nearest w := by
    have h := nearest_mono zero_le_one (by exact_mod_cast hpos : (1 : ℚ) ≤ w)
    rwa [← pow_zero (2 : ℚ), nearest_two_pow] at h
  have hquotient : nearest (nearest p * 100) / nearest w ≤ 2 ^ 70 :=
    (div_le_self hproduct.nonneg hone).trans
      (nearest_le_two_pow (mul_nonneg hpoints.nonneg (by norm_num)) hpercent)
  have hlost := hproduct.div hworst (one_pos.trans_le hone) (hbound (by norm_num) hquotient)
  rw [hscore, ofPoints]
  by_cases hle : nearest (nearest (nearest p * 100) / nearest w) ≤ 100
  · have hleft := standsFor_hundred.sub hlost hle (hbound (k := 7) (by norm_num) (by norm_num))
    rw [max_eq_right (sub_nonneg.2 hle)]
    split_ifs with h
    · exact hleft
    · have hzero := hleft.nonneg.antisymm (not_lt.1 ((standsFor_zero.lt_iff hleft).not.1 h))
      exact hzero ▸ standsFor_zero
  · rw [max_eq_left (sub_nonpos.2 (not_le.1 hle).le), nearest_zero,
      if_neg (standsFor_hundred.sub_not_pos hlost (not_le.1 hle))]
    exact standsFor_zero

/-- More points, no greater score, also against thresholds that are no numbers. -/
theorem score_anti {c d : Counts} (h : points c ≤ points d) (hc : 0 ≤ points c) (hd : points d < 2 ^ 63)
    (files : Int) : score d files ≤ score c files ∧ ∀ t, score c files < t → score d files < t := by
  by_cases hworst : wrap64 (files * worstPerFile) ≤ 0
  · have hfull : ∀ c, score c files = 100 := fun c => if_pos hworst
    rw [hfull, hfull]
    exact ⟨(standsFor_hundred.le_iff standsFor_hundred).2 le_rfl, fun _ => id⟩
  · obtain ⟨w, hw⟩ := Int.eq_ofNat_of_zero_le (by omega : 0 ≤ wrap64 (files * worstPerFile))
    obtain ⟨p, hp⟩ := Int.eq_ofNat_of_zero_le hc
    obtain ⟨q, hq⟩ := Int.eq_ofNat_of_zero_le (hc.trans h)
    have hwlt : wrap64 (files * worstPerFile) < 2 ^ 63 := Int.bmod_lt (by norm_num)
    have hcs := standsFor_score hp hw (by omega) (by omega) (by omega)
    have hds := standsFor_score hq hw (by omega) (by omega) (by omega)
    have hle := ofPoints_anti (by omega : p ≤ q) w
    exact ⟨(hds.le_iff hcs).2 hle, fun t ht => hds.lt_of_le_of_lt hcs hle ht⟩

/-- A score lies between 0 and 100, unless so many issues are counted that their points wrap. -/
theorem score_bounds {c : Counts} (hc : 0 ≤ points c) (files : Int) :
    0 ≤ score c files ∧ score c files ≤ 100 ∧ ¬ score c files < 0 ∧ ¬ 100 < score c files := by
  suffices h : ∃ x, StandsFor (score c files) x ∧ x ≤ 100 by
    obtain ⟨x, hx, hle⟩ := h
    exact ⟨(standsFor_zero.le_iff hx).2 hx.nonneg, (hx.le_iff standsFor_hundred).2 hle,
      fun hlt => hx.nonneg.not_gt ((hx.lt_iff standsFor_zero).1 hlt),
      fun hlt => hle.not_gt ((standsFor_hundred.lt_iff hx).1 hlt)⟩
  by_cases hworst : wrap64 (files * worstPerFile) ≤ 0
  · have hfull : score c files = 100 := if_pos hworst
    exact ⟨100, hfull ▸ standsFor_hundred, le_rfl⟩
  · obtain ⟨w, hw⟩ := Int.eq_ofNat_of_zero_le (by omega : 0 ≤ wrap64 (files * worstPerFile))
    obtain ⟨p, hp⟩ := Int.eq_ofNat_of_zero_le hc
    have hplt : points c < 2 ^ 63 := points_eq_wrap64 c ▸ Int.bmod_lt (by norm_num)
    have hwlt : wrap64 (files * worstPerFile) < 2 ^ 63 := Int.bmod_lt (by norm_num)
    exact ⟨_, standsFor_score hp hw (by omega) (by omega) (by omega), ofPoints_le p w⟩

/-! ## Finalized reports -/

/-- Only the points count. -/
theorem score_congr {c d : Counts} (h : points c = points d) (files : Int) :
    score c files = score d files := by
  unfold score
  rw [h]

/-- A score does not depend on the order in which the levels are read. -/
theorem score_perm {c d : Counts} (h : c.Perm d) (files : Int) : score c files = score d files :=
  score_congr (by rw [points_eq_wrap64, points_eq_wrap64, Counts.weighted_perm _ h]) files

theorem score_countBySeverity_congr {issues issues' : List Issue} (h : pointsOf issues = pointsOf issues')
    (files : Int) : score (Report.countBySeverity issues) files =
      score (Report.countBySeverity issues') files := by
  refine score_congr ?_ files
  rw [points_eq_wrap64, points_eq_wrap64, weighted_countBySeverity, weighted_countBySeverity, h]

/-- What weighs as much as one critical issue. -/
def trades : List (List Severity) := [.replicate 2 .high, .replicate 5 .medium, .replicate 10 .low]

theorem pointsOf_append (issues more : List Issue) :
    pointsOf (issues ++ more) = pointsOf issues + pointsOf more := by
  simp [pointsOf]

theorem pointsOf_trade {i : Issue} (hi : i.severity = .critical) {traded : List Issue}
    (h : traded.map (·.severity) ∈ trades) : pointsOf traded = pointsOf [i] := by
  have hmap : ∀ issues : List Issue,
      pointsOf issues = ((issues.map (·.severity)).map fun s => weightOf s.name).sum := fun issues => by
    rw [List.map_map]
    rfl
  have htrades : ∀ levels ∈ trades, (levels.map fun s => weightOf s.name).sum = 10 := by decide
  rw [hmap, htrades _ h, hmap, List.map_singleton, hi]
  decide

end Score

namespace Report

/-- The tables of a report count each of its issues once, under its level and under its kind. -/
structure Tabulated (issues : List Issue) (levels kinds : Counts) : Prop where
  level_eq : ∀ name, levels.get name = (issues.map (·.severity.name)).count name
  kind_eq : ∀ name, kinds.get name = (issues.map (·.kind)).count name
  known : ∀ s ∈ Severity.known, s.name ∈ levels.map (·.1)
  total_levels : levels.total = issues.length
  total_kinds : kinds.total = issues.length

theorem tabulated (issues : List Issue) :
    Tabulated issues (countBySeverity issues) (countByKind issues) := by
  have hempty : Counts.Sorted [] := List.Pairwise.nil
  have hzero : ∀ x ∈ Score.noneCounted, x.2 = 0 := by decide
  have hnone : ∀ name, Score.noneCounted.get name = 0 := by
    intro name
    cases h : Score.noneCounted.lookup name with
    | none => rw [Counts.get, h]; rfl
    | some n =>
      rw [Counts.get, h]
      exact hzero (name, n) ((Score.sorted_noneCounted.mem_iff (name, n)).2 h)
  refine {
    level_eq := fun name => ?_
    kind_eq := fun name => ?_
    known := fun s hs => ?_
    total_levels := ?_
    total_kinds := ?_ }
  · rw [Score.countBySeverity_eq, Counts.get_tally, hnone, zero_add]
  · rw [countByKind, Counts.get_tally]
    exact zero_add _
  · -- The levels stood in the table before anything was counted.
    have hsorted := Score.sorted_noneCounted.tally (issues.map (·.severity.name))
    have hlisted : ∀ s ∈ Severity.known, (Score.noneCounted.lookup s.name).isSome = true := by decide
    obtain ⟨n, hn⟩ : ∃ n, (countBySeverity issues).lookup s.name = some n := by
      rw [Score.countBySeverity_eq, Counts.lookup_tally]
      split
      · exact ⟨_, rfl⟩
      · exact Option.isSome_iff_exists.1 (hlisted s hs)
    exact List.mem_map.2 ⟨(s.name, n), (hsorted.mem_iff _).2 hn, rfl⟩
  · rw [Score.countBySeverity_eq, Counts.total_tally Score.sorted_noneCounted, List.length_map]
    exact zero_add _
  · rw [countByKind, Counts.total_tally hempty, List.length_map]
    exact zero_add _

/-- To finalize a report is to count its issues, which can be done in any order and more than once: the
tables come out the same, and so do the score and its word. The tables count every issue once, and list the
known levels in any case. The score depends on the issues through their points alone, however the table of
levels is read, so that a critical issue can be traded for what weighs as much. -/
theorem finalize_counts_in_any_order (r : Report) :
    (∀ s : Report, s.issues.Perm r.issues → s.files = r.files →
      s.finalize.bySeverity? = r.finalize.bySeverity? ∧ s.finalize.byKind? = r.finalize.byKind? ∧
        s.finalize.score = r.finalize.score ∧ s.finalize.readiness = r.finalize.readiness) ∧
    (∀ s : Report, Score.pointsOf s.issues = Score.pointsOf r.issues → s.files = r.files →
      s.finalize.score = r.finalize.score ∧ s.finalize.readiness = r.finalize.readiness) ∧
    (∀ (front back traded : List Issue) (i : Issue), i.severity = .critical →
      traded.map (·.severity) ∈ Score.trades →
      { r with issues? := some (front ++ traded ++ back) }.finalize.score =
        { r with issues? := some (front ++ [i] ++ back) }.finalize.score) ∧
    (∃ levels kinds, r.finalize.bySeverity? = some levels ∧ r.finalize.byKind? = some kinds ∧
      Tabulated r.issues levels kinds ∧
      ∀ levels', levels'.Perm levels → Score.score levels' r.files = r.finalize.score) ∧
    r.finalize.finalize = r.finalize := by
  have hscore : ∀ r : Report, r.finalize.score = Score.score (countBySeverity r.issues) r.files :=
    fun _ => rfl
  have hreadiness : ∀ r : Report, r.finalize.readiness = Score.readiness r.finalize.score := fun _ => rfl
  have hpoints : ∀ s t : Report, Score.pointsOf s.issues = Score.pointsOf t.issues → s.files = t.files →
      s.finalize.score = t.finalize.score ∧ s.finalize.readiness = t.finalize.readiness := by
    intro s t h hfiles
    have hsame : s.finalize.score = t.finalize.score := by
      rw [hscore, hscore, hfiles, Score.score_countBySeverity_congr h]
    exact ⟨hsame, by rw [hreadiness, hreadiness, hsame]⟩
  refine ⟨fun s hperm hfiles => ?_, fun s => hpoints s r, fun front back traded i hi htrade => ?_,
    ⟨_, _, rfl, rfl, tabulated r.issues, fun levels' hperm => Score.score_perm hperm r.files⟩, rfl⟩
  · have hlevels : countBySeverity s.issues = countBySeverity r.issues :=
      Score.sorted_noneCounted.tally_perm (hperm.map _)
    have hkinds : countByKind s.issues = countByKind r.issues :=
      Counts.Sorted.tally_perm List.Pairwise.nil (hperm.map _)
    exact ⟨congrArg some hlevels, congrArg some hkinds,
      hpoints s r ((hperm.map _).sum_eq) hfiles⟩
  · have hsame : Score.pointsOf (front ++ traded ++ back) = Score.pointsOf (front ++ [i] ++ back) := by
      rw [Score.pointsOf_append, Score.pointsOf_append, Score.pointsOf_append, Score.pointsOf_append,
        Score.pointsOf_trade hi htrade]
    exact (hpoints { r with issues? := some (front ++ traded ++ back) }
      { r with issues? := some (front ++ [i] ++ back) } hsame rfl).1

end Report

end LiteralAudit
