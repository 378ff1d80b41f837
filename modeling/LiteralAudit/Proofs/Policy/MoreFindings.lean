import LiteralAudit.Proofs.Pipeline.Verdict
import LiteralAudit.Proofs.Report.Score

/-!
# More findings never help

A report that holds the issues of another one and more of them counts at least as much everywhere and has
no greater score (`Report.worse_of_sublist`). Every gate looks at one count or at the score, so that the
gates that trip on the first report trip on the second one (`Gates.tripsStill_of_worse`). Both hold for any
levels, unknown ones included, and wherever the issues are added (`Report.more_findings_never_help`).
-/

namespace LiteralAudit

namespace Report

/-- The report counts whatever the first one counts, and its score is not greater. -/
structure Worse (r r' : Report) : Prop where
  levels : ∀ s, r.count s ≤ r'.count s
  kinds : ∀ kind, (r.byKind?.getD []).get kind ≤ (r'.byKind?.getD []).get kind
  issues : r.issues.length ≤ r'.issues.length
  score : r'.score ≤ r.score
  /-- Thresholds need not be numbers. -/
  below : ∀ t, r.score < t → r'.score < t

/-- The report with one more issue, put behind the first `n`. -/
def withIssue (r : Report) (n : ℕ) (i : Issue) : Report :=
  { r with issues? := some (r.issues.take n ++ i :: r.issues.drop n) }

theorem sublist_withIssue (r : Report) (n : ℕ) (i : Issue) :
    r.issues.Sublist (r.withIssue n i).issues := by
  have h := (List.Sublist.refl (r.issues.take n)).append (List.sublist_cons_self i (r.issues.drop n))
  rwa [List.take_append_drop] at h

theorem length_withIssue (r : Report) (n : ℕ) (i : Issue) :
    (r.withIssue n i).issues.length = r.issues.length + 1 := by
  have h := congrArg List.length (List.take_append_drop n r.issues)
  show (r.issues.take n ++ i :: r.issues.drop n).length = _
  rw [List.length_append] at h
  rw [List.length_append, List.length_cons]
  omega

end Report

theorem Score.pointsOf_le {issues more : List Issue} (h : issues.Sublist more) :
    pointsOf issues ≤ pointsOf more := by
  induction h with
  | slnil => exact le_rfl
  | @cons l l' i _ ih =>
    have hcons : pointsOf (i :: l') = weightOf i.severity.name + pointsOf l' := List.sum_cons
    have := (weightOf_bounds i.severity.name).1
    omega
  | @cons_cons l l' i _ ih =>
    have hcons : ∀ l, pointsOf (i :: l) = weightOf i.severity.name + pointsOf l := fun _ => List.sum_cons
    rw [hcons, hcons]
    omega

theorem Counts.get_tally_le (c : Counts) {names more : List Text} (h : names.Sublist more) (name : Text) :
    (c.tally names).get name ≤ (c.tally more).get name := by
  rw [get_tally, get_tally]
  have := h.count_le name
  omega

/-- Issues that are added count, at any place and of any level. -/
theorem Report.worse_of_sublist {r r' : Report} (h : r.issues.Sublist r'.issues)
    (hfew : r'.issues.length ≤ 2 ^ 59) (hfiles : r'.files = r.files) : r.finalize.Worse r'.finalize := by
  have hbounds := Score.pointsOf_bounds r.issues
  have hbounds' := Score.pointsOf_bounds r'.issues
  have hle := Score.pointsOf_le h
  have hpoints := Score.points_countBySeverity (by omega : Score.pointsOf r.issues < 2 ^ 63)
  have hpoints' := Score.points_countBySeverity (by omega : Score.pointsOf r'.issues < 2 ^ 63)
  have hscore := Score.score_anti (hpoints.trans_le (hle.trans_eq hpoints'.symm)) (by omega) (by omega)
    r.files
  have hfinal : r'.finalize.score = Score.score (countBySeverity r'.issues) r.files := by
    rw [← hfiles]
    rfl
  exact {
    levels := fun s => Counts.get_tally_le _ (h.map _) s.name
    kinds := Counts.get_tally_le _ (h.map _)
    issues := h.length_le
    score := hfinal ▸ hscore.1
    below := hfinal ▸ hscore.2 }

namespace Gates

/-- The forbidden kinds that a report has issues of. -/
def found (g : Gates) (r : Report) : List Text :=
  g.forbidden.filter fun kind => 0 < (r.byKind?.getD []).get kind

/-- What tripped on the first report trips on the second one. Each forbidden kind is a gate of its own. -/
structure TripsStill (g : Gates) (r r' : Report) : Prop where
  gates : ((g.evaluate r).violations.map (·.gate)).Sublist ((g.evaluate r').violations.map (·.gate))
  kinds : (g.found r).Sublist (g.found r')

variable {g : Gates} {r r' : Report}

/-- What fails the first report fails the second one. -/
theorem TripsStill.fails (h : g.TripsStill r r') (hfails : (g.evaluate r).passes = false) :
    (g.evaluate r').passes = false := by
  have hlength := h.gates.length_le
  unfold Decision.passes at *
  rw [List.length_map, List.length_map] at hlength
  rw [← Bool.not_eq_true, List.isEmpty_iff_length_eq_zero] at *
  omega

theorem sublist_of_imp {p q : Prop} [Decidable p] [Decidable q] (h : p → q) (gate : Text) :
    (if p then [gate] else []).Sublist (if q then [gate] else []) := by
  by_cases hp : p
  · rw [if_pos hp, if_pos (h hp)]
  · rw [if_neg hp]
    exact List.nil_sublist _

theorem map_gate_kindViolations (g : Gates) (r : Report) :
    (g.kindViolations r).map (·.gate) = (g.found r).map fun _ => ("forbid_types" : Text) := by
  unfold kindViolations found
  dsimp only
  induction g.forbidden with
  | nil => rfl
  | cons kind kinds ih =>
    by_cases h : 0 < (r.byKind?.getD []).get kind
    · rw [List.filterMap_cons, if_pos h, List.filter_cons, if_pos (decide_eq_true h)]
      exact congrArg (List.cons _) ih
    · rw [List.filterMap_cons, if_neg h, List.filter_cons, if_neg (mt of_decide_eq_true h)]
      exact ih

theorem tripsStill_of_worse (g : Gates) (h : r.Worse r') : g.TripsStill r r' := by
  have hkinds : (g.found r).Sublist (g.found r') := by
    refine List.monotone_filter_right _ fun kind hkind => ?_
    have := h.kinds kind
    simp only [decide_eq_true_eq] at hkind ⊢
    omega
  have hlevel : ∀ on gate s, ((levelViolation on gate s r).map (·.gate)).Sublist
      ((levelViolation on gate s r').map (·.gate)) := by
    intro on gate s
    have := h.levels s
    rw [map_gate_levelViolation, map_gate_levelViolation]
    exact sublist_of_imp (fun hon => ⟨hon.1, by omega⟩) gate
  have hscore : ((g.scoreViolation r).map (·.gate)).Sublist ((g.scoreViolation r').map (·.gate)) := by
    rw [map_gate_scoreViolation, map_gate_scoreViolation]
    exact sublist_of_imp (h.below g.threshold) _
  have hlimit : ((g.limitViolation r).map (·.gate)).Sublist ((g.limitViolation r').map (·.gate)) := by
    have := h.issues
    rw [map_gate_limitViolation, map_gate_limitViolation]
    refine sublist_of_imp ?_ _
    rintro ⟨limit, hmax, hlt⟩
    exact ⟨limit, hmax, by omega⟩
  refine ⟨?_, hkinds⟩
  unfold evaluate
  simp only [List.map_append]
  refine ((((hlevel _ _ _).append (hlevel _ _ _)).append (hlevel _ _ _)).append hscore).append
    hlimit |>.append ?_
  rw [map_gate_kindViolations, map_gate_kindViolations]
  exact hkinds.map _

end Gates

/-- An issue more, wherever it stands in the report and of whatever level, lowers no count and raises no
score, and no gates that failed the report pass it then. -/
theorem Report.more_findings_never_help (r : Report) (n : ℕ) (i : Issue)
    (hfew : r.issues.length < 2 ^ 59) :
    r.finalize.Worse (r.withIssue n i).finalize ∧
      ∀ g : Gates, g.TripsStill r.finalize (r.withIssue n i).finalize ∧
        ((g.evaluate r.finalize).passes = false →
          (g.evaluate (r.withIssue n i).finalize).passes = false) := by
  have hlength := length_withIssue r n i
  have hworse := worse_of_sublist (sublist_withIssue r n i) (by omega) rfl
  refine ⟨hworse, fun g => ?_⟩
  have hstill := Gates.tripsStill_of_worse g hworse
  exact ⟨hstill, hstill.fails⟩

/-- One file with an issue of the level `high`. -/
def Report.oneHigh : Report := { files := 1, issues? := some [{ kind := "sql", severity := .high }] }

/-- Gates that fail such a report for its issue and for its score, 50. -/
def Gates.strict : Gates := { failOnHigh := true, threshold := 85, forbidden := ["url"] }

/-- An issue of an unknown level in front costs nothing, and what failed the report still does. -/
theorem unknown_level_added_to_failing_report :
    Report.oneHigh.issues.length < 2 ^ 59 ∧ (Gates.strict.evaluate Report.oneHigh.finalize).passes = false ∧
      Gates.strict.TripsStill Report.oneHigh.finalize
        (Report.oneHigh.withIssue 0 { kind := "url", severity := .other "odd" }).finalize ∧
      (Gates.strict.evaluate
        (Report.oneHigh.withIssue 0 { kind := "url", severity := .other "odd" }).finalize).passes = false := by
  have hfew : Report.oneHigh.issues.length < 2 ^ 59 := by decide
  have hfails : (Gates.strict.evaluate Report.oneHigh.finalize).passes = false := by decide
  have h := (Report.oneHigh.more_findings_never_help 0 { kind := "url", severity := .other "odd" } hfew).2
    Gates.strict
  exact ⟨hfew, hfails, h.1, h.2 hfails⟩

end LiteralAudit
