import LiteralAudit.Proofs.Pipeline.Verdict
import LiteralAudit.Proofs.Policy.Tightening

/-!
# Least scores that are accepted

A policy, a configuration and a command line refuse a least score below 0 or above 100. A float that is no
number is neither, so that what they accept is on the scale (`OnScale`) exactly when it is a number
(`Gates.accepted_threshold_onScale_iff`). The gate for the score trips on every report with a score below
the least one, and on none when that is no number (`Gates.scoreTrips_iff`).
-/

namespace LiteralAudit

/-- A least score among those that a report can have. -/
def OnScale (t : Float) : Prop := 0 ≤ t ∧ t ≤ 100

theorem onScale_iff {t : Float} : OnScale t ↔ ¬t < 0 ∧ ¬100 < t ∧ t.isNaN = false := by
  have hzero : (0 : Float).isNaN = false := by decide +kernel
  have hhundred : (100 : Float).isNaN = false := by decide +kernel
  constructor
  · rintro ⟨hlow, hhigh⟩
    have hnumber := (Number.isNaN_of_le hlow).2
    exact ⟨(Number.le_iff_not_lt hzero hnumber).1 hlow, (Number.le_iff_not_lt hnumber hhundred).1 hhigh,
      hnumber⟩
  · rintro ⟨hlow, hhigh, hnumber⟩
    exact ⟨(Number.le_iff_not_lt hzero hnumber).2 hlow, (Number.le_iff_not_lt hnumber hhundred).2 hhigh⟩

theorem not_onScale_of_isNaN {t : Float} (h : t.isNaN = true) : ¬OnScale t := by
  intro hscale
  rw [(onScale_iff.1 hscale).2.2] at h
  cases h

/-- What is refused outside the scale is on it as soon as it is a number. -/
theorem onScale_iff_of_not_outside {t : Float} (h : ¬(t < 0 ∨ 100 < t)) :
    OnScale t ↔ t.isNaN = false := by
  rw [not_or] at h
  rw [onScale_iff]
  exact ⟨fun hscale => hscale.2.2, fun hnumber => ⟨h.1, h.2, hnumber⟩⟩

/-! ## What is refused -/

theorem Gates.not_outside_of_check {g : Gates} (h : g.check = none) :
    ¬(g.threshold < 0 ∨ 100 < g.threshold) := by
  intro houtside
  rw [check, if_pos (by simpa using houtside)] at h
  cases h

theorem Config.not_outside_of_fault? {c : Config} (h : c.fault? = none) :
    ¬(c.threshold < 0 ∨ 100 < c.threshold) := by
  intro houtside
  unfold fault? at h
  split_ifs at h with h₁ h₂ h₃ h₄
  · exact h₄ (by simpa using houtside)

/-! ## The gate for the score -/

namespace Gates

variable {g : Gates} {r : Report} {v : Violation}

/-- The gate for the score is among those that trip. -/
def ScoreTrips (g : Gates) (r : Report) : Prop :=
  ∃ v ∈ (g.evaluate r).violations, v.gate = "score_threshold"

theorem gate_of_mem_kindViolations (hv : v ∈ g.kindViolations r) : v.gate = "forbid_types" := by
  obtain ⟨kind, -, hv⟩ := List.mem_filterMap.1 hv
  dsimp only at hv
  split at hv
  · obtain rfl := Option.some.inj hv
    rfl
  · cases hv

/-- The gate for the score trips on the reports with less than the least score, and on no others. -/
theorem scoreTrips_iff : g.ScoreTrips r ↔ r.score < g.threshold := by
  constructor
  · rintro ⟨v, hv, hgate⟩
    have hlevel {on : Bool} {name : Text} {s : Severity} (hv : v ∈ levelViolation on name s r) :
        v.gate = name := (spec_of_map_gate (map_gate_levelViolation on name s r) hv).2
    rw [mem_evaluate_iff] at hv
    obtain hv | hv | hv | hv | hv | hv := hv
    · exact absurd ((hlevel hv).symm.trans hgate) (by decide)
    · exact absurd ((hlevel hv).symm.trans hgate) (by decide)
    · exact absurd ((hlevel hv).symm.trans hgate) (by decide)
    · exact (spec_of_map_gate (map_gate_scoreViolation g r) hv).1
    · have hlimit := (spec_of_map_gate (map_gate_limitViolation g r) hv).2
      exact absurd (hlimit.symm.trans hgate) (by decide)
    · exact absurd ((gate_of_mem_kindViolations hv).symm.trans hgate) (by decide)
  · intro hscore
    obtain ⟨v, hv, hgate⟩ := exists_of_map_gate (map_gate_scoreViolation g r) hscore
    exact ⟨v, mem_evaluate_iff.2 (.inr (.inr (.inr (.inl hv)))), hgate⟩

/-- A least score that is no number is above no score. -/
theorem not_scoreTrips_of_isNaN (h : g.threshold.isNaN = true) (r : Report) : ¬g.ScoreTrips r := by
  rw [scoreTrips_iff]
  exact Number.not_lt_of_isNaN h

end Gates

/-! ## The least score of a command line -/

namespace Tool

open CommandLine (Options)

/-- The least score of a run is no number when its flag gives none, or without the flag when the policy
gives none. The configuration counts only when it asks for more than 0, and then it gives a number. -/
theorem isNaN_threshold_override_iff (c : Config) (o : Options) (p? : Option Policy) :
    ((policyGates p?).override (asked c o p?)).threshold.isNaN = true ↔
      if o.isGiven "score-threshold" then (o.real "score-threshold").isNaN = true
      else ∃ p ∈ p?, p.gates.threshold.isNaN = true := by
  have hzero : (0 : Float).isNaN = false := by decide +kernel
  simp only [Gates.override, asked, askedThreshold?]
  by_cases hgiven : o.isGiven "score-threshold" = true
  · simp [hgiven]
  · cases p? with
    | some p => simp [hgiven, policyGates]
    | none =>
      by_cases hconfig : 0 < c.threshold
      · simp [hgiven, hconfig, Number.isNaN_of_lt hconfig, -Float.isNaN_eq_decide_eq_nan]
      · simp [hgiven, hconfig, policyGates, hzero, -Float.isNaN_eq_decide_eq_nan]

/-- The same of the gates that a command line ends up with. -/
theorem isNaN_threshold_resolveGates_iff {c : Config} {o : Options} {g : Gates} {q q' : Progress}
    (h : (resolveGates c o).after q = (.ok g, q')) : g.threshold.isNaN = true ↔
      if o.isGiven "score-threshold" then (o.real "score-threshold").isNaN = true
      else ∃ p, (findPolicy (o.text "policy")).after q = (.ok (some p), q') ∧
        p.gates.threshold.isNaN = true := by
  obtain ⟨p?, hpolicy, rfl, -⟩ := exists_of_resolveGates h
  rw [isNaN_threshold_override_iff, hpolicy]
  simp [Option.mem_def]

end Tool

/-! ## All that is accepted -/

open CommandLine (Options)

/-- A least score that was accepted, in a policy, in a configuration or for a command line. -/
inductive AcceptedThreshold : Float → Prop
  | policy {d : Disk} {path : Text} {p : Policy} :
      Policy.load d path = .ok (some p) → AcceptedThreshold p.gates.threshold
  | config {c : Config} : c.fault? = none → AcceptedThreshold c.threshold
  | commandLine {c : Config} {o : Options} {g : Gates} {q q' : Tool.Progress} :
      (Tool.resolveGates c o).after q = (.ok g, q') → AcceptedThreshold g.threshold

theorem AcceptedThreshold.not_outside {t : Float} (h : AcceptedThreshold t) : ¬(t < 0 ∨ 100 < t) := by
  cases h with
  | policy hload => exact Gates.not_outside_of_check (Policy.check_of_load hload)
  | config haccepted => exact Config.not_outside_of_fault? haccepted
  | commandLine hgates =>
    obtain ⟨p?, -, -, hcheck⟩ := Tool.exists_of_resolveGates hgates
    exact Gates.not_outside_of_check hcheck

/-- A least score that was accepted is on the scale exactly when it is a number. The gate trips on all
scores below it, and when it is no number on none. -/
theorem Gates.accepted_threshold_onScale_iff {t : Float} (h : AcceptedThreshold t) :
    (OnScale t ↔ t.isNaN = false) ∧
    ∀ (g : Gates) (r : Report), g.threshold = t →
      (g.ScoreTrips r ↔ r.score < t) ∧ (t.isNaN = true → ¬g.ScoreTrips r) := by
  refine ⟨onScale_iff_of_not_outside h.not_outside, ?_⟩
  rintro g r rfl
  exact ⟨scoreTrips_iff, fun hnan => not_scoreTrips_of_isNaN hnan r⟩

/-! ### Least scores of a policy, a configuration and a command line -/

/-- A command line that asks for nothing but a least score. -/
def askingFor (t : Float) : Options :=
  { flags := Tool.validate.flags, given := [("score-threshold", .real t)] }

theorem exists_after_resolveGates_askingFor {t : Float} (h : ({ threshold := t } : Gates).check = none) :
    ∃ g, (Tool.resolveGates {} (askingFor t)).after { disk := policyDisk } =
      (.ok g, { disk := policyDisk }) ∧ g.threshold = t :=
  ⟨_, Tool.after_resolveGates_of_check (Tool.after_findPolicy_of_none (by cbv)) h, rfl⟩

/-- What a policy, a configuration and a command line ask for is on the scale, and the report with a score
of 50 is below what the command line asks for. -/
theorem asked_score_trips :
    (∃ p, Policy.load policyDisk "p.yaml" = .ok (some p) ∧ OnScale p.gates.threshold) ∧
    (({ threshold := 80 } : Config).fault? = none ∧ OnScale 80) ∧
    ∃ g, (Tool.resolveGates {} (askingFor 85)).after { disk := policyDisk } =
      (.ok g, { disk := policyDisk }) ∧ OnScale g.threshold ∧ g.ScoreTrips Report.oneUrl := by
  refine ⟨?_, ?_, ?_⟩
  · obtain ⟨p, hload, hnumber⟩ := Policy.exists_load_of_any (f := fun p => !p.gates.threshold.isNaN)
      (by cbv : policyDisk.contentOf "p.yaml" = .ok policySource) (by decide +kernel)
    rw [Bool.not_eq_true'] at hnumber
    exact ⟨p, hload, (Gates.accepted_threshold_onScale_iff (.policy hload)).1.2 hnumber⟩
  · have haccepted : ({ threshold := 80 } : Config).fault? = none :=
      Option.isNone_iff_eq_none.1 (by decide +kernel)
    exact ⟨haccepted, (Gates.accepted_threshold_onScale_iff (.config haccepted)).1.2 (by decide +kernel)⟩
  · obtain ⟨g, hgates, hthreshold⟩ := exists_after_resolveGates_askingFor (t := 85)
      (Option.isNone_iff_eq_none.1 (by decide +kernel))
    obtain ⟨hscale, htrips⟩ := Gates.accepted_threshold_onScale_iff (.commandLine hgates)
    refine ⟨g, hgates, hscale.2 ?_, (htrips g _ rfl).1.2 ?_⟩
    · rw [hthreshold]
      decide +kernel
    · rw [hthreshold]
      decide +kernel

def nanSource : Text := "gates:\n  score_threshold: .nan\n"

def nanDisk : Disk := { root := .dir [("p.yaml", .file nanSource)] }

/-- A policy, a configuration and a command line may give a least score that is no number. It is accepted,
is on no scale and lets every score pass. -/
theorem nan_accepted_as_least_score :
    (∃ p, Policy.load nanDisk "p.yaml" = .ok (some p) ∧ ¬OnScale p.gates.threshold ∧
      ∀ r, ¬p.gates.ScoreTrips r) ∧
    (({ threshold := Number.nan } : Config).fault? = none ∧ ¬OnScale Number.nan) ∧
    ∃ g, (Tool.resolveGates {} (askingFor Number.nan)).after { disk := policyDisk } =
      (.ok g, { disk := policyDisk }) ∧ ¬OnScale g.threshold ∧ ∀ r, ¬g.ScoreTrips r := by
  have hnan : Number.nan.isNaN = true := by decide +kernel
  refine ⟨?_, ⟨Option.isNone_iff_eq_none.1 (by decide +kernel), not_onScale_of_isNaN hnan⟩, ?_⟩
  · obtain ⟨p, hload, hp⟩ := Policy.exists_load_of_any (f := fun p => p.gates.threshold.isNaN)
      (by cbv : nanDisk.contentOf "p.yaml" = .ok nanSource) (by decide +kernel)
    exact ⟨p, hload, not_onScale_of_isNaN hp, Gates.not_scoreTrips_of_isNaN hp⟩
  · obtain ⟨g, hgates, hthreshold⟩ := exists_after_resolveGates_askingFor (t := Number.nan)
      (Option.isNone_iff_eq_none.1 (by decide +kernel))
    rw [← hthreshold] at hnan
    exact ⟨g, hgates, not_onScale_of_isNaN hnan, Gates.not_scoreTrips_of_isNaN hnan⟩

end LiteralAudit
