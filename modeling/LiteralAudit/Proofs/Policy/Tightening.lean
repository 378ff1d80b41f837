import LiteralAudit.Proofs.Number.FloatArithmetic
import LiteralAudit.Proofs.Pipeline.Verdict
import LiteralAudit.Proofs.Tool.Steps

/-!
# Tighter gates let nothing more pass

Gates are tightened (`Gates.TightenedTo`) when switches stay on, the least score is not lowered, the limit
is not raised and what is forbidden stays forbidden. Each of the gates then trips wherever it tripped
before, so that a report that the tighter gates pass was passed by the others
(`Gates.passes_of_tightenedTo`). What a command line asks for beside a policy tightens it, unless it asks
for another least score (`Gates.tightenedTo_override`).
-/

namespace LiteralAudit

/-- A violation stays among others: the same gate trips for the same reason, unless its reason names a
bound that may have moved. -/
def Violation.StaysIn (v : Violation) (vs : List Violation) : Prop :=
  ∃ v' ∈ vs, v'.gate = v.gate ∧ (v' = v ∨ v.gate = "score_threshold" ∨ v.gate = "max_issues")

namespace Gates

variable {g g' : Gates} {r : Report} {v : Violation}

/-- The second gates ask for no less than the first ones. A least score that is kept may be anything, also
no number. -/
structure TightenedTo (g g' : Gates) : Prop where
  critical : g.failOnCritical = true → g'.failOnCritical = true
  high : g.failOnHigh = true → g'.failOnHigh = true
  medium : g.failOnMedium = true → g'.failOnMedium = true
  threshold : g'.threshold = g.threshold ∨ g.threshold ≤ g'.threshold
  limit : ∀ n ∈ g.maxIssues?, ∃ n' ∈ g'.maxIssues?, n' ≤ n
  forbidden : g.forbidden ⊆ g'.forbidden

/-! ## One gate after the other -/

theorem levelViolation_subset {on on' : Bool} (h : on = true → on' = true) (gate : Text) (s : Severity)
    (r : Report) : levelViolation on gate s r ⊆ levelViolation on' gate s r := by
  cases on with
  | false => exact List.nil_subset _
  | true =>
    rw [h rfl]
    exact List.Subset.refl _

theorem scoreViolation_stays (h : g'.threshold = g.threshold ∨ g.threshold ≤ g'.threshold)
    (hv : v ∈ g.scoreViolation r) : ∃ v' ∈ g'.scoreViolation r, v'.gate = v.gate := by
  obtain ⟨hbelow, hgate⟩ := spec_of_map_gate (map_gate_scoreViolation g r) hv
  have hstill : r.score < g'.threshold := by
    obtain hsame | hle := h
    · rwa [hsame]
    · exact Number.lt_of_lt_of_le hbelow hle
  rw [hgate]
  exact exists_of_map_gate (map_gate_scoreViolation g' r) hstill

theorem limitViolation_stays (h : ∀ n ∈ g.maxIssues?, ∃ n' ∈ g'.maxIssues?, n' ≤ n)
    (hv : v ∈ g.limitViolation r) : ∃ v' ∈ g'.limitViolation r, v'.gate = v.gate := by
  obtain ⟨⟨n, hn, hover⟩, hgate⟩ := spec_of_map_gate (map_gate_limitViolation g r) hv
  obtain ⟨n', hn', hle⟩ := h n hn
  rw [hgate]
  exact exists_of_map_gate (map_gate_limitViolation g' r) ⟨n', hn', hle.trans_lt hover⟩

theorem kindViolations_subset (h : g.forbidden ⊆ g'.forbidden) :
    g.kindViolations r ⊆ g'.kindViolations r := by
  intro v hv
  obtain ⟨kind, hkind, hv⟩ := List.mem_filterMap.1 hv
  exact List.mem_filterMap.2 ⟨kind, h hkind, hv⟩

/-! ## All gates -/

theorem mem_evaluate_iff : v ∈ (g.evaluate r).violations ↔
    v ∈ levelViolation g.failOnCritical "fail_on_critical" .critical r ∨
    v ∈ levelViolation g.failOnHigh "fail_on_high" .high r ∨
    v ∈ levelViolation g.failOnMedium "fail_on_medium" .medium r ∨
    v ∈ g.scoreViolation r ∨ v ∈ g.limitViolation r ∨ v ∈ g.kindViolations r := by
  simp only [evaluate, List.mem_append, or_assoc]

/-- Whatever trips still trips when the gates are tightened. -/
theorem staysIn_of_tightenedTo (h : g.TightenedTo g') (hv : v ∈ (g.evaluate r).violations) :
    v.StaysIn (g'.evaluate r).violations := by
  have hkept (hmem : v ∈ (g'.evaluate r).violations) : v.StaysIn (g'.evaluate r).violations :=
    ⟨v, hmem, rfl, .inl rfl⟩
  rw [mem_evaluate_iff] at hv hkept
  obtain hv | hv | hv | hv | hv | hv := hv
  · exact hkept (.inl (levelViolation_subset h.critical _ _ _ hv))
  · exact hkept (.inr (.inl (levelViolation_subset h.high _ _ _ hv)))
  · exact hkept (.inr (.inr (.inl (levelViolation_subset h.medium _ _ _ hv))))
  · obtain ⟨v', hv', hgate⟩ := scoreViolation_stays h.threshold hv
    refine ⟨v', mem_evaluate_iff.2 ?_, hgate, .inr (.inl (spec_of_map_gate (map_gate_scoreViolation g r) hv).2)⟩
    exact .inr (.inr (.inr (.inl hv')))
  · obtain ⟨v', hv', hgate⟩ := limitViolation_stays h.limit hv
    refine ⟨v', mem_evaluate_iff.2 ?_, hgate, .inr (.inr (spec_of_map_gate (map_gate_limitViolation g r) hv).2)⟩
    exact .inr (.inr (.inr (.inr (.inl hv'))))
  · exact hkept (.inr (.inr (.inr (.inr (.inr (kindViolations_subset h.forbidden hv))))))

/-- What the tighter gates pass, the others pass. -/
theorem passes_of_tightenedTo (h : g.TightenedTo g') (hpass : (g'.evaluate r).passes = true) :
    (g.evaluate r).passes = true := by
  rw [Decision.passes, List.isEmpty_iff] at hpass ⊢
  rw [List.eq_nil_iff_forall_not_mem]
  intro v hv
  obtain ⟨v', hv', -⟩ := staysIn_of_tightenedTo h hv
  rw [hpass] at hv'
  cases hv'

/-! ## What the command line asks for -/

/-- Without another least score, what is asked for only tightens. -/
theorem tightenedTo_override (g : Gates) {o : Overrides} (h : o.threshold? = none) :
    g.TightenedTo (g.override o) where
  critical hon := by simp [override, hon]
  high hon := by simp [override, hon]
  medium hon := by simp [override, hon]
  threshold := .inl (by simp [override, h])
  limit n hn := ⟨n, hn, le_rfl⟩
  forbidden := List.Subset.refl _

theorem check_override {o : Overrides} (h : o.threshold? = none) : (g.override o).check = g.check := by
  simp [check, override, h]

end Gates

open CommandLine (Options)

/-- With a policy and without a least score of its own, a command line has gates that tighten the policy. -/
theorem Tool.tightenedTo_resolveGates {c : Config} {o : Options} {p : Policy} {g : Gates}
    {q q₁ q' : Progress} (hpolicy : (findPolicy (o.text "policy")).after q = (.ok (some p), q₁))
    (hscore : o.isGiven "score-threshold" = false)
    (hgates : (resolveGates c o).after q = (.ok g, q')) : p.gates.TightenedTo g := by
  obtain ⟨p?, hfound, rfl, -⟩ := exists_of_resolveGates hgates
  rw [hpolicy] at hfound
  cases hfound
  exact Gates.tightenedTo_override p.gates (by simp [asked, askedThreshold?, hscore])

/-- Gates that are tightened trip wherever they tripped before, and pass nothing that they did not pass.
What is asked for beside a policy tightens it unless it is another least score, and so does a command line
that asks for none: it passes nothing that the policy fails. -/
theorem Gates.tightening_passes_nothing_more :
    (∀ g g' : Gates, g.TightenedTo g' → ∀ r,
      (∀ v ∈ (g.evaluate r).violations, v.StaysIn (g'.evaluate r).violations) ∧
      ((g'.evaluate r).passes = true → (g.evaluate r).passes = true)) ∧
    (∀ (g : Gates) (o : Overrides), o.threshold? = none → g.TightenedTo (g.override o)) ∧
    ∀ (c : Config) (o : Options) (p : Policy) (g : Gates) (q q₁ q' : Tool.Progress),
      (Tool.findPolicy (o.text "policy")).after q = (.ok (some p), q₁) →
      o.isGiven "score-threshold" = false → (Tool.resolveGates c o).after q = (.ok g, q') → ∀ r,
      (p.gates.evaluate r).passes = false → (g.evaluate r).passes = false := by
  refine ⟨fun g g' h r => ⟨fun v hv => staysIn_of_tightenedTo h hv, passes_of_tightenedTo h⟩,
    fun g o h => tightenedTo_override g h, ?_⟩
  intro c o p g q q₁ q' hpolicy hscore hgates r hfails
  rw [← Bool.not_eq_true] at hfails ⊢
  exact mt (passes_of_tightenedTo (Tool.tightenedTo_resolveGates hpolicy hscore hgates)) hfails

/-! ### Gates that are tightened in every way -/

/-- One file with an issue of the level `high`, which makes a score of 50. -/
def Report.oneUrl : Report :=
  ({ files := 1, issues? := some [{ kind := "url", severity := .high }] } : Report).finalize

def Gates.moderate : Gates := { failOnHigh := true, threshold := 60, maxIssues? := some 3, forbidden := ["url"] }

def Gates.severe : Gates :=
  { failOnCritical := true, failOnHigh := true, threshold := 85, maxIssues? := some 0
    forbidden := ["sql", "url"] }

def policySource : Text := "gates:\n  fail_on_high: true\n  score_threshold: 60\n"

def policyDisk : Disk := { root := .dir [("p.yaml", .file policySource)] }

/-- A command line that names the policy and switches on one more gate. -/
def namedPolicy : Options :=
  { flags := Tool.validate.flags
    given := [("policy", .text "p.yaml"), ("fail-on-critical", .switch true)] }

theorem exists_load_policyDisk : ∃ p, Policy.load policyDisk "p.yaml" = .ok (some p) ∧
    (p.gates.evaluate Report.oneUrl).passes = false := by
  obtain ⟨p, hload, hfails⟩ := Policy.exists_load_of_any
    (f := fun p => !(p.gates.evaluate Report.oneUrl).passes)
    (by cbv : policyDisk.contentOf "p.yaml" = .ok policySource) (by decide +kernel)
  rw [Bool.not_eq_true'] at hfails
  exact ⟨p, hload, hfails⟩

/-- Of an issue whose kind is forbidden both gates find the level and the kind, and both find the score too
low; only the tighter ones find that there are too many. -/
theorem severe_fails_what_moderate_fails :
    Gates.moderate.TightenedTo Gates.severe ∧
      (Gates.moderate.evaluate Report.oneUrl).violations.length = 3 ∧
      (∀ v ∈ (Gates.moderate.evaluate Report.oneUrl).violations,
        v.StaysIn (Gates.severe.evaluate Report.oneUrl).violations) ∧
      ∃ p g q', (Tool.findPolicy "p.yaml").after { disk := policyDisk } = (.ok (some p), q') ∧
        (Tool.resolveGates {} namedPolicy).after { disk := policyDisk } = (.ok g, q') ∧
        (p.gates.evaluate Report.oneUrl).passes = false ∧
        (g.evaluate Report.oneUrl).passes = false := by
  have htightened : Gates.moderate.TightenedTo Gates.severe :=
    { critical := fun h => absurd h Bool.false_ne_true
      high := fun _ => rfl
      medium := fun h => absurd h Bool.false_ne_true
      threshold := .inr (by decide)
      limit := fun n hn => ⟨0, rfl, by
        obtain rfl := Option.some.inj hn
        decide⟩
      forbidden := List.subset_cons_self _ _ }
  obtain ⟨hstays, -, hline⟩ := Gates.tightening_passes_nothing_more
  refine ⟨htightened, by decide +kernel, (hstays _ _ htightened Report.oneUrl).1, ?_⟩
  obtain ⟨p, hload, hfails⟩ := exists_load_policyDisk
  have hnamed : namedPolicy.text "policy" = "p.yaml" := rfl
  have hscore : namedPolicy.isGiven "score-threshold" = false := rfl
  have hpolicy : (Tool.findPolicy (namedPolicy.text "policy")).after { disk := policyDisk } =
      (.ok (some p), { disk := policyDisk }) := Tool.after_findPolicy_of_load (by decide) hload
  have hgates := Tool.after_resolveGates_of_check (c := {}) hpolicy
    ((Gates.check_override (by simp [Tool.asked, Tool.askedThreshold?, hscore])).trans
      (Policy.check_of_load hload))
  exact ⟨p, _, _, hnamed ▸ hpolicy, hgates, hfails,
    hline {} namedPolicy p _ _ _ _ hpolicy hscore hgates Report.oneUrl hfails⟩

end LiteralAudit
