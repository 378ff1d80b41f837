import LiteralAudit.Pipeline

/-!
# Only the scan and the gates decide a run

A pipeline run reads a baseline and a history, replaces files, notifies endpoints and writes artifacts,
and each of this can fail. `Pipeline.verdict_run`: whatever the disk holds or refuses, whatever the
endpoints answer and wherever the run writes, the verdict of its outcome is the one that the gates give
on the scan (`Gates.verdict`). What that verdict says is then a matter of the gates alone:
`Gates.evaluate_violations_eq_nil_iff` says when none of them trips.
-/

namespace LiteralAudit

/-! ## When a gate trips -/

namespace Gates

/-- A gate trips on a report. -/
def Trips (g : Gates) (r : Report) : Prop :=
  (g.failOnCritical = true ∧ 0 < r.count .critical) ∨
  (g.failOnHigh = true ∧ 0 < r.count .high) ∨
  (g.failOnMedium = true ∧ 0 < r.count .medium) ∨
  r.score < g.threshold ∨
  (∃ limit, g.maxIssues? = some limit ∧ limit < r.issues.length) ∨
  ∃ kind ∈ g.forbidden, 0 < (r.byKind?.getD []).get kind

section Reasons

variable {vs : List Violation} {x : Violation} {gate : Text} {p : Prop} [Decidable p]

/-- A gate that names itself just where `p` holds gives no reason elsewhere. -/
theorem eq_nil_iff_of_map_gate (h : vs.map (·.gate) = if p then [gate] else []) : vs = [] ↔ ¬p := by
  rw [← List.map_eq_nil_iff, h]
  by_cases hp : p <;> simp [hp]

theorem spec_of_map_gate (h : vs.map (·.gate) = if p then [gate] else []) (hx : x ∈ vs) :
    p ∧ x.gate = gate := by
  have hmem := List.mem_map_of_mem (f := (·.gate)) hx
  rw [h] at hmem
  by_cases hp : p
  · rw [if_pos hp, List.mem_singleton] at hmem
    exact ⟨hp, hmem⟩
  · rw [if_neg hp] at hmem
    cases hmem

theorem exists_of_map_gate (h : vs.map (·.gate) = if p then [gate] else []) (hp : p) :
    ∃ x ∈ vs, x.gate = gate := by
  have hmem : gate ∈ vs.map (·.gate) := by
    rw [h, if_pos hp]
    exact List.mem_singleton_self gate
  exact List.mem_map.1 hmem

end Reasons

theorem map_gate_levelViolation (on : Bool) (gate : Text) (s : Severity) (r : Report) :
    (levelViolation on gate s r).map (·.gate) = if on = true ∧ 0 < r.count s then [gate] else [] := by
  unfold levelViolation
  by_cases h : on = true ∧ 0 < r.count s
  · rw [if_pos h, if_pos (by simpa using h)]
    rfl
  · rw [if_neg h, if_neg (by simpa using h)]
    rfl

theorem map_gate_scoreViolation (g : Gates) (r : Report) : (g.scoreViolation r).map (·.gate) =
    if r.score < g.threshold then [("score_threshold" : Text)] else [] := by
  unfold scoreViolation
  split <;> rfl

/-- The issues are more than the gates allow. -/
def OverLimit (g : Gates) (r : Report) : Prop :=
  ∃ limit, g.maxIssues? = some limit ∧ limit < r.issues.length

instance decidableOverLimit (g : Gates) (r : Report) : Decidable (g.OverLimit r) :=
  decidable_of_iff (g.maxIssues?.any (· < (r.issues.length : Int)) = true) (by
    simp [OverLimit, Option.any_eq_true])

theorem map_gate_limitViolation (g : Gates) (r : Report) : (g.limitViolation r).map (·.gate) =
    if g.OverLimit r then [("max_issues" : Text)] else [] := by
  unfold limitViolation
  cases hmax : g.maxIssues? with
  | none =>
    rw [if_neg (by simp [OverLimit, hmax])]
    rfl
  | some limit =>
    have hover : g.OverLimit r ↔ limit < r.issues.length := by simp [OverLimit, hmax]
    by_cases h : limit < r.issues.length
    · simp [h, hover]
    · simp [h, hover]

theorem kindViolations_eq_nil_iff (g : Gates) (r : Report) :
    g.kindViolations r = [] ↔ ¬ ∃ kind ∈ g.forbidden, 0 < (r.byKind?.getD []).get kind := by
  unfold kindViolations
  rw [List.filterMap_eq_nil_iff, not_exists]
  refine forall_congr' fun kind => ?_
  rw [not_and]
  refine imp_congr_right fun _ => ?_
  by_cases h : 0 < (r.byKind?.getD []).get kind
  · simp [h]
  · simp [h]

/-- The gates give no reason exactly when none of them trips. -/
theorem evaluate_violations_eq_nil_iff (g : Gates) (r : Report) :
    (g.evaluate r).violations = [] ↔ ¬ g.Trips r := by
  simp only [evaluate, List.append_eq_nil_iff, eq_nil_iff_of_map_gate (map_gate_levelViolation ..),
    eq_nil_iff_of_map_gate (map_gate_scoreViolation g r),
    eq_nil_iff_of_map_gate (map_gate_limitViolation g r), kindViolations_eq_nil_iff, OverLimit, Trips,
    not_or, and_assoc]

end Gates

/-! ## Verdicts -/

/-- What a run decides. -/
structure Verdict where
  passed : Bool
  exitCode : Int
  failedGate : Text
  violations : List Violation

/-- What an outcome says about the decision. -/
def Outcome.verdict (o : Outcome) : Verdict :=
  ⟨o.passed, o.exitCode, o.failedGate, o.violations⟩

/-- The verdict of the gates on what a scan gave. -/
def Gates.verdict (g : Gates) : Except Text Report → Verdict
  | .error message => (Pipeline.ofScanError message).verdict
  | .ok r => (Pipeline.judge g r).verdict

namespace Pipeline

/-- The gates look at nothing that a run adds to a report. -/
theorem evaluate_addenda (g : Gates) (r : Report) (trend? : Option Trend)
    (recommendations : List Recommendation) :
    g.evaluate { r with trend?, recommendations } = g.evaluate r := rfl

theorem verdict_judge_addenda (g : Gates) (r : Report) (trend? : Option Trend)
    (recommendations : List Recommendation) :
    (judge g { r with trend?, recommendations }).verdict = (judge g r).verdict := by
  unfold judge
  rw [evaluate_addenda]
  dsimp only
  split
  · rfl
  · split <;> rfl

@[simp] theorem verdict_compareWithBaseline (p : Pipeline) (d : Disk) (r : Report) (o : Outcome) :
    (p.compareWithBaseline d r o).verdict = o.verdict := by
  unfold compareWithBaseline
  split <;> rfl

@[simp] theorem verdict_updateBaseline (p : Pipeline) (now : Timestamp) (r : Report) (o : Outcome)
    (d : Disk) : (p.updateBaseline now r o d).1.verdict = o.verdict := by
  unfold updateBaseline
  split
  · rfl
  · split <;> rfl

/-- Advice changes nothing about a report but its recommendations. -/
theorem exists_advice (p : Pipeline) (r : Report) :
    ∃ recommendations, p.withAdvice r = { r with recommendations } := by
  unfold withAdvice
  split
  · exact ⟨_, rfl⟩
  · exact ⟨r.recommendations, rfl⟩

/-- A run adds a trend and recommendations to the report of the scan, and changes nothing else. -/
theorem exists_addenda (p : Pipeline) (d : Disk) (r : Report) :
    ∃ trend? recommendations,
      p.withTrend d (p.withAdvice r) = { r with trend?, recommendations } := by
  obtain ⟨recommendations, hadvice⟩ := p.exists_advice r
  rw [hadvice]
  unfold withTrend
  split
  · exact ⟨_, recommendations, rfl⟩
  · exact ⟨r.trend?, recommendations, rfl⟩

/-- An outcome holds the report that it was derived from. -/
theorem report?_judge (g : Gates) (r : Report) : (judge g r).report? = some r := by
  unfold judge
  dsimp only
  split
  · rfl
  · split <;> rfl

theorem report?_settle (p : Pipeline) (now : Timestamp) (r : Report) (d : Disk) :
    (p.settle now r d).1.report? = some r := by
  have hcompare : (p.compareWithBaseline d r (judge p.gates r)).report? = some r := by
    unfold compareWithBaseline
    split <;> exact report?_judge p.gates r
  unfold settle updateBaseline
  split
  · exact hcompare
  · split <;> exact hcompare

/-- Whatever happens around a run, its verdict is the one of the gates on the scan. -/
theorem verdict_run (p : Pipeline) (now : Timestamp) (carry : Transport) (scan : Except Text Report)
    (d : Disk) : (p.run now carry scan d).outcome.verdict = p.gates.verdict scan := by
  cases scan with
  | error message => rfl
  | ok r =>
    obtain ⟨trend?, recommendations, hreport⟩ := p.exists_addenda d r
    -- Deliveries and artifacts are not part of a verdict.
    show (p.updateBaseline now _ (p.compareWithBaseline d _ (judge p.gates _)) d).1.verdict = _
    rw [verdict_updateBaseline, verdict_compareWithBaseline, hreport, verdict_judge_addenda]
    rfl

/-! ## What verdicts say -/

theorem failedGate_verdict (g : Gates) (scan : Except Text Report) :
    (g.verdict scan).failedGate = ((g.verdict scan).violations.head?.map (·.gate)).getD [] := by
  cases scan with
  | error message => rfl
  | ok r =>
    simp only [Gates.verdict, Outcome.verdict, judge]
    split
    · rfl
    · split <;> rfl

theorem violations_verdict_ok (g : Gates) (r : Report) :
    (g.verdict (.ok r)).violations = (g.evaluate r).violations := by
  simp only [Gates.verdict, Outcome.verdict, judge]
  split
  · rfl
  · split <;> rfl

/-- The three ways a run can end. -/
theorem verdict_cases (g : Gates) (scan : Except Text Report) :
    ((∃ message, scan = .error message) ∨ (∃ r, scan = .ok r ∧ r.interrupted = true)) ∧
        (g.verdict scan).passed = false ∧ (g.verdict scan).exitCode = 2 ∨
    (∃ r, scan = .ok r ∧ r.interrupted = false ∧ ¬ g.Trips r) ∧
        (g.verdict scan).passed = true ∧ (g.verdict scan).exitCode = 0 ∨
    (∃ r, scan = .ok r ∧ r.interrupted = false ∧ g.Trips r) ∧
        (g.verdict scan).passed = false ∧ (g.verdict scan).exitCode = 1 := by
  cases scan with
  | error message => exact .inl ⟨.inl ⟨message, rfl⟩, rfl, rfl⟩
  | ok r =>
    cases hr : r.interrupted with
    | true => exact .inl ⟨.inr ⟨r, rfl, hr⟩, by simp [Gates.verdict, Outcome.verdict, judge, hr],
        by simp [Gates.verdict, Outcome.verdict, judge, hr, Exit.executionError]⟩
    | false =>
      by_cases hg : g.Trips r
      · have hne : (g.evaluate r).passes = false := by
          rw [Decision.passes, List.isEmpty_eq_false_iff]
          exact fun h => (g.evaluate_violations_eq_nil_iff r).1 h hg
        refine .inr (.inr ⟨⟨r, rfl, hr, hg⟩, ?_, ?_⟩)
        · simp [Gates.verdict, Outcome.verdict, judge, hr, hne]
        · simp [Gates.verdict, Outcome.verdict, judge, hr, hne, Exit.policyFailure]
      · have hpass : (g.evaluate r).passes = true := by
          rw [Decision.passes, List.isEmpty_iff]
          exact (g.evaluate_violations_eq_nil_iff r).2 hg
        refine .inr (.inl ⟨⟨r, rfl, hr, hg⟩, ?_, ?_⟩)
        · simp [Gates.verdict, Outcome.verdict, judge, hr, hpass]
        · simp [Gates.verdict, Outcome.verdict, judge, hr, hpass, Exit.pass]

theorem exitCode_verdict_eq_two_iff (g : Gates) (scan : Except Text Report) :
    (g.verdict scan).exitCode = 2 ↔
      (∃ message, scan = .error message) ∨ ∃ r, scan = .ok r ∧ r.interrupted = true := by
  rcases verdict_cases g scan with ⟨h, -, he⟩ | ⟨⟨r, rfl, hr, -⟩, -, he⟩ | ⟨⟨r, rfl, hr, -⟩, -, he⟩
  · exact iff_of_true he h
  · simp [he, hr]
  · simp [he, hr]

theorem exitCode_verdict_eq_zero_iff (g : Gates) (scan : Except Text Report) :
    (g.verdict scan).exitCode = 0 ↔ ∃ r, scan = .ok r ∧ r.interrupted = false ∧ ¬ g.Trips r := by
  rcases verdict_cases g scan with ⟨⟨m, rfl⟩ | ⟨r, rfl, hr⟩, -, he⟩ | ⟨h, -, he⟩ |
    ⟨⟨r, rfl, hr, hg⟩, -, he⟩
  · simp [he]
  · simp [he, hr]
  · exact iff_of_true he h
  · simp [he, hg]

theorem passed_verdict_iff (g : Gates) (scan : Except Text Report) :
    (g.verdict scan).passed = true ↔ (g.verdict scan).exitCode = 0 := by
  rcases verdict_cases g scan with ⟨-, hp, he⟩ | ⟨-, hp, he⟩ | ⟨-, hp, he⟩ <;> simp [hp, he]

theorem exitCode_verdict_otherwise (g : Gates) (scan : Except Text Report) :
    (g.verdict scan).exitCode ≠ 0 → (g.verdict scan).exitCode ≠ 2 →
      (g.verdict scan).exitCode = 1 := by
  rcases verdict_cases g scan with ⟨-, -, he⟩ | ⟨-, -, he⟩ | ⟨-, -, he⟩ <;> simp [he]

theorem violations_verdict_eq_nil_iff (g : Gates) (scan : Except Text Report) :
    (g.verdict scan).violations = [] ↔ ¬ ∃ r, scan = .ok r ∧ g.Trips r := by
  cases scan with
  | error message =>
    refine iff_of_true rfl ?_
    rintro ⟨r, hr, -⟩
    cases hr
  | ok r =>
    rw [violations_verdict_ok, Gates.evaluate_violations_eq_nil_iff]
    simp

/-- The exit code is 2 exactly when the scan failed or was interrupted, and 0, with the run passing,
exactly when the report is complete and no gate trips; otherwise it is 1. The gate that is named is that
of the first violation, and there are violations exactly when a gate trips. Another run on the same
scan with the same gates decides the same, whatever else differs: settings, time, endpoints and disk. -/
theorem run_decided_by_scan_and_gates (p : Pipeline) (now : Timestamp) (carry : Transport)
    (scan : Except Text Report) (d : Disk) :
    let o := (p.run now carry scan d).outcome
    (o.exitCode = 2 ↔
      (∃ message, scan = .error message) ∨ ∃ r, scan = .ok r ∧ r.interrupted = true) ∧
    (o.passed = true ↔ o.exitCode = 0) ∧
    (o.exitCode = 0 ↔ ∃ r, scan = .ok r ∧ r.interrupted = false ∧ ¬ p.gates.Trips r) ∧
    (o.exitCode ≠ 0 → o.exitCode ≠ 2 → o.exitCode = 1) ∧
    o.failedGate = (o.violations.head?.map (·.gate)).getD [] ∧
    (o.violations = [] ↔ ¬ ∃ r, scan = .ok r ∧ p.gates.Trips r) ∧
    ∀ (p' : Pipeline) (now' : Timestamp) (carry' : Transport) (d' : Disk),
      let o' := ({ p' with gates := p.gates }.run now' carry' scan d').outcome
      o'.passed = o.passed ∧ o'.exitCode = o.exitCode ∧ o'.failedGate = o.failedGate ∧
        o'.violations = o.violations := by
  intro o
  have hv : o.verdict = p.gates.verdict scan := p.verdict_run now carry scan d
  have hpassed : o.passed = (p.gates.verdict scan).passed := congrArg Verdict.passed hv
  have hexit : o.exitCode = (p.gates.verdict scan).exitCode := congrArg Verdict.exitCode hv
  have hgate : o.failedGate = (p.gates.verdict scan).failedGate := congrArg Verdict.failedGate hv
  have hviol : o.violations = (p.gates.verdict scan).violations := congrArg Verdict.violations hv
  rw [hpassed, hexit, hgate, hviol]
  refine ⟨exitCode_verdict_eq_two_iff _ _, passed_verdict_iff _ _, exitCode_verdict_eq_zero_iff _ _,
    exitCode_verdict_otherwise _ _, failedGate_verdict _ _, violations_verdict_eq_nil_iff _ _, ?_⟩
  intro p' now' carry' d' o'
  have hv' : o'.verdict = p.gates.verdict scan :=
    { p' with gates := p.gates }.verdict_run now' carry' scan d'
  exact ⟨congrArg Verdict.passed hv', congrArg Verdict.exitCode hv',
    congrArg Verdict.failedGate hv', congrArg Verdict.violations hv'⟩

end Pipeline

end LiteralAudit
