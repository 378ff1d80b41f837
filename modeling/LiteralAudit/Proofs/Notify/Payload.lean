import LiteralAudit.Proofs.Pipeline.Verdict
import LiteralAudit.Proofs.Report.Score

/-!
# Payloads of runs have no fault

A payload is checked before it is sent, and one with a fault is sent to nobody. What the check asks
(`Payload.fault?_eq_none_iff`) is what the parts of a run promise, each for itself: the outcome its status
and its exit code, the finalized report its score, its readiness and its number of issues.

`Pipeline.payload_of_run_has_no_fault`: whichever way a run ends, every notifier is tried.
-/

namespace LiteralAudit

namespace Payload

/-- What is asked of a payload. A score that is no number is neither too small nor too great. -/
theorem fault?_eq_none_iff (p : Payload) : p.fault? = none ↔
    p.status ∈ statuses ∧ (0 ≤ p.exitCode ∧ p.exitCode ≤ 2) ∧ (¬ p.score < 0 ∧ ¬ 100 < p.score) ∧
      (0 ≤ p.files ∧ 0 ≤ p.issues) ∧ p.readiness ∈ readinessLevels := by
  have hcheck : ∀ (c : Bool) (e : Fault) (rest : Option Fault),
      (if c then some e else rest) = none ↔ c = false ∧ rest = none := by
    intro c e rest
    cases c <;> simp
  unfold fault?
  simp only [hcheck, Bool.not_eq_false', List.contains_eq_mem, decide_eq_true_eq,
    Bool.or_eq_false_iff, decide_eq_false_iff_not, Int.not_lt, and_true]

theorem status_ofOutcome (o : Outcome) : (ofOutcome o).status = o.status := by
  unfold ofOutcome
  cases o.report? <;> rfl

theorem exitCode_ofOutcome (o : Outcome) : (ofOutcome o).exitCode = o.exitCode := by
  unfold ofOutcome
  cases o.report? <;> rfl

/-- What a payload says of a report is what is in the report. -/
theorem ofOutcome_of_report {o : Outcome} {r : Report} (hr : o.report? = some r) :
    (ofOutcome o).score = r.score ∧ (ofOutcome o).readiness = r.readiness ∧
      (ofOutcome o).files = r.files ∧ (ofOutcome o).issues = r.issues.length := by
  unfold ofOutcome
  rw [hr]
  exact ⟨rfl, rfl, rfl, rfl⟩

/-- Where there is no report, the payload has the defaults, and they pass the check. -/
theorem ofOutcome_of_no_report {o : Outcome} (hr : o.report? = none) :
    (ofOutcome o).score = 0 ∧ (ofOutcome o).readiness = [] ∧
      (ofOutcome o).files = 0 ∧ (ofOutcome o).issues = 0 := by
  unfold ofOutcome
  rw [hr]
  exact ⟨rfl, rfl, rfl, rfl⟩

end Payload

theorem Outcome.status_mem (o : Outcome) : o.status ∈ Payload.statuses := by
  unfold status
  split
  · decide
  · split <;> decide

theorem Score.readiness_mem (score : Float) : readiness score ∈ Payload.readinessLevels := by
  unfold readiness
  split_ifs <;> decide

namespace Pipeline

theorem exitCode_run_bounds (p : Pipeline) (now : Timestamp) (carry : Transport)
    (scan : Except Text Report) (d : Disk) :
    0 ≤ (p.run now carry scan d).outcome.exitCode ∧ (p.run now carry scan d).outcome.exitCode ≤ 2 := by
  have hexit : (p.run now carry scan d).outcome.exitCode = (p.gates.verdict scan).exitCode :=
    congrArg Verdict.exitCode (p.verdict_run now carry scan d)
  rw [hexit]
  rcases verdict_cases p.gates scan with ⟨-, -, he⟩ | ⟨-, -, he⟩ | ⟨-, -, he⟩ <;> omega

theorem report?_run (p : Pipeline) (now : Timestamp) (carry : Transport) (r : Report) (d : Disk) :
    ∃ trend? recommendations, (p.run now carry (.ok r) d).outcome.report? =
      some { r with trend?, recommendations } := by
  obtain ⟨trend?, recommendations, hreport⟩ := p.exists_addenda d r
  refine ⟨trend?, recommendations, ?_⟩
  rw [← hreport]
  exact p.report?_settle now _ d

/-- What is not about deliveries and artifacts stands in the outcome before any notifier is tried. -/
theorem deliveries_run (p : Pipeline) (now : Timestamp) (carry : Transport) (r : Report) (d : Disk) :
    let result := p.run now carry (.ok r) d
    result.outcome.deliveries = Notifier.dispatch p.notifiers carry (.ofOutcome result.outcome) ∧
      result.requests = Notifier.requests p.notifiers (.ofOutcome result.outcome) := ⟨rfl, rfl⟩

/-- The payload of a run on a finalized report has no fault, however the run ends, and every notifier is
tried with it. The payload of a run whose scan failed has none either. -/
theorem payload_of_run_has_no_fault (p : Pipeline) (now : Timestamp) (carry : Transport) (r : Report)
    (d : Disk) (hfiles : 0 ≤ r.files) (hfew : r.issues.length < 2 ^ 59) :
    let result := p.run now carry (.ok r.finalize) d
    let payload := Payload.ofOutcome result.outcome
    payload.fault? = none ∧
      payload.status ∈ Payload.statuses ∧ (0 ≤ payload.exitCode ∧ payload.exitCode ≤ 2) ∧
      (0 ≤ payload.score ∧ payload.score ≤ 100) ∧ (0 ≤ payload.files ∧ 0 ≤ payload.issues) ∧
      payload.readiness ∈ Payload.readinessLevels ∧
      result.outcome.deliveries = p.notifiers.map (fun n => n.deliver carry payload) ∧
      result.requests = p.notifiers.filterMap (fun n => (n.request payload).toOption) ∧
      ∀ message, (Payload.ofOutcome (p.run now carry (.error message) d).outcome).fault? = none := by
  intro result payload
  have hstatus (scan : Except Text Report) :
      (Payload.ofOutcome (p.run now carry scan d).outcome).status ∈ Payload.statuses := by
    rw [Payload.status_ofOutcome]
    exact Outcome.status_mem _
  have hexit (scan : Except Text Report) :
      0 ≤ (Payload.ofOutcome (p.run now carry scan d).outcome).exitCode ∧
        (Payload.ofOutcome (p.run now carry scan d).outcome).exitCode ≤ 2 := by
    rw [Payload.exitCode_ofOutcome]
    exact exitCode_run_bounds p now carry scan d
  obtain ⟨trend?, recommendations, hreport⟩ := p.report?_run now carry r.finalize d
  obtain ⟨hscore, hreadiness, hpayloadFiles, hissues⟩ := Payload.ofOutcome_of_report hreport
  have hpoints := Score.pointsOf_bounds r.issues
  have hbounds := Score.score_bounds (c := Report.countBySeverity r.issues)
    (by rw [Score.points_countBySeverity (by omega)]; exact hpoints.1) r.files
  have hrange : (0 ≤ payload.score ∧ payload.score ≤ 100) ∧
      ¬ payload.score < 0 ∧ ¬ 100 < payload.score := by
    obtain ⟨hlow, hhigh, hnotLow, hnotHigh⟩ := hbounds
    exact hscore ▸ ⟨⟨hlow, hhigh⟩, hnotLow, hnotHigh⟩
  have hcounts : 0 ≤ payload.files ∧ 0 ≤ payload.issues :=
    ⟨hpayloadFiles ▸ hfiles, hissues ▸ Int.natCast_nonneg _⟩
  have hlevel : payload.readiness ∈ Payload.readinessLevels := hreadiness ▸ Score.readiness_mem _
  have hfault : payload.fault? = none := (Payload.fault?_eq_none_iff payload).2
    ⟨hstatus _, hexit _, hrange.2, hcounts, hlevel⟩
  obtain ⟨hdeliveries, hrequests⟩ := p.deliveries_run now carry r.finalize d
  refine ⟨hfault, hstatus _, hexit _, hrange.1, hcounts, hlevel, ?_, ?_, fun message => ?_⟩
  · rw [hdeliveries, Notifier.dispatch, hfault]
  · rw [hrequests, Notifier.requests, hfault]
  · obtain ⟨hscore, hreadiness, hfiles, hissues⟩ := Payload.ofOutcome_of_no_report
      (o := (p.run now carry (.error message) d).outcome) rfl
    refine (Payload.fault?_eq_none_iff _).2 ⟨hstatus _, hexit _, ?_, ?_, ?_⟩
    · rw [hscore]
      decide
    · rw [hfiles, hissues]
      decide
    · rw [hreadiness]
      decide

/-- The scan of an empty tree is interrupted, and a webhook is to be told. -/
def interruptedScan : Report := { interrupted := true }

def telling : Pipeline := { notifiers := [⟨.webhook, "https://h.example/hook"⟩] }

theorem webhook_told_of_interrupted_scan :
    0 ≤ interruptedScan.files ∧ interruptedScan.issues.length < 2 ^ 59 ∧
      ((telling.run .zero (fun _ => .answer 200 []) (.ok interruptedScan.finalize) {}).outcome.deliveries.map
        fun x => (x.endpoint, x.delivered, x.status)) =
          [(("https://h.example/***" : Text), true, (200 : Int))] := by
  have hfiles : 0 ≤ interruptedScan.files := by decide
  have hfew : interruptedScan.issues.length < 2 ^ 59 := by decide
  obtain ⟨-, -, -, -, -, -, hdeliveries, -⟩ :=
    telling.payload_of_run_has_no_fault .zero (fun _ => .answer 200 []) interruptedScan {} hfiles hfew
  refine ⟨hfiles, hfew, ?_⟩
  rw [hdeliveries]
  decide

end Pipeline

end LiteralAudit
