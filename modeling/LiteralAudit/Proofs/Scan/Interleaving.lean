import LiteralAudit.Proofs.Scan.Pool
import LiteralAudit.Scan

/-!
# Reports do not depend on who works when

A scan gives its files to a pool of workers, and nothing orders the parties of the pool. Still, a report
tells of the first `k` files, in the order in which the walk found them, as if they had been audited
one after another. `k` is the number of all files unless the scan is cancelled.

* `Pool.exists_first_files`: what a pool has when nobody can act any more.
* `Scanner.scanAlong`: its report, for every interleaving, is the one of the first `k` files.
* `Scanner.scan_eq_sequential`: a scan that is not cancelled is the audit of its files in order.
-/

namespace LiteralAudit

namespace Pool

variable {φ ρ : Type} {job : φ → ρ} {files : List φ} {workers : Nat} {cancelled : Bool}
  {as : List Action} {p : Pool φ ρ}

/-- A run is at its end, in that nobody can act, exactly when the collector has returned. -/
theorem isStuck_iff_returned (hw : 0 < workers)
    (hrun : (start files workers cancelled).run? job as = some p) :
    p.IsStuck job ↔ p.returned = true := by
  obtain ⟨k, hi⟩ := Inv.run hrun
  have hlen : 0 < p.workers.length := by
    rw [length_workers_run hrun]
    simpa [start] using hw
  exact ⟨hi.returned_of_isStuck hlen, hi.isStuck_of_returned hlen⟩

/-- A run that has come to its end has worked on the first `k` files, on each of them once, and has
their results in order. All files are among them unless the work was cancelled. -/
theorem exists_first_files (hw : 0 < workers)
    (hrun : (start files workers cancelled).run? job as = some p) (hr : p.returned = true) :
    ∃ k ≤ files.length, p.results = (files.take k).map job ∧
      p.audited.Perm (List.range k) ∧
      (cancelled = false → .cancel ∉ as → k = files.length) := by
  obtain ⟨k, hi⟩ := Inv.run hrun
  have hlen : 0 < p.workers.length := by
    rw [length_workers_run hrun]
    simpa [start] using hw
  refine ⟨k, hi.k_le, hi.results_eq hr, hi.audited_perm hr, ?_⟩
  intro hc hnever
  have hcancelled : p.cancelled = false := (cancelled_run hrun hnever).trans hc
  exact hi.eq_length_of_returned hr hlen hcancelled

/-- No run is longer than the work there is: every way to interleave the parties ends. -/
theorem length_run_le (hrun : (start files workers cancelled).run? job as = some p) :
    as.length ≤ 7 * files.length + workers + 5 := by
  have hwork := length_add_work_le hrun
  have hstart := work_start files workers cancelled (ρ := ρ)
  omega

end Pool

namespace Scanner

variable {s s' : Scanner} {d : Disk} {run : Run} {after? : Option Nat} {root : Text} {more : List Text}
  {found : Discovery}

/-! ## Reports on results -/

@[simp] theorem report_files (s : Scanner) (run : Run) (root : Text) (found : Discovery)
    (results : List (List Issue)) : (s.report run root found results).files = results.length := rfl

@[simp] theorem report_issues (s : Scanner) (run : Run) (root : Text) (found : Discovery)
    (results : List (List Issue)) : (s.report run root found results).issues = results.flatten := rfl

theorem report_interrupted_iff (s : Scanner) (run : Run) (root : Text) (found : Discovery)
    (results : List (List Issue)) :
    (s.report run root found results).interrupted = true ↔
      found.interrupted = true ∨ results.length < found.files.length := by
  show (found.interrupted || decide (results.length < found.files.length)) = true ↔ _
  rw [Bool.or_eq_true, decide_eq_true_eq]

/-! ## From a scan to its pool -/

/-- Globs that exclude files change nothing else about a scanner. -/
theorem audit_excluding (h : s.excluding more = .ok s') : s'.audit = s.audit := by
  unfold excluding at h
  split at h
  · cases h
    rfl
  · cases h

theorem workers_excluding (h : s.excluding more = .ok s') : s'.workers = s.workers := by
  unfold excluding at h
  split at h
  · cases h
    rfl
  · cases h

/-- A walk starts from a root that is there. -/
theorem stat_of_discovery (h : s.discovery d after? root = .ok found) :
    ∃ e, d.stat root = .ok e := by
  unfold discovery at h
  split at h
  · cases h
  · next he => exact ⟨_, he⟩
  · next he => exact ⟨_, he⟩

/-- A scan whose walk succeeds reports what its pool has in the end. -/
theorem scanAlong_eq (hs : s.excluding more = .ok s')
    (hf : s'.discovery d after? root = .ok found) (run : Run) (schedule : List Pool.Action) :
    s.scanAlong d run { cancelledAfter? := after?, schedule } root more =
      .ok (s'.report run root found
        (((s'.pool found after?.isSome).play s'.auditFile schedule).drive s'.auditFile).results) := by
  obtain ⟨e, he⟩ := stat_of_discovery hf
  simp only [scanAlong, he, hs, hf, bind, Except.bind, pure, Except.pure]

/-- Whenever a scan is cancelled and whoever acts when, its report is that on the first `k` files,
audited one after another. -/
theorem scanAlong_eq_first_files (hs : s.excluding more = .ok s')
    (hf : s'.discovery d after? root = .ok found) (run : Run) (schedule : List Pool.Action) :
    ∃ k ≤ found.files.length,
      s.scanAlong d run { cancelledAfter? := after?, schedule } root more =
        .ok (s'.report run root found ((found.files.take k).map s'.auditFile)) ∧
      (after? = none → .cancel ∉ schedule → k = found.files.length) := by
  obtain ⟨as, hcancel, hrun, hstuck⟩ :=
    Pool.exists_run?_schedule s'.auditFile (s'.pool found after?.isSome) schedule
  have hreturned := (Pool.isStuck_iff_returned s'.workers_pos hrun).1 hstuck
  obtain ⟨k, hk, hresults, -, hall⟩ := Pool.exists_first_files s'.workers_pos hrun hreturned
  refine ⟨k, hk, ?_, ?_⟩
  · rw [scanAlong_eq hs hf, hresults]
  · rintro rfl hnever
    exact hall rfl (hcancel hnever)

/-- A scan that is not cancelled reports on all files, audited one after another. -/
theorem scan_eq_sequential (hs : s.excluding more = .ok s')
    (hf : s'.discovery d none root = .ok found) (hrun : run.cancelled = false) :
    s.scan d run root more =
      .ok (s'.report run root found (found.files.map s'.auditFile)) := by
  obtain ⟨k, -, hscan, hall⟩ := scanAlong_eq_first_files hs hf run []
  rw [hall rfl List.not_mem_nil, List.take_length] at hscan
  rw [scan, hrun]
  exact hscan

/-! ## Every interleaving -/

/-- For every interleaving `as` of the dispatcher, the workers and the collector, with the moment at
which the scan is cancelled among them or during the walk: the interleaving has an end, which comes when
the collector has returned, and the scan then reports the issues of the first `k` files that were
found. Each of these was audited once, all files are among them unless the scan was cancelled, and the
report is marked as interrupted if the walk was or if files are missing. -/
theorem scanAlong_reports_first_files {as : List Pool.Action} {p : Pool (Text × Text) (List Issue)}
    (hs : s.excluding more = .ok s') (hf : s'.discovery d after? root = .ok found)
    (hrun : (s'.pool found after?.isSome).run? s'.auditFile as = some p) :
    as.length ≤ 7 * found.files.length + s.workers + 5 ∧
    (p.IsStuck s'.auditFile ↔ p.returned = true) ∧
    (p.returned = true →
      ∃ k ≤ found.files.length, ∃ report,
        s.scanAlong d run { cancelledAfter? := after?, schedule := as } root more = .ok report ∧
        report.files = k ∧
        report.issues = (found.files.take k).flatMap (fun file => s.audit file.1 file.2) ∧
        p.audited.Perm (List.range k) ∧
        (after? = none → .cancel ∉ as → k = found.files.length) ∧
        (report.interrupted = true ↔ found.interrupted = true ∨ k < found.files.length)) := by
  have hend := Pool.isStuck_iff_returned s'.workers_pos hrun
  refine ⟨?_, hend, fun hreturned => ?_⟩
  · rw [← workers_excluding hs]
    exact Pool.length_run_le hrun
  · obtain ⟨k, hk, hresults, haudited, hall⟩ :=
      Pool.exists_first_files s'.workers_pos hrun hreturned
    have hscan := scanAlong_eq hs hf run as
    rw [Pool.play_of_run? hrun, Pool.drive_of_isStuck (hend.2 hreturned)] at hscan
    have hlen : p.results.length = k := by
      rw [hresults, List.length_map, List.length_take, Nat.min_eq_left hk]
    refine ⟨k, hk, _, hscan, ?_, ?_, haudited, ?_, ?_⟩
    · rw [report_files, hlen]
    · rw [report_issues, hresults, ← List.flatMap_def, ← audit_excluding hs]
      rfl
    · rintro rfl
      exact hall rfl
    · rw [report_interrupted_iff, hlen]

/-- Three files beside each other. -/
def threeFiles : Disk := { root := .dir [("a", .file "x"), ("b", .file "y"), ("c", .file "z")] }

def twoWorkers : Scanner :=
  { library := ⟨[], [], []⟩, whitelist? := none, selection := ⟨[], []⟩, workers := 2 }

/-- Both workers are at work when the scan is cancelled, and the second is done first. -/
def cancelledHalfway : List Pool.Action :=
  [.look, .take 0, .look, .take 1, .audit 1, .cancel, .send 1, .look, .receive, .audit 0, .send 0,
    .leave 1, .receive, .leave 0, .close, .finish]

theorem two_of_three_files_reported :
    ∃ report, twoWorkers.scanAlong threeFiles { started := .zero } { schedule := cancelledHalfway } "/" [] =
        .ok report ∧
      report.files = 2 ∧ report.interrupted = true := by
  have hs : twoWorkers.excluding [] = .ok twoWorkers := rfl
  have hf : twoWorkers.discovery threeFiles none "/" =
      .ok { files := [("a", "x"), ("b", "y"), ("c", "z")] } := by cbv
  let found : Discovery := { files := [("a", "x"), ("b", "y"), ("c", "z")] }
  let p : Pool (Text × Text) (List Issue) :=
    { cancelled := true, dispatcher := .done, workers := [.gone, .gone], closed := true
      received := [(twoWorkers.auditFile ("b", "y"), 1), (twoWorkers.auditFile ("a", "x"), 0)]
      returned := true, audited := [1, 0] }
  have hrun : (twoWorkers.pool found false).run? twoWorkers.auditFile cancelledHalfway = some p := by rfl
  obtain ⟨-, -, h⟩ := scanAlong_reports_first_files hs hf hrun
  obtain ⟨k, -, report, hscan, hfiles, -, haudited, -, hpartial⟩ := h rfl
  have hk : k = 2 := by
    have hlen := haudited.length_eq
    rw [List.length_range] at hlen
    exact hlen.symm
  subst hk
  exact ⟨report, hscan, hfiles, hpartial.2 (.inr (by decide))⟩

end Scanner

end LiteralAudit
