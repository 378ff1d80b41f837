import LiteralAudit.Proofs.History.Stored
import LiteralAudit.Proofs.Pipeline.LastGoodRun

/-!
# The trend is the one since the last complete run

A run looks for the latest report of the history, decides, and only then stores its own report, unless
the scan failed or was interrupted. `History.Course` is a sequence of such runs that share a history. The
invariant is that the history holds the complete reports of the runs so far, in their order:
`Turn.holds_result` is the step, `History.Course.holds_last` the invariant. What a run is compared with is
then the last of these reports (`Turn.report?_result_of_holds`).

A run also replaces a baseline and writes artifacts, and the disk may change between the runs. All of
this has to leave the run files alone (`Turn.KeepsHistory`): a baseline may be put among them.
-/

namespace LiteralAudit

namespace History

/-- Where a report was saved, the disk is the one that storing it leaves. -/
theorem disk_store {d after : Disk} {dir path : Text} {r : Report}
    (h : save d dir r = .ok (after, path)) : (store d dir r).disk = after := by
  unfold save Attempt.result at h
  cases hfault : (store d dir r).fault? with
  | some e =>
    rw [hfault] at h
    cases h
  | none =>
    rw [hfault] at h
    cases h
    rfl

end History

namespace Pipeline

/-- Where a history holds reports, the trend is the one since the last of them, as it is read. -/
theorem withTrend_of_holds {p : Pipeline} {d : Disk} {dir : Text} {rs : List Report}
    (hhistory : p.history? = some dir) (h : History.Holds d dir rs) (r : Report) :
    p.withTrend d (p.withAdvice r) = { p.withAdvice r with
      trend? := ((rs.getLast?.bind History.reread?).map (Trend.ofReports r)).or r.trend? } := by
  obtain ⟨recommendations, hadvice⟩ := p.exists_advice r
  rw [hadvice]
  unfold withTrend
  rw [hhistory, Option.map_some, h.latest_eq]
  cases rs.getLast? with
  | none => rfl
  | some previous =>
    rw [Option.elim_some, Option.bind_some]
    cases History.reread? previous with
    | none => rfl
    | some previous => rfl

end Pipeline

/-! ## One run -/

namespace Turn

/-- The report of a run that came to its end. -/
def complete? (t : Turn) (d : Disk) : Option Report :=
  (t.result d).outcome.report?.filter fun r => !r.interrupted

/-- The disk once the run has dealt with the history. -/
def kept (t : Turn) (d : Disk) : Disk :=
  match t.scan with
  | .error _ => d
  | .ok r => t.pipeline.keep (t.pipeline.withTrend d (t.pipeline.withAdvice r)) (t.settled d)

/-- What a run does besides storing its report leaves the history with the reports that it holds, and a
complete report is stored without a fault. -/
structure KeepsHistory (t : Turn) (dir : Text) (d : Disk) : Prop where
  settling : ∀ rs, History.Holds d dir rs → History.Holds (t.settled d) dir rs
  saving : ∀ r ∈ t.complete? d, ∃ after, History.save (t.settled d) dir r = .ok after
  writing : ∀ rs, History.Holds (t.kept d) dir rs → History.Holds (t.result d).disk dir rs

variable {t : Turn} {d : Disk} {dir : Text} {rs : List Report} {r : Report}

theorem report?_result (hscan : t.scan = .ok r) : (t.result d).outcome.report? =
    some (t.pipeline.withTrend d (t.pipeline.withAdvice r)) := by
  obtain ⟨p, now, carry, scan⟩ := t
  obtain rfl : scan = .ok r := hscan
  exact p.report?_settle now (p.withTrend d (p.withAdvice r)) d

theorem complete?_of_ok (hscan : t.scan = .ok r) : t.complete? d =
    if (t.pipeline.withTrend d (t.pipeline.withAdvice r)).interrupted then none
    else some (t.pipeline.withTrend d (t.pipeline.withAdvice r)) := by
  rw [complete?, report?_result hscan, Option.filter_some]
  cases (t.pipeline.withTrend d (t.pipeline.withAdvice r)).interrupted <;> rfl

/-- Without a complete report nothing is stored. -/
theorem kept_of_incomplete (hnone : t.complete? d = none) : t.kept d = t.settled d := by
  unfold kept
  cases hscan : t.scan with
  | error message =>
    unfold settled
    rw [hscan]
  | ok r =>
    rw [complete?_of_ok hscan] at hnone
    dsimp only
    unfold Pipeline.keep
    split
    · rfl
    · split at hnone
      · next hinterrupted => rw [if_pos hinterrupted]
      · cases hnone

section

variable (hhistory : t.pipeline.history? = some dir)

include hhistory

theorem kept_of_complete (hsome : t.complete? d = some r) :
    t.kept d = (History.store (t.settled d) dir r).disk := by
  unfold kept
  cases hscan : t.scan with
  | error message =>
    have hnone : t.complete? d = none := by
      obtain ⟨p, now, carry, scan⟩ := t
      obtain rfl : scan = .error message := hscan
      rfl
    cases hnone.symm.trans hsome
  | ok r' =>
    rw [complete?_of_ok hscan] at hsome
    dsimp only
    unfold Pipeline.keep
    rw [hhistory]
    split at hsome
    · cases hsome
    · next hinterrupted =>
      cases hsome
      exact if_neg hinterrupted

variable (h : History.Holds d dir rs)

include h

/-- The report of a run is the one of the scan, with the trend since the last report of the history. -/
theorem report?_result_of_holds (hscan : t.scan = .ok r) :
    (t.result d).outcome.report? = some { t.pipeline.withAdvice r with
      trend? := ((rs.getLast?.bind History.reread?).map (Trend.ofReports r)).or r.trend? } := by
  rw [report?_result hscan, Pipeline.withTrend_of_holds hhistory h]

/-- Storing adds the report of a complete run to the history. -/
theorem holds_kept (hrun : t.KeepsHistory dir d)
    (hlater : ∀ r ∈ t.complete? d, r.timestamp.HasShortYear ∧
      ∀ x ∈ rs, x.timestamp.seconds < r.timestamp.seconds) :
    History.Holds (t.kept d) dir (rs ++ (t.complete? d).toList) := by
  cases hcomplete : t.complete? d with
  | none =>
    rw [kept_of_incomplete hcomplete, Option.toList_none, List.append_nil]
    exact hrun.settling rs h
  | some r =>
    obtain ⟨⟨after, path⟩, hsaved⟩ := hrun.saving r hcomplete
    obtain ⟨hyear, hlater⟩ := hlater r hcomplete
    rw [kept_of_complete hhistory hcomplete, History.disk_store hsaved, Option.toList_some]
    exact (hrun.settling rs h).save hlater hyear hsaved

/-- A run adds its report to the history when it is complete, and leaves the history as it was when the
scan failed or was interrupted. -/
theorem holds_result (hrun : t.KeepsHistory dir d)
    (hlater : ∀ r ∈ t.complete? d, r.timestamp.HasShortYear ∧
      ∀ x ∈ rs, x.timestamp.seconds < r.timestamp.seconds) :
    History.Holds (t.result d).disk dir (rs ++ (t.complete? d).toList) :=
  hrun.writing _ (holds_kept hhistory h hrun hlater)

end

theorem settled_of_no_baseline (h : t.pipeline.baseline? = none) : t.settled d = d := by
  unfold settled
  cases t.scan with
  | error message => rfl
  | ok r =>
    dsimp only [Pipeline.settle]
    unfold Pipeline.updateBaseline
    rw [h]

theorem disk_result_of_no_artifacts (h : t.pipeline.outputDir = []) : (t.result d).disk = t.kept d := by
  obtain ⟨p, now, carry, scan⟩ := t
  cases scan with
  | error message => rfl
  | ok r =>
    have hwrite : ∀ r o d, (p.writeArtifacts now r o d).2 = d := by
      intro r o d
      unfold Pipeline.writeArtifacts
      rw [show p.outputDir = [] from h]
      rfl
    exact hwrite _ _ _

/-- Without a baseline and artifacts a run does nothing besides storing its report. -/
theorem keepsHistory_of_quiet (hbaseline : t.pipeline.baseline? = none)
    (houtput : t.pipeline.outputDir = [])
    (hsaved : ∀ r ∈ t.complete? d, ∃ after, History.save d dir r = .ok after) :
    t.KeepsHistory dir d where
  settling := by simp [settled_of_no_baseline hbaseline]
  saving := by simpa [settled_of_no_baseline hbaseline] using hsaved
  writing := by simp [disk_result_of_no_artifacts houtput]

end Turn

/-! ## Sequences of runs -/

namespace History

/-- Runs one after the other, each with the disk that it has found. They share a history, and what
happens besides storing their reports, by them or between them, leaves the history alone. -/
inductive Course (dir : Text) : Disk → List (Disk × Turn) → Disk → Prop where
  | done {d : Disk} : Course dir d [] d
  | turn {d found last : Disk} {t : Turn} {rest : List (Disk × Turn)} :
      (∀ rs, Holds d dir rs → Holds found dir rs) → t.pipeline.history? = some dir →
      t.KeepsHistory dir found → Course dir (t.result found).disk rest last →
      Course dir d ((found, t) :: rest) last

/-- The reports of the runs that came to their end, whatever their gates decided. -/
def completeReports (turns : List (Disk × Turn)) : List Report :=
  turns.filterMap fun (found, t) => t.complete? found

theorem completeReports_cons (found : Disk) (t : Turn) (rest : List (Disk × Turn)) :
    completeReports ((found, t) :: rest) = (t.complete? found).toList ++ completeReports rest := by
  unfold completeReports
  rw [List.filterMap_cons]
  dsimp only
  cases t.complete? found <;> rfl

theorem completeReports_append (before after : List (Disk × Turn)) :
    completeReports (before ++ after) = completeReports before ++ completeReports after :=
  List.filterMap_append

/-- A history answers that these are its reports: it lists their scans, and reads each of them. -/
structure Answers (d : Disk) (dir : Text) (rs : List Report) : Prop where
  list_eq : list d dir = .ok (rs.map fun r => stampAt r.timestamp.seconds)
  load_eq : ∀ r ∈ rs, ∀ t : Timestamp, t.seconds = r.timestamp.seconds → load d dir t = .ok r

theorem Holds.answers {d : Disk} {dir : Text} {rs : List Report} (h : Holds d dir rs)
    (hjson : ∀ r ∈ rs, reread? r = some r) : Answers d dir rs :=
  ⟨h.list_eq, fun r hr t ht => by rw [h.load_eq hr ht, hjson r hr, Option.elim_some]⟩

namespace Course

variable {dir : Text} {d last : Disk} {turns : List (Disk × Turn)} {earlier : List Report}

theorem split {before after : List (Disk × Turn)} (h : Course dir d (before ++ after) last) :
    ∃ between, Course dir d before between ∧ Course dir between after last := by
  induction before generalizing d with
  | nil => exact ⟨d, .done, h⟩
  | cons x before ih =>
    cases h with
    | turn hfound hhistory hrun hrest =>
      obtain ⟨between, hbefore, hafter⟩ := ih hrest
      exact ⟨between, .turn hfound hhistory hrun hbefore, hafter⟩

/-- After all runs the history holds the reports of the complete ones. -/
theorem holds_last (h : Course dir d turns last) (hd : Holds d dir earlier)
    (hyears : ∀ r ∈ completeReports turns, r.timestamp.HasShortYear)
    (hincreasing : (earlier ++ completeReports turns).Pairwise fun a b =>
      a.timestamp.seconds < b.timestamp.seconds) :
    Holds last dir (earlier ++ completeReports turns) := by
  induction h generalizing earlier with
  | done => rwa [completeReports, List.filterMap_nil, List.append_nil]
  | @turn d found last t rest hfound hhistory hrun hrest ih =>
    rw [completeReports_cons] at hyears hincreasing ⊢
    rw [← List.append_assoc] at hincreasing ⊢
    refine ih (Turn.holds_result hhistory (hfound earlier hd) hrun ?_)
      (fun r hr => hyears r (List.mem_append_right _ hr)) hincreasing
    intro r hr
    have hmem : r ∈ (t.complete? found).toList := Option.mem_toList.2 hr
    refine ⟨hyears r (List.mem_append_left _ hmem), fun x hx => ?_⟩
    exact (List.pairwise_append.1 (List.pairwise_append.1 hincreasing).1).2.2 x hx r hmem

end Course

/-! ### Runs that fail, stop and pass -/

/-- A run that keeps its history in the directory `h`. -/
def recording (gates : Gates) (baseline? : Option Text) (scan : Except Text Report) : Turn where
  pipeline := { gates, baseline?, history? := some "h" }
  now := Turn.sampleTime
  carry := fun _ => .failure []
  scan

def criticalScan : Report where
  timestamp := ⟨100, 0, 0⟩
  files := 1
  issues? := some [{ file := "a.py", line := 3, kind := "hardcoded_port", severity := .critical }]
  bySeverity? := some [("critical", 1)]
  score := 25

def cleanScan : Report := { timestamp := ⟨200, 500000000, 3600⟩, files := 1, issues? := some [], score := 100 }

/-- The report of the clean scan as it is stored. -/
def cleanReport : Report := { cleanScan with trend? := some (Trend.ofReports cleanScan criticalScan) }

/-- A run that fails at a gate. -/
def failing : Turn := recording { failOnCritical := true } none (.ok criticalScan)

def stopped : Turn := recording {} none (.ok { timestamp := ⟨150, 0, 0⟩, interrupted := true })

def passing : Turn := recording {} none (.ok cleanScan)

def afterFailing : Disk := diskWith [("1970-01-01T00-01-40-report.json", .file (fileTextOf criticalScan))]

def afterPassing : Disk :=
  diskWith [("1970-01-01T00-01-40-report.json", .file (fileTextOf criticalScan)),
    ("1970-01-01T00-03-20-report.json", .file (fileTextOf cleanReport))]

theorem fileName_criticalScan : fileName criticalScan.timestamp = "1970-01-01T00-01-40-report.json" := by
  decide

theorem save_criticalScan : save {} "h" criticalScan = .ok (afterFailing, runPath "h" criticalScan.timestamp) := by
  have hsaved := save_no_files (r := criticalScan) rfl (by decide)
  rwa [fileName_criticalScan] at hsaved

theorem save_cleanReport :
    save afterFailing "h" cleanReport = .ok (afterPassing, runPath "h" cleanReport.timestamp) := by
  have hname : fileName cleanReport.timestamp = "1970-01-01T00-03-20-report.json" := by decide
  have hsaved := save_diskWith (r := cleanReport)
    [("1970-01-01T00-01-40-report.json", .file (fileTextOf criticalScan))] rfl
    (by decide) (by rw [hname]; rintro _ ⟨⟩)
  rwa [hname] at hsaved

theorem reread_criticalScan : reread? criticalScan = some criticalScan :=
  read_fileTextOf_of_proper ⟨by decide, by decide, by decide⟩
    ⟨by decide, by decide⟩ (by decide)

theorem reread_cleanReport : reread? cleanReport = some cleanReport :=
  read_fileTextOf_of_proper ⟨by decide, by decide, by decide⟩
    ⟨by decide, by decide⟩ (by decide)

/-- What a recording run without a baseline leaves when its report is stored. -/
theorem disk_recording {gates : Gates} {scan : Except Text Report} {d after : Disk} {r : Report} {path : Text}
    (hcomplete : (recording gates none scan).complete? d = some r)
    (hsaved : save d "h" r = .ok (after, path)) :
    (recording gates none scan).KeepsHistory "h" d ∧ ((recording gates none scan).result d).disk = after := by
  refine ⟨Turn.keepsHistory_of_quiet rfl rfl fun r' hr' => ?_, ?_⟩
  · obtain rfl : r = r' := Option.some.inj (hcomplete.symm.trans hr')
    exact ⟨_, hsaved⟩
  · rw [Turn.disk_result_of_no_artifacts rfl, Turn.kept_of_complete rfl hcomplete,
      Turn.settled_of_no_baseline rfl, disk_store hsaved]

theorem disk_recording_nothing {gates : Gates} {scan : Except Text Report} {d : Disk}
    (hnone : (recording gates none scan).complete? d = none) :
    (recording gates none scan).KeepsHistory "h" d ∧ ((recording gates none scan).result d).disk = d := by
  refine ⟨Turn.keepsHistory_of_quiet rfl rfl fun r hr => ?_, ?_⟩
  · rw [hnone] at hr
    cases hr
  · rw [Turn.disk_result_of_no_artifacts rfl, Turn.kept_of_incomplete hnone,
      Turn.settled_of_no_baseline rfl]

def broken : Turn := recording {} none (.error "scan root: stat app: no such file or directory")

def fourRuns : List (Disk × Turn) :=
  [({}, broken), ({}, failing), (afterFailing, stopped), (afterFailing, passing)]

theorem holds_afterFailing : Holds afterFailing "h" [criticalScan] :=
  (holds_nil lists_of_no_files).save (by simp) (by decide) save_criticalScan

theorem complete?_broken : broken.complete? {} = none := rfl

theorem complete?_failing : failing.complete? {} = some criticalScan := by
  rw [Turn.complete?, Turn.report?_result_of_holds rfl (holds_nil lists_of_no_files) rfl]
  rfl

theorem complete?_stopped : stopped.complete? afterFailing = none := by
  rw [Turn.complete?, Turn.report?_result_of_holds rfl holds_afterFailing rfl]
  rfl

theorem report?_passing : (passing.result afterFailing).outcome.report? = some cleanReport := by
  rw [Turn.report?_result_of_holds rfl holds_afterFailing rfl, List.getLast?_singleton, Option.bind_some,
    reread_criticalScan]
  rfl

theorem complete?_passing : passing.complete? afterFailing = some cleanReport := by
  rw [Turn.complete?, report?_passing]
  rfl

theorem course_fourRuns : Course "h" {} fourRuns afterPassing := by
  obtain ⟨hkeeps₁, hdisk₁⟩ := disk_recording_nothing complete?_broken
  obtain ⟨hkeeps₂, hdisk₂⟩ := disk_recording complete?_failing save_criticalScan
  obtain ⟨hkeeps₃, hdisk₃⟩ := disk_recording_nothing complete?_stopped
  obtain ⟨hkeeps₄, hdisk₄⟩ := disk_recording complete?_passing save_cleanReport
  refine .turn (fun _ h => h) rfl hkeeps₁ (.turn (fun _ h => hdisk₁ ▸ h) rfl hkeeps₂
    (.turn (fun _ h => hdisk₂ ▸ h) rfl hkeeps₃ (.turn (fun _ h => hdisk₃ ▸ h) rfl hkeeps₄ ?_)))
  exact hdisk₄ ▸ .done

/-- The first of two runs is complete and its report is stored and can be read, but the second one, whose
scan is a later one, does not have the trend since the first. -/
def Overlooked (first second : Turn) : Prop :=
  ∃ r r' report, first.complete? {} = some r ∧
    (∃ after, save (first.settled {}) "h" r = .ok after) ∧ reread? r = some r ∧
    second.scan = .ok r' ∧ r.timestamp.seconds < r'.timestamp.seconds ∧
    (second.result (first.result {}).disk).outcome.report? = some report ∧
    report.trend? ≠ some (Trend.ofReports r' r)

/-- A scan in the year 0, half an hour after the year began, which had not begun in universal time. -/
def ancientScan : Report := { timestamp := ⟨-62167221000, 0, 3600⟩, files := 1, score := 100 }

theorem overlooked_ancientScan : Overlooked (recording {} none (.ok ancientScan)) passing := by
  have hname : fileName ancientScan.timestamp = "-0001-12-31T23-30-00-report.json" := by decide
  have hsaved := save_no_files (r := ancientScan) rfl (by decide)
  rw [hname] at hsaved
  have hcomplete : (recording {} none (.ok ancientScan)).complete? {} = some ancientScan := by
    rw [Turn.complete?, Turn.report?_result_of_holds rfl (holds_nil lists_of_no_files) rfl]
    rfl
  have hread : reread? ancientScan = some ancientScan :=
    read_fileTextOf_of_proper ⟨by decide, by decide, by decide⟩
      ⟨by decide, by decide⟩ (by decide)
  have hstamp : Timestamp.readRunStamp?
      (Text.dropBack reportSuffix "-0001-12-31T23-30-00-report.json") = none := by decide
  have hlist : ∀ c, list (diskWith [("-0001-12-31T23-30-00-report.json", .file c)]) "h" = .ok [] := by
    intro c
    simp only [list_diskWith, List.filterMap_cons, List.filterMap_nil, stampOf?, hstamp, ite_self,
      List.mergeSort_nil]
  refine ⟨ancientScan, cleanScan, cleanScan, hcomplete, ?_, hread, rfl, by decide, ?_, ?_⟩
  · rw [Turn.settled_of_no_baseline rfl]
    exact ⟨_, hsaved⟩
  · rw [(disk_recording hcomplete hsaved).2, Turn.report?_result rfl]
    have hlatest : latest (diskWith [("-0001-12-31T23-30-00-report.json",
        .file (fileTextOf ancientScan))]) "h" = .error (.noRuns "h") := by
      rw [latest, hlist]
      rfl
    show some (Pipeline.withTrend { history? := some "h" } _ cleanScan) = _
    unfold Pipeline.withTrend
    simp only [Option.map_some, hlatest]
  · exact Option.some_ne_none _ ∘ Eq.symm

/-- The name of a run file, as the path of a baseline. -/
def amongRuns : Text := "h/runs/1970-01-01T00-01-41-report.json"

def earlyScan : Report := { cleanScan with timestamp := ⟨100, 0, 0⟩ }

/-- The baseline of that scan, taken for a report. -/
def misread : Report := { timestamp := .zero, files := 1, score := 100 }

/-- A disk with a baseline among the run files. -/
def baselineDisk (baseline : Text) : Disk := diskWith [("1970-01-01T00-01-41-report.json", .file baseline)]

/-- A disk with a run file and the baseline. -/
def besideBaseline (report baseline : Text) : Disk :=
  diskWith [("1970-01-01T00-01-40-report.json", .file report),
    ("1970-01-01T00-01-41-report.json", .file baseline)]

theorem latest_besideBaseline {baseline : Text}
    (hread : (Json.read? baseline).bind Report.ofJson? = some misread) (report : Text) :
    latest (besideBaseline report baseline) "h" = .ok misread := by
  have hstamp : ∀ content, stampOf? "1970-01-01T00-01-40-report.json" (.file content) =
      some (stampAt 100) := by
    intro content
    rw [← fileName_criticalScan]
    exact stampOf?_fileName (by decide) content
  have hname : fileName (stampAt 101) = "1970-01-01T00-01-41-report.json" := by decide
  have hstamp' : ∀ content, stampOf? "1970-01-01T00-01-41-report.json" (.file content) =
      some (stampAt 101) := by
    intro content
    rw [← hname]
    exact stampOf?_fileName (by decide) content
  have hlist : list (besideBaseline report baseline) "h" = .ok [stampAt 100, stampAt 101] := by
    simp only [besideBaseline, list_diskWith, List.filterMap_cons, List.filterMap_nil, hstamp, hstamp']
    exact congrArg Except.ok (List.mergeSort_of_pairwise (by decide))
  rw [latest_of_listed hlist]
  show load _ _ (stampAt 101) = _
  rw [besideBaseline, load_diskWith (by decide) (by rw [hname]; rfl), hread, Option.elim_some]

theorem overlooked_earlyScan : Overlooked (recording {} (some amongRuns) (.ok earlyScan)) passing := by
  obtain ⟨c, hc, hread⟩ : ∃ c, BaselineFile.text? (.ofReport earlyScan Turn.sampleTime) Turn.sampleTime =
      some c ∧ (Json.read? c).bind Report.ofJson? = some misread :=
    Option.bind_eq_some_iff.1 (by decide +kernel)
  have hbaseline : ∀ c, ({} : Disk).replace amongRuns c = ⟨none, baselineDisk c⟩ := fun c => by cbv
  have hcomplete : (recording {} (some amongRuns) (.ok earlyScan)).complete? {} = some earlyScan := by
    rw [Turn.complete?, Turn.report?_result_of_holds rfl (holds_nil lists_of_no_files) rfl]
    rfl
  have hpassed : (Pipeline.judge {} earlyScan).passed = true := rfl
  have hpath : (recording {} (some amongRuns) (.ok earlyScan)).pipeline.baseline? = some amongRuns := rfl
  have hsettled : (recording {} (some amongRuns) (.ok earlyScan)).settled {} = baselineDisk c := by
    show (Pipeline.settle _ _ (Pipeline.withTrend _ _ (Pipeline.withAdvice _ _)) _).2 = _
    rw [Pipeline.withTrend_of_holds rfl (holds_nil lists_of_no_files), Pipeline.disk_settle hpath]
    refine (if_pos hpassed).trans ?_
    show (BaselineFile.store {} amongRuns (.ofReport earlyScan Turn.sampleTime) Turn.sampleTime).disk = _
    unfold BaselineFile.store
    simp only [hc, hbaseline]
  have hname : fileName earlyScan.timestamp = "1970-01-01T00-01-40-report.json" := fileName_criticalScan
  have hsaved : save (baselineDisk c) "h" earlyScan =
      .ok (besideBaseline (fileTextOf earlyScan) c, runPath "h" earlyScan.timestamp) := by
    have hsaved := save_diskWith (r := earlyScan)
      [("1970-01-01T00-01-41-report.json", .file c)] rfl (by decide)
      (by rw [hname]; rintro _ ⟨⟩)
    rwa [hname] at hsaved
  have hdisk : ((recording {} (some amongRuns) (.ok earlyScan)).result {}).disk =
      besideBaseline (fileTextOf earlyScan) c := by
    rw [Turn.disk_result_of_no_artifacts rfl, Turn.kept_of_complete rfl hcomplete, hsettled,
      disk_store hsaved]
  refine ⟨earlyScan, cleanScan, { cleanScan with trend? := some (Trend.ofReports cleanScan misread) },
    hcomplete, ?_, by decide +kernel, rfl, by decide, ?_, ?_⟩
  · rw [hsettled]
    exact ⟨_, hsaved⟩
  · rw [hdisk, Turn.report?_result rfl]
    show some (Pipeline.withTrend { history? := some "h" } _ cleanScan) = _
    unfold Pipeline.withTrend
    simp only [Option.map_some, latest_besideBaseline hread]
  · intro hsame
    have hcompared := congrArg (fun t? => t?.map Trend.comparedWith) hsame
    exact absurd hcompared (by decide)

end History

end LiteralAudit
