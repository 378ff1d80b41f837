import LiteralAudit.Proofs.Disk.WellFormed
import LiteralAudit.Proofs.Disk.Listing
import LiteralAudit.Proofs.Pipeline.Verdict

/-!
# The baseline is the last good run

Runs that share a baseline file read it, decide, and replace it when they pass. `Course` is a sequence
of such runs, between which the disk may change in any way that leaves the baseline file alone; in
particular, what the disk refuses may change. A run *accepts* a content when it passes and can replace
the file by it (`Turn.accepted?`), and the invariant is that the file holds what the last run accepted:
`Turn.entryAt?_result` is the step, `Course.entryAt?_found` the invariant before each run.

A run also writes a history and artifacts. It is `Undisturbed` when this leaves what is at the baseline's
path as it was; without that there is no invariant, since an artifact may be written over the baseline.
-/

namespace LiteralAudit

/-! ## Runs -/

/-- A run: how the pipeline is set up, the time, how the endpoints answer, and what the scan gave. -/
structure Turn where
  pipeline : Pipeline
  now : Timestamp
  carry : Transport
  scan : Except Text Report

namespace Turn

def result (t : Turn) (d : Disk) : Pipeline.Result := t.pipeline.run t.now t.carry t.scan d

/-- The disk once the run has dealt with the baseline. -/
def settled (t : Turn) (d : Disk) : Disk :=
  match t.scan with
  | .error _ => d
  | .ok r => (t.pipeline.settle t.now (t.pipeline.withTrend d (t.pipeline.withAdvice r)) d).2

/-- The new content of the baseline file, when the run passes and the file can be replaced. -/
def accepted? (t : Turn) (path : Text) (d : Disk) : Option Text :=
  match t.scan with
  | .error _ => none
  | .ok r =>
    let b := Baseline.ofReport r t.now
    if (t.result d).outcome.passed && (BaselineFile.store d path b t.now).fault?.isNone
    then BaselineFile.text? b t.now else none

/-- What a run does besides putting a new baseline in its place leaves what is at the baseline's path as
it was: the directories that it makes for the baseline, the history and the artifacts. -/
structure Undisturbed (t : Turn) (path : Text) (d : Disk) : Prop where
  dirs : (t.result d).outcome.passed = true → d.entryAt? path = none →
    (d.makeDirs (Path.parent path)).disk.entryAt? path = none
  rest : (t.result d).disk.entryAt? path = (t.settled d).entryAt? path

end Turn

/-- The baseline that the content of a file writes down, if there is a file and it does. -/
def BaselineFile.read? (path : Text) (content? : Option Text) : Option Baseline :=
  content?.bind fun content => (BaselineFile.read path content).toOption

/-! ## Storing a baseline -/

namespace BaselineFile

theorem load_of_entryAt? {d : Disk} {path : Text} {content? : Option Text}
    (h : d.entryAt? path = content?.map .file) :
    (load d path).toOption.join = read? path content? := by
  cases content? with
  | none =>
    obtain ⟨e, he⟩ := Disk.contentOf_of_entryAt?_none h
    rw [load, he]
    dsimp only
    split <;> rfl
  | some content =>
    rw [load, Disk.contentOf_of_entryAt?_file h]
    dsimp only [read?, Option.bind_some]
    cases read path content <;> rfl

theorem isSome_text?_of_store {d : Disk} {path : Text} {b : Baseline} {now : Timestamp}
    (h : (store d path b now).fault? = none) : (text? b now).isSome = true := by
  unfold store at h
  cases htext : text? b now with
  | none => simp [htext] at h
  | some content => rfl

/-- A baseline that is stored is what the file holds, and one that is not leaves the file as it was. -/
theorem entryAt?_store {d : Disk} {path : Text} {content? : Option Text} {b : Baseline}
    {now : Timestamp} (h : d.entryAt? path = content?.map .file)
    (hdirs : d.entryAt? path = none → (d.makeDirs (Path.parent path)).disk.entryAt? path = none) :
    (store d path b now).disk.entryAt? path =
      ((if (store d path b now).fault?.isNone then text? b now else none).or content?).map .file := by
  have hmade : (d.makeDirs (Path.parent path)).disk.entryAt? path = content?.map .file := by
    cases content? with
    | none => exact hdirs h
    | some content => exact Disk.entryAt?_makeDirs_of_file _ h
  have hnolink : ∀ target,
      (d.makeDirs (Path.parent path)).disk.entryAt? path ≠ some (.link target) := by
    rw [hmade]
    cases content? <;> simp
  unfold store
  cases htext : text? b now with
  | none => exact h
  | some content =>
    dsimp only
    rw [Disk.entryAt?_replace hnolink, hmade, Option.isNone_map]
    cases (d.replace path content).fault?.isNone <;> rfl

end BaselineFile

/-! ## Dealing with the baseline -/

namespace Pipeline

/-- The gates say nothing about the baseline. -/
theorem judge_eq (g : Gates) (r : Report) :
    (judge g r).comparison? = none ∧ (judge g r).regression = false ∧
      (judge g r).baselineUpdated = false := by
  unfold judge
  dsimp only
  split
  · exact ⟨rfl, rfl, rfl⟩
  · split <;> exact ⟨rfl, rfl, rfl⟩

section Settle

variable {p : Pipeline} {path : Text} (hpath : p.baseline? = some path) (now : Timestamp) (r : Report)
  (d : Disk)

include hpath

theorem compareWithBaseline_eq (o : Outcome) :
    p.compareWithBaseline d r o =
      match (BaselineFile.load d path).toOption.join with
      | some b => { o with
          comparison? := some (compare b r)
          regression := Baseline.isRegression b.seconds r.seconds }
      | none => o := by
  unfold compareWithBaseline
  rw [hpath, Option.map_some]
  cases BaselineFile.load d path with
  | error e => rfl
  | ok b? => cases b? <;> rfl

theorem settle_eq :
    p.settle now r d =
      let o := p.compareWithBaseline d r (judge p.gates r)
      if (judge p.gates r).passed then
        let a := BaselineFile.store d path (.ofReport r now) now
        ({ o with baselineUpdated := a.fault?.isNone }, a.disk)
      else (o, d) := by
  have hpassed : (p.compareWithBaseline d r (judge p.gates r)).passed = (judge p.gates r).passed :=
    congrArg Verdict.passed (p.verdict_compareWithBaseline d r _)
  unfold settle updateBaseline
  rw [hpath]
  dsimp only
  rw [hpassed]
  cases (judge p.gates r).passed <;> rfl

theorem disk_settle :
    (p.settle now r d).2 =
      if (judge p.gates r).passed then (BaselineFile.store d path (.ofReport r now) now).disk
      else d := by
  rw [settle_eq hpath]
  dsimp only
  split <;> rfl

theorem baselineUpdated_settle :
    (p.settle now r d).1.baselineUpdated =
      ((judge p.gates r).passed &&
        (BaselineFile.store d path (.ofReport r now) now).fault?.isNone) := by
  rw [settle_eq hpath]
  dsimp only
  split
  · next hpassed => rw [hpassed, Bool.true_and]
  · next hpassed =>
    rw [Bool.eq_false_iff.2 hpassed, Bool.false_and, compareWithBaseline_eq hpath]
    split <;> exact (judge_eq p.gates r).2.2

theorem comparison_settle :
    (p.settle now r d).1.comparison? =
        (BaselineFile.load d path).toOption.join.map (compare · r) ∧
      (p.settle now r d).1.regression =
        (BaselineFile.load d path).toOption.join.any
          fun b => Baseline.isRegression b.seconds r.seconds := by
  obtain ⟨hcomparison, hregression, -⟩ := judge_eq p.gates r
  have hcompare : (p.compareWithBaseline d r (judge p.gates r)).comparison? =
        (BaselineFile.load d path).toOption.join.map (compare · r) ∧
      (p.compareWithBaseline d r (judge p.gates r)).regression =
        (BaselineFile.load d path).toOption.join.any
          fun b => Baseline.isRegression b.seconds r.seconds := by
    rw [compareWithBaseline_eq hpath]
    cases (BaselineFile.load d path).toOption.join with
    | none => exact ⟨hcomparison, hregression⟩
    | some b => exact ⟨rfl, rfl⟩
  rw [settle_eq hpath]
  dsimp only
  split
  · exact hcompare
  · exact hcompare

end Settle

/-- The report of a run has the figures of the scan. -/
theorem ofReport_addenda (p : Pipeline) (d : Disk) (r : Report) (now : Timestamp) :
    Baseline.ofReport (p.withTrend d (p.withAdvice r)) now = Baseline.ofReport r now := by
  obtain ⟨trend?, recommendations, h⟩ := p.exists_addenda d r
  rw [h]
  rfl

theorem passed_settle (p : Pipeline) (now : Timestamp) (r : Report) (d : Disk) :
    (p.settle now r d).1.passed = (judge p.gates r).passed :=
  (congrArg Verdict.passed (p.verdict_updateBaseline now r _ d)).trans
    (congrArg Verdict.passed (p.verdict_compareWithBaseline d r _))

end Pipeline

/-! ## One run -/

namespace Turn

variable {t : Turn} {path : Text} {d : Disk} {content? : Option Text}

/-- A run that accepts a content passes and stores it. -/
theorem accepted?_eq {r : Report} (hscan : t.scan = .ok r) :
    t.accepted? path d =
      if (t.result d).outcome.passed then
        if (BaselineFile.store d path (.ofReport r t.now) t.now).fault?.isNone
        then BaselineFile.text? (.ofReport r t.now) t.now else none
      else none := by
  unfold accepted?
  rw [hscan]
  cases (t.result d).outcome.passed <;> rfl

section

variable (hpath : t.pipeline.baseline? = some path)

include hpath

/-- A run reports that it has replaced the baseline exactly when it has. -/
theorem baselineUpdated_result :
    (t.result d).outcome.baselineUpdated = (t.accepted? path d).isSome := by
  obtain ⟨p, now, carry, scan⟩ := t
  cases scan with
  | error message => rfl
  | ok r =>
    have hupdated := Pipeline.baselineUpdated_settle hpath now (p.withTrend d (p.withAdvice r)) d
    rw [← p.passed_settle, p.ofReport_addenda] at hupdated
    rw [accepted?_eq rfl]
    refine hupdated.trans ?_
    show _ = (if (p.settle now (p.withTrend d (p.withAdvice r)) d).1.passed then _ else none).isSome
    cases (p.settle now (p.withTrend d (p.withAdvice r)) d).1.passed with
    | false => rfl
    | true =>
      cases hfault : (BaselineFile.store d path (.ofReport r now) now).fault? with
      | some e => rfl
      | none => exact (BaselineFile.isSome_text?_of_store hfault).symm

theorem entryAt?_settled (h : d.entryAt? path = content?.map .file)
    (hdirs : (t.result d).outcome.passed = true → d.entryAt? path = none →
      (d.makeDirs (Path.parent path)).disk.entryAt? path = none) :
    (t.settled d).entryAt? path = ((t.accepted? path d).or content?).map .file := by
  obtain ⟨p, now, carry, scan⟩ := t
  cases scan with
  | error message => exact h
  | ok r =>
    have hdisk := Pipeline.disk_settle hpath now (p.withTrend d (p.withAdvice r)) d
    rw [← p.passed_settle, p.ofReport_addenda] at hdisk
    rw [accepted?_eq rfl]
    show (p.settle now (p.withTrend d (p.withAdvice r)) d).2.entryAt? path =
      ((if (p.settle now (p.withTrend d (p.withAdvice r)) d).1.passed then _ else none).or _).map _
    rw [hdisk]
    cases hpassed : (p.settle now (p.withTrend d (p.withAdvice r)) d).1.passed with
    | false => exact h
    | true => exact BaselineFile.entryAt?_store h (hdirs hpassed)

/-- What a run leaves in the baseline file: the content that it accepts, else what it has found. -/
theorem entryAt?_result (h : d.entryAt? path = content?.map .file) (hrun : t.Undisturbed path d) :
    (t.result d).disk.entryAt? path = ((t.accepted? path d).or content?).map .file :=
  hrun.rest.trans (entryAt?_settled hpath h hrun.dirs)

/-- A run with a report compares it with what is in the baseline file. -/
theorem comparison_result {r : Report} (hscan : t.scan = .ok r)
    (h : d.entryAt? path = content?.map .file) :
    (t.result d).outcome.comparison? =
        (BaselineFile.read? path content?).map (Pipeline.compare · r) ∧
      (t.result d).outcome.regression =
        (BaselineFile.read? path content?).any fun b => Baseline.isRegression b.seconds r.seconds := by
  obtain ⟨p, now, carry, scan⟩ := t
  obtain rfl : scan = .ok r := hscan
  obtain ⟨trend?, recommendations, hreport⟩ := p.exists_addenda d r
  have hsettle := Pipeline.comparison_settle hpath now (p.withTrend d (p.withAdvice r)) d
  rw [BaselineFile.load_of_entryAt? h] at hsettle
  obtain ⟨hcomparison, hregression⟩ := hsettle
  constructor
  · refine hcomparison.trans ?_
    rw [hreport]
    rfl
  · refine hregression.trans ?_
    rw [hreport]

end

/-- A run that keeps no history and writes no artifacts leaves a baseline file alone. -/
theorem undisturbed_of_quiet {content : Text} (houtput : t.pipeline.outputDir = [])
    (hhistory : t.pipeline.history? = none) (h : d.entryAt? path = some (.file content)) :
    t.Undisturbed path d where
  dirs := by simp [h]
  rest := by
    obtain ⟨p, now, carry, scan⟩ := t
    cases scan with
    | error message => rfl
    | ok r =>
      have hkeep : ∀ r d, p.keep r d = d := by
        intro r d
        unfold Pipeline.keep
        rw [show p.history? = none from hhistory]
      have hwrite : ∀ r o d, (p.writeArtifacts now r o d).2 = d := by
        intro r o d
        unfold Pipeline.writeArtifacts
        rw [show p.outputDir = [] from houtput]
        rfl
      show Disk.entryAt? (p.writeArtifacts now _ _ (p.keep _ _)).2 path = _
      rw [hwrite, hkeep]
      rfl

/-- A run leaves a file where it has found one. -/
theorem exists_file_result {content : Text} (hpath : t.pipeline.baseline? = some path)
    (h : d.entryAt? path = some (.file content)) (hrun : t.Undisturbed path d) :
    ∃ content', (t.result d).disk.entryAt? path = some (.file content') := by
  rw [entryAt?_result hpath (show d.entryAt? path = (some content).map .file from h) hrun]
  cases t.accepted? path d with
  | none => exact ⟨content, rfl⟩
  | some content' => exact ⟨content', rfl⟩

end Turn

/-! ## Sequences of runs -/

/-- Runs one after the other, each with the disk that it has found. They share the baseline file at a
path. From the end of a run to the start of the next one the disk may change, but not what is at this
path. -/
inductive Course (path : Text) : Disk → List (Disk × Turn) → Disk → Prop where
  | done {d : Disk} : Course path d [] d
  | turn {d found last : Disk} {t : Turn} {rest : List (Disk × Turn)} :
      found.entryAt? path = d.entryAt? path → t.pipeline.baseline? = some path →
      t.Undisturbed path found → Course path (t.result found).disk rest last →
      Course path d ((found, t) :: rest) last

/-- The content of the baseline file after some runs: what the last of them that accepted a content has
accepted, else what was there at the start. -/
def contentAfter (path : Text) (initial? : Option Text) (turns : List (Disk × Turn)) : Option Text :=
  (turns.filterMap fun (found, t) => t.accepted? path found).getLast?.or initial?

theorem contentAfter_cons (path : Text) (initial? : Option Text) (found : Disk) (t : Turn)
    (rest : List (Disk × Turn)) :
    contentAfter path initial? ((found, t) :: rest) =
      contentAfter path ((t.accepted? path found).or initial?) rest := by
  unfold contentAfter
  rw [List.filterMap_cons]
  dsimp only
  cases t.accepted? path found with
  | none => rfl
  | some content =>
    dsimp only
    rw [List.getLast?_cons]
    cases (rest.filterMap fun x => x.2.accepted? path x.1).getLast? <;> rfl

namespace Course

variable {path : Text} {d last : Disk} {turns : List (Disk × Turn)} {initial? : Option Text}

/-- After all runs the file holds what the last of them has accepted. -/
theorem entryAt?_last (h : Course path d turns last) (hd : d.entryAt? path = initial?.map .file) :
    last.entryAt? path = (contentAfter path initial? turns).map .file := by
  induction h generalizing initial? with
  | done => exact hd
  | turn hfound hpath hrun _ ih =>
    rw [contentAfter_cons]
    exact ih (Turn.entryAt?_result hpath (hfound.trans hd) hrun)

/-- Each run finds what the last one before it has accepted. -/
theorem entryAt?_found (h : Course path d turns last) (hd : d.entryAt? path = initial?.map .file)
    {before after : List (Disk × Turn)} {found : Disk} {t : Turn}
    (hturns : turns = before ++ (found, t) :: after) :
    t.pipeline.baseline? = some path ∧
      found.entryAt? path = (contentAfter path initial? before).map .file := by
  induction h generalizing initial? before with
  | done => cases before <;> cases hturns
  | turn hfound hpath hrun _ ih =>
    cases before with
    | nil =>
      cases hturns
      exact ⟨hpath, hfound.trans hd⟩
    | cons x before =>
      cases hturns
      rw [contentAfter_cons]
      exact ih (Turn.entryAt?_result hpath (hfound.trans hd) hrun) rfl

end Course

/-! ### Interrupted runs with artifacts -/

namespace Pipeline

variable {es : List (Text × Entry)} {name : Text}

/-- An artifact sets the file of its name, or removes it. -/
theorem writeArtifact_root (hname : Path.Plain name) (hshort : name.length ≤ Disk.nameLimit)
    (hnul : name.contains 0 = false) (hfiles : ∀ x ∈ es, x.2.isFile = true)
    (text : Except Format.Error Text) : ∃ es',
    (writeArtifact name text { root := .dir es }).2 = { root := .dir es' } ∧
    (∀ x ∈ es', x.2.isFile = true) ∧ (∀ other, other ≠ name → es'.lookup other = es.lookup other) ∧
    ∀ content, text = .ok content → es'.lookup name = some (.file content) := by
  have hplace := Disk.locate_root hname hshort hnul hfiles true
  have hset : ∀ content, ∀ x ∈ Entry.insert name (.file content) es, x.2.isFile = true := by
    intro content x hx
    obtain rfl | hx := Entry.mem_of_mem_insert hx
    · rfl
    · exact hfiles x hx
  have hwritten : ∀ content, ({ root := .dir es } : Disk).writeFile name content =
      .ok { root := .dir (Entry.insert name (.file content) es) } := by
    intro content
    unfold Disk.writeFile
    rw [hplace]
    cases hlookup : es.lookup name with
    | none =>
      have hslash : (name.getLast? == some ('/' : UInt8)) = false := by
        rw [beq_eq_false_iff_ne]
        exact fun h => hname.isPart.2 (List.mem_of_getLast? h)
      simp only [hslash, Bool.false_eq_true, if_false]
      rfl
    | some e =>
      obtain ⟨front, back, rfl, -⟩ := List.lookup_eq_some_iff.1 hlookup
      have hfile : e.isFile = true := hfiles (name, e) (by simp)
      simp only [hfile, Bool.not_true, Bool.false_eq_true, if_false]
      rfl
  unfold writeArtifact
  rw [hwritten]
  cases text with
  | ok content =>
    refine ⟨_, rfl, hset content, fun other hne => Entry.lookup_insert_of_ne hne _ _, ?_⟩
    rintro _ ⟨⟩
    exact Entry.lookup_insert_self ..
  | error e =>
    have hremoved := Disk.locate_root hname hshort hnul (hset []) false
    refine ⟨(Entry.insert name (.file []) es).filter (·.1 != name), ?_, ?_, ?_, nofun⟩
    · show Disk.removeAll _ _ = _
      unfold Disk.removeAll
      rw [show (Except.error e).toOption.getD [] = ([] : Text) from rfl, hremoved, Entry.lookup_insert_self]
      rfl
    · exact fun x hx => hset [] x (List.mem_of_mem_filter hx)
    · intro other hne
      rw [Entry.lookup_filter_ne, if_neg hne, Entry.lookup_insert_of_ne hne]

/-- Artifacts in a working directory of files set the files of their names only, and the last one that is
written is there. -/
theorem writeArtifacts_root {p : Pipeline} {now : Timestamp} {r : Report} {o : Outcome}
    (hdir : p.outputDir = ".") (hnames : ∀ x ∈ artifacts now r o, Path.Plain x.1 ∧
      x.1.length ≤ Disk.nameLimit ∧ x.1.contains 0 = false)
    (hfiles : ∀ x ∈ es, x.2.isFile = true) : ∃ es',
    (p.writeArtifacts now r o { root := .dir es }).2 = { root := .dir es' } ∧
    (∀ x ∈ es', x.2.isFile = true) ∧
    (∀ other, other ∉ (artifacts now r o).map (·.1) → es'.lookup other = es.lookup other) ∧
    ∀ name content, (artifacts now r o).getLast? = some (name, .ok content) →
      es'.lookup name = some (.file content) := by
  have hmade : ({ root := .dir es } : Disk).makeDirs "." = ⟨none, { root := .dir es }⟩ :=
    Disk.makeDirs_of_dir (Disk.stat_eq_dir_iff.2
      ⟨[], ⟨by decide, by decide, .dot ⟨es, rfl⟩ (by decide) .stop⟩, rfl⟩)
  have hdot : (Text.ofString ".").isEmpty = false := rfl
  unfold writeArtifacts
  rw [hdir, hmade]
  simp only [hdot, Option.isSome_none, Bool.false_eq_true, if_false]
  generalize artifacts now r o = files at hnames ⊢
  induction files using List.reverseRecOn with
  | nil => exact ⟨es, rfl, hfiles, fun _ _ => rfl, nofun⟩
  | append_singleton files x ih =>
    obtain ⟨name, text⟩ := x
    obtain ⟨hname, hshort, hnul⟩ := hnames (name, text) (by simp)
    obtain ⟨es₁, hbefore, hfiles₁, hkept, -⟩ := ih fun x hx => hnames x (List.mem_append_left _ hx)
    obtain ⟨es₂, hwritten, hfiles₂, hkept₂, hlast⟩ := writeArtifact_root hname hshort hnul hfiles₁ text
    have hpath : Path.join [Text.ofString ".", name] = name := by
      rw [Path.join_eq_spell _ hname]
      exact Path.spell_concat false [] name
    refine ⟨es₂, ?_, hfiles₂, ?_, ?_⟩
    · rw [List.foldl_concat]
      generalize List.foldl _ _ files = before at hbefore ⊢
      obtain ⟨written, d⟩ := before
      obtain rfl : d = _ := hbefore
      dsimp only
      rw [hpath, ← hwritten]
      generalize writeArtifact name text _ = result
      obtain ⟨_ | _, d⟩ := result <;> rfl
    · intro other hother
      simp only [List.map_append, List.map_cons, List.map_nil, List.mem_append, List.mem_singleton,
        not_or] at hother
      rw [hkept₂ other hother.2, hkept other hother.1]
    · intro name' content hend
      rw [List.getLast?_concat, Option.some.injEq, Prod.mk.injEq] at hend
      obtain ⟨rfl, htext⟩ := hend
      exact hlast content htext

end Pipeline

namespace Turn

/-- 03:04:05 on 2 January 2026. -/
def sampleTime : Timestamp := ⟨1767323045, 0, 0⟩

/-- A run with a baseline at a path; without a directory it writes no artifacts. -/
def sample (outputDir baseline : Text) (report : Report) : Turn where
  pipeline := { outputDir, baseline? := some baseline }
  now := sampleTime
  carry := fun _ => .failure []
  scan := .ok report

/-- A disk with a file in the working directory. -/
def sampleDisk (name content : Text) : Disk := { root := .dir [(name, .file content)] }

/-- The artifacts of such a run; only the report as JSON may be unwritable. -/
theorem artifacts_sampleTime {r : Report} (hr : r.timestamp.isZero = true) (o : Outcome) :
    Pipeline.artifacts sampleTime r o =
      [(Text.ofString "validation_report_20260102_030405.json", Format.json true r),
        (Text.ofString "validation_report_20260102_030405.html", .ok (Format.Html.report r)),
        (Text.ofString "validation_report_20260102_030405.csv", .ok (Format.Csv.report r)),
        (Text.ofString "validation_report_20260102_030405.xml", .ok (Format.Junit.report r)),
        (Text.ofString "pipeline_summary_20260102_030405.md",
          .ok (Format.Markdown.outcome o))] := by
  have hstamp : sampleTime.fileStamp = Text.ofString "20260102_030405" := by cbv
  unfold Pipeline.artifacts
  simp only [hr, if_true, hstamp]
  rfl

section Interrupted

variable (outputDir baseline : Text) (d : Disk)

theorem settled_interrupted :
    (sample outputDir baseline { interrupted := true }).settled d = d :=
  (Pipeline.disk_settle rfl sampleTime _ d).trans rfl

theorem accepted?_interrupted :
    (sample outputDir baseline { interrupted := true }).accepted? baseline d = none := by
  have hpassed : ((sample outputDir baseline { interrupted := true }).result d).outcome.passed =
      false :=
    ((sample outputDir baseline {}).pipeline.passed_settle sampleTime _ d).trans rfl
  rw [accepted?_eq rfl, hpassed]
  rfl

/-- An interrupted run changes the disk by its artifacts only. -/
theorem disk_interrupted : ∃ o,
    ((sample outputDir baseline { interrupted := true }).result d).disk =
      (Pipeline.writeArtifacts { outputDir, baseline? := some baseline } sampleTime
        { interrupted := true } o d).2 := by
  obtain ⟨o, ho⟩ : ∃ o, ((sample outputDir baseline { interrupted := true }).result d).disk =
      (Pipeline.writeArtifacts { outputDir, baseline? := some baseline } sampleTime
        { interrupted := true } o
        ((sample outputDir baseline { interrupted := true }).settled d)).2 := ⟨_, rfl⟩
  rw [settled_interrupted] at ho
  exact ⟨o, ho⟩

end Interrupted

theorem entryAt?_sampleDisk (content : Text) :
    (sampleDisk "b.json" content).entryAt? "b.json" = some (.file content) := by
  cbv

/-- What an interrupted run on a disk with one file leaves in the directory: the other files are the
artifacts, and the summary is the last of them. -/
theorem exists_root_interrupted (baseline name content : Text) : ∃ es o,
    ((sample "." baseline { interrupted := true }).result (sampleDisk name content)).disk =
      { root := .dir es } ∧ (∀ x ∈ es, x.2.isFile = true) ∧
    (∀ other ∉ ([Text.ofString "validation_report_20260102_030405.json",
        "validation_report_20260102_030405.html", "validation_report_20260102_030405.csv",
        "validation_report_20260102_030405.xml", "pipeline_summary_20260102_030405.md"] : List Text),
      es.lookup other = List.lookup other [(name, .file content)]) ∧
    es.lookup (Text.ofString "pipeline_summary_20260102_030405.md") =
      some (Entry.file (Format.Markdown.outcome o)) := by
  obtain ⟨o, hdisk⟩ := disk_interrupted "." baseline (sampleDisk name content)
  have hartifacts := artifacts_sampleTime (r := { interrupted := true }) rfl o
  have hnames : ∀ x ∈ Pipeline.artifacts sampleTime { interrupted := true } o, Path.Plain x.1 ∧
      x.1.length ≤ Disk.nameLimit ∧ x.1.contains 0 = false := by
    rw [hartifacts]
    simp only [List.forall_mem_cons]
    decide
  have hfile : ∀ x ∈ [(name, Entry.file content)], x.2.isFile = true := by simp [Entry.isFile]
  obtain ⟨es, hwritten, hfiles, hkept, hlast⟩ := Pipeline.writeArtifacts_root
    (p := { outputDir := ".", baseline? := some baseline }) rfl hnames hfile
  rw [hartifacts] at hkept hlast
  exact ⟨es, o, hdisk.trans hwritten, hfiles, hkept, hlast _ _ rfl⟩

/-- A baseline beside the artifacts is left alone. -/
theorem undisturbed_beside_artifacts (content : Text) :
    (sample "." "b.json" { interrupted := true }).Undisturbed "b.json"
      (sampleDisk "b.json" content) where
  dirs := by simp [entryAt?_sampleDisk]
  rest := by
    obtain ⟨es, o, hdisk, hfiles, hkept, -⟩ := exists_root_interrupted "b.json" "b.json" content
    rw [settled_interrupted, entryAt?_sampleDisk, hdisk,
      Disk.entryAt?_root (by decide) (by decide) (by decide) hfiles, hkept _ (by decide)]
    rfl

/-- Whatever the other artifacts are, the summary is the last that is written. -/
theorem entryAt?_summary : ∃ o,
    ((sample "." "pipeline_summary_20260102_030405.md" { interrupted := true }).result
      (sampleDisk "pipeline_summary_20260102_030405.md" "{}")).disk.entryAt?
        "pipeline_summary_20260102_030405.md" = some (.file (Format.Markdown.outcome o)) := by
  obtain ⟨es, o, hdisk, hfiles, -, hsummary⟩ := exists_root_interrupted
    "pipeline_summary_20260102_030405.md" "pipeline_summary_20260102_030405.md" "{}"
  refine ⟨o, ?_⟩
  rw [hdisk, Disk.entryAt?_root (by decide) (by decide) (by decide) hfiles, hsummary]

end Turn

/-! ### Runs on a disk that is full for a while -/

namespace Course

def fullDisk : Disk :=
  { ((Turn.sample "." "b.json" { interrupted := true }).result
      (Turn.sampleDisk "b.json" "{}")).disk with
    refuses := fun _ _ => some (.system "no space left on device") }

def freedDisk : Disk :=
  { ((Turn.sample [] "b.json" {}).result fullDisk).disk with refuses := fun _ _ => none }

/-- An interrupted run that writes artifacts, a run on a full disk, and one after there is room again. -/
theorem full_for_a_while :
    Course "b.json" (Turn.sampleDisk "b.json" "{}")
      [(Turn.sampleDisk "b.json" "{}", Turn.sample "." "b.json" { interrupted := true }),
        (fullDisk, Turn.sample [] "b.json" {}), (freedDisk, Turn.sample [] "b.json" {})]
      ((Turn.sample [] "b.json" {}).result freedDisk).disk := by
  have h₁ := Turn.entryAt?_sampleDisk "{}"
  have hrun : ∀ {content} {d : Disk}, d.entryAt? "b.json" = some (.file content) →
      (Turn.sample [] "b.json" {}).Undisturbed "b.json" d := Turn.undisturbed_of_quiet rfl rfl
  obtain ⟨_, h₂⟩ : ∃ content, fullDisk.entryAt? "b.json" = some (.file content) :=
    Turn.exists_file_result rfl h₁ (Turn.undisturbed_beside_artifacts _)
  obtain ⟨_, h₃⟩ : ∃ content, freedDisk.entryAt? "b.json" = some (.file content) :=
    Turn.exists_file_result rfl h₂ (hrun h₂)
  exact .turn rfl rfl (Turn.undisturbed_beside_artifacts _)
    (.turn rfl rfl (hrun h₂) (.turn rfl rfl (hrun h₃) .done))

end Course

end LiteralAudit
