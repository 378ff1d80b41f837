import LiteralAudit.Proofs.Pipeline.Verdict
import LiteralAudit.Proofs.Report.Codec
import LiteralAudit.Proofs.Scan.Discovery
import LiteralAudit.Proofs.Scan.Root
import LiteralAudit.Proofs.Tool.Steps

/-!
# From the outcome of a run to an exit code

The gate ends with an outcome (`Tool.runGate`). It is printed, and only then turned into an exit code
(`Tool.conclude`), so an outcome that cannot be printed is an error whatever the gates said. As text
every outcome can be printed; as JSON one whose doubles are all finite and whose times all have a text
(`Outcome.Writable`).

* `Format.outcomeJson_isOk_iff`: what JSON can hold of an outcome.
* `Tool.exitCode_of_outcome_iff`: when the exit code is the one of the outcome.
-/

namespace LiteralAudit

/-! ## What JSON can hold -/

namespace Json

theorem ofFloat?_isSome_iff {x : Float} : (ofFloat? x).isSome = true ↔ Number.notFinite? x = none := by
  unfold ofFloat?
  cases Number.notFinite? x <;> simp

theorem ofTimestamp?_isSome {t : Timestamp} : (ofTimestamp? t).isSome = t.rfc3339?.isSome := by
  rw [ofTimestamp?, Option.isSome_map]

/-- What is made of two values is there when both are. -/
theorem isSome_bind_iff {α β : Type} {x : Option α} {f : α → Option β} {P : Prop}
    (h : ∀ a, (f a).isSome = true ↔ P) : (x >>= f).isSome = true ↔ x.isSome = true ∧ P := by
  cases x with
  | none => simp
  | some a => simpa using h a

end Json

namespace Comparison

/-- The doubles that stand in a comparison. -/
def floats (c : Comparison) : List Float :=
  [c.baselineSeconds, c.currentSeconds, c.ratio, c.baselineScore, c.currentScore, c.scoreDelta]

theorem toJson?_isSome_iff {c : Comparison} : c.toJson?.isSome = true ↔
    (∀ x ∈ c.floats, Number.notFinite? x = none) ∧ c.baselineUpdated.rfc3339?.isSome = true := by
  unfold toJson?
  refine (Json.isSome_bind_iff fun _ => Json.isSome_bind_iff fun _ => Json.isSome_bind_iff fun _ =>
    Json.isSome_bind_iff fun _ => Json.isSome_bind_iff fun _ => Json.isSome_bind_iff fun _ =>
    Json.isSome_bind_iff (P := True) fun _ => by simp).trans ?_
  simp only [Json.ofFloat?_isSome_iff, Json.ofTimestamp?_isSome, floats, List.forall_mem_cons,
    List.not_mem_nil, false_implies, implies_true, and_true, and_assoc]

end Comparison

namespace Trend

theorem toJson?_isSome_iff {t : Trend} : t.toJson?.isSome = true ↔
    (∀ x ∈ t.floats, Number.notFinite? x = none) ∧ t.comparedWith.rfc3339?.isSome = true := by
  unfold toJson?
  refine (Json.isSome_bind_iff fun _ => Json.isSome_bind_iff fun _ => Json.isSome_bind_iff fun _ =>
    Json.isSome_bind_iff (P := True) fun _ => by simp).trans ?_
  simp only [Json.ofFloat?_isSome_iff, Json.ofTimestamp?_isSome, floats, List.forall_mem_cons,
    List.not_mem_nil, false_implies, implies_true, and_true, and_assoc]

end Trend

namespace Report

theorem toJson?_isSome_iff {r : Report} : r.toJson?.isSome = true ↔
    (∀ x ∈ r.floats, Number.notFinite? x = none) ∧ ∀ t ∈ r.times, t.rfc3339?.isSome = true := by
  rw [forall_mem_floats, forall_mem_times]
  have hrest : ∀ {f : Json → Json → Json → Json},
      ((do
        let timestamp ← Json.ofTimestamp? r.timestamp
        let score ← Json.ofFloat? r.score
        let seconds ← Json.ofFloat? r.seconds
        return f timestamp score seconds : Option Json).isSome = true ↔
      r.timestamp.rfc3339?.isSome = true ∧ Number.notFinite? r.score = none ∧
        Number.notFinite? r.seconds = none) := by
    intro f
    refine (Json.isSome_bind_iff fun _ => Json.isSome_bind_iff fun _ =>
      Json.isSome_bind_iff (P := True) fun _ => by simp).trans ?_
    simp only [Json.ofFloat?_isSome_iff, Json.ofTimestamp?_isSome, and_true]
  unfold toJson?
  cases r.trend? with
  | none =>
    refine hrest.trans ?_
    simp only [Option.mem_def, reduceCtorEq, false_implies, implies_true, and_true]
    tauto
  | some t =>
    refine (Json.isSome_bind_iff fun _ => hrest).trans ?_
    simp only [Trend.toJson?_isSome_iff, Option.mem_def, Option.some.injEq, forall_eq']
    tauto

end Report

/-- JSON can hold an outcome: the doubles in it are finite, and the times in it have a text. -/
structure Outcome.Writable (o : Outcome) : Prop where
  comparison : ∀ c ∈ o.comparison?,
    (∀ x ∈ c.floats, Number.notFinite? x = none) ∧ c.baselineUpdated.rfc3339?.isSome = true
  report : ∀ r ∈ o.report?,
    (∀ x ∈ r.floats, Number.notFinite? x = none) ∧ ∀ t ∈ r.times, t.rfc3339?.isSome = true

namespace Outcome

theorem fields?_isSome_iff {o : Outcome} : o.fields?.isSome = true ↔ ∀ c ∈ o.comparison?,
    (∀ x ∈ c.floats, Number.notFinite? x = none) ∧ c.baselineUpdated.rfc3339?.isSome = true := by
  unfold fields?
  cases o.comparison? with
  | none => simp
  | some c =>
    refine (Json.isSome_bind_iff (P := True) fun _ => by simp).trans ?_
    simp only [Comparison.toJson?_isSome_iff, and_true, Option.mem_def, Option.some.injEq, forall_eq']

theorem writable_iff {o : Outcome} : o.Writable ↔
    o.fields?.isSome = true ∧ ∀ r ∈ o.report?, r.toJson?.isSome = true := by
  simp only [fields?_isSome_iff, Report.toJson?_isSome_iff]
  exact ⟨fun h => ⟨h.comparison, h.report⟩, fun h => ⟨h.1, h.2⟩⟩

end Outcome

/-- The outcomes that have a text in JSON. -/
theorem Format.outcomeJson_isOk_iff {o : Outcome} :
    (∃ t, Format.outcomeJson o = .ok t) ↔ o.Writable := by
  rw [Outcome.writable_iff]
  unfold outcomeJson
  cases o.fields? with
  | none => simp
  | some fields =>
    cases o.report? with
    | none => simp
    | some r => cases hr : r.toJson? <;> simp [hr]

namespace Tool

open CommandLine (Options)

variable {α β : Type} {c : Config} {s : Session} {o : Options} {q q' : Progress} {outcome : Outcome}

/-! ## The gate -/

/-- The gate prints in one of two formats, and what it ends with is the outcome of a pipeline run. -/
theorem exists_run_of_runGate (h : (runGate c s o).after q = (.ok outcome, q')) :
    (o.text "format" = "text" ∨ o.text "format" = "json") ∧
    ∃ (p : Pipeline) (scan : Except Text Report) (d : Disk),
      outcome = (p.run s.now s.carry scan d).outcome := by
  unfold runGate at h
  dsimp only at h
  split at h
  · cases h
  · next hformat =>
    obtain ⟨log, q₁, -, h⟩ := Job.exists_of_after_bind h
    obtain ⟨g, q₂, -, h⟩ := Job.exists_of_after_bind h
    obtain ⟨_, q₃, -, h⟩ := Job.exists_of_after_bind h
    obtain ⟨sc, q₄, -, h⟩ := Job.exists_of_after_bind h
    obtain ⟨d, q₅, -, h⟩ := Job.exists_of_after_bind h
    obtain ⟨scanned, q₆, -, h⟩ := Job.exists_of_after_bind h
    obtain ⟨d', q₇, -, h⟩ := Job.exists_of_after_bind h
    obtain ⟨_, q₈, -, h⟩ := Job.exists_of_after_bind h
    obtain ⟨_, q₉, -, h⟩ := Job.exists_of_after_bind h
    obtain ⟨_, q₁₀, -, h⟩ := Job.exists_of_after_bind h
    cases h
    refine ⟨?_, _, _, _, rfl⟩
    simp only [Bool.and_eq_true, bne_iff_ne, not_and_or, not_not] at hformat
    exact hformat

/-- A run has one of three exit codes. -/
theorem exitCode_run_cases (p : Pipeline) (now : Timestamp) (carry : Transport)
    (scan : Except Text Report) (d : Disk) :
    let code := (p.run now carry scan d).outcome.exitCode
    code = Exit.pass ∨ code = Exit.policyFailure ∨ code = Exit.executionError := by
  intro code
  have hcode : code = (p.gates.verdict scan).exitCode :=
    congrArg Verdict.exitCode (p.verdict_run now carry scan d)
  rw [hcode]
  rcases Pipeline.verdict_cases p.gates scan with ⟨-, -, h⟩ | ⟨-, -, h⟩ | ⟨-, -, h⟩
  · exact .inr (.inr h)
  · exact .inl h
  · exact .inr (.inl h)

theorem exitCode_ofOutcome (h : outcome.exitCode = Exit.pass ∨ outcome.exitCode = Exit.policyFailure ∨
    outcome.exitCode = Exit.executionError) : exitCode (ofOutcome outcome) = outcome.exitCode := by
  rcases h with h | h | h <;> rw [ofOutcome, h] <;> rfl

/-! ## The end -/

/-- An outcome that has no text ends the command with an error. -/
theorem failure?_conclude_of_error {format : Text} {e : Format.Error}
    (h : renderOutcome s format outcome = .error e) :
    (conclude s format outcome).failure? q = some (.execution e.message) := by
  unfold conclude
  rw [h]
  rfl

/-- An outcome that was printed ends the command as it says. -/
theorem failure?_conclude_of_ok {format t : Text} (h : renderOutcome s format outcome = .ok t) :
    (conclude s format outcome).failure? q = ofOutcome outcome := by
  unfold conclude
  rw [h]
  cases hf : ofOutcome outcome with
  | none => rfl
  | some f => rfl

theorem renderOutcome_isOk_iff {format : Text} (h : format = "text" ∨ format = "json") :
    (∃ t, renderOutcome s format outcome = .ok t) ↔ format = "text" ∨ outcome.Writable := by
  have hne : Text.ofString "text" ≠ "json" := by decide
  unfold renderOutcome
  rcases h with rfl | rfl
  · simp [hne]
  · simp [hne.symm, Format.outcomeJson_isOk_iff]

theorem failure?_runValidate (h : (runGate c s o).after q = (.ok outcome, q')) :
    (runValidate c s o).failure? q = (conclude s (o.text "format") outcome).failure? q' := by
  rw [Job.failure?, runValidate, Job.after_bind_of_ok _ h]
  rfl

/-- The exit code is the one of the outcome, or that of an error because the outcome has no text. -/
theorem exitCode_cases (h : (runGate c s o).after q = (.ok outcome, q')) :
    let code := exitCode ((runValidate c s o).failure? q)
    code = outcome.exitCode ∧ (o.text "format" = "text" ∨ outcome.Writable) ∨
      code = Exit.executionError ∧ ¬ (o.text "format" = "text" ∨ outcome.Writable) := by
  intro code
  obtain ⟨hformat, p, scan, d, hrun⟩ := exists_run_of_runGate h
  have hcases := exitCode_run_cases p s.now s.carry scan d
  rw [← hrun] at hcases
  have hcode : code = exitCode ((conclude s (o.text "format") outcome).failure? q') := by
    rw [← failure?_runValidate h]
  rw [← renderOutcome_isOk_iff (s := s) hformat]
  cases hr : renderOutcome s (o.text "format") outcome with
  | ok t =>
    rw [failure?_conclude_of_ok hr, exitCode_ofOutcome hcases] at hcode
    exact .inl ⟨hcode, t, rfl⟩
  | error e =>
    rw [failure?_conclude_of_error hr] at hcode
    exact .inr ⟨hcode, by simp⟩

/-- When the gate has come to an outcome, which is that of a pipeline run, the exit code of the command is
the one of the outcome, or 2. It is the one of the outcome exactly when the outcome is printed as text, or
is an error anyway, or has only finite doubles and only times that JSON can hold. -/
theorem exitCode_of_outcome_iff (h : (runGate c s o).after q = (.ok outcome, q')) :
    let code := exitCode ((runValidate c s o).failure? q)
    (∃ (p : Pipeline) (scan : Except Text Report) (d : Disk),
      outcome = (p.run s.now s.carry scan d).outcome) ∧
    (code = outcome.exitCode ∨ code = Exit.executionError) ∧
    (code = outcome.exitCode ↔
      o.text "format" = "text" ∨ outcome.exitCode = Exit.executionError ∨ outcome.Writable) := by
  intro code
  refine ⟨(exists_run_of_runGate h).2, ?_⟩
  rcases exitCode_cases h with ⟨hcode, htext | hwritable⟩ | ⟨hcode, hnot⟩
  · exact ⟨.inl hcode, iff_of_true hcode (.inl htext)⟩
  · exact ⟨.inl hcode, iff_of_true hcode (.inr (.inr hwritable))⟩
  · refine ⟨.inr hcode, fun hsame => .inr (.inl (hsame.symm.trans hcode)), ?_⟩
    rintro (htext | herror | hwritable)
    · exact absurd (.inl htext) hnot
    · exact hcode.trans herror.symm
    · exact absurd (.inr hwritable) hnot

/-! ### A baseline of almost no time -/

/-- The comparison of a run whose baseline can be read. -/
theorem comparison?_run {p : Pipeline} {path : Text} {b : Baseline} {r : Report} {d : Disk}
    (now : Timestamp) (carry : Transport) (hpath : p.baseline? = some path)
    (hload : BaselineFile.load d path = .ok (some b)) :
    ∃ c, (p.run now carry (.ok r) d).outcome.comparison? = some c ∧
      c.ratio = if b.seconds > 0 then r.seconds / b.seconds else 0 := by
  obtain ⟨trend?, recommendations, hreport⟩ := p.exists_addenda d r
  refine ⟨Pipeline.compare b { r with trend?, recommendations }, ?_, rfl⟩
  -- What comes after the comparison leaves it alone.
  show (p.updateBaseline now _ (p.compareWithBaseline d _ (Pipeline.judge p.gates _)) d).1.comparison? = _
  have hkeeps : ∀ r o, (p.updateBaseline now r o d).1.comparison? = o.comparison? := by
    intro r o
    unfold Pipeline.updateBaseline
    split
    · rfl
    · split <;> rfl
  rw [hkeeps, hreport]
  simp only [Pipeline.compareWithBaseline, hpath, Option.map_some, hload]

/-- The file of a baseline that took the shortest time there is. -/
def shortBaseline : Text := "\x7b\"scan_duration_seconds\":5e-324\x7d"

/-- An empty project, the baseline, and the log so far. -/
def shortDisk (log : Text) : Disk :=
  { root := .dir [("bl.json", .file shortBaseline), ("codespectre.log", .file log), ("p", .dir [])] }

def shortConfig : Config := { logFile := "codespectre.log" }

/-- A scan that takes a second. -/
def oneSecond : Session := { now := { seconds := 1767323045 }, seconds := 1 }

def shortOptions (format : Text) : Options :=
  { flags := validate.flags
    given := [("format", .text format), ("performance-baseline", .text "bl.json"),
      ("project-path", .text "p")] }

def shortSink : Log.Sink := { file := "codespectre.log" }

theorem append_shortDisk (log : Text) (e : Log.LogEntry) :
    ∃ log', shortSink.append (shortDisk log) [e] = shortDisk log' := by
  have hwrite : ∀ t, (shortDisk log).writeFile "codespectre.log" t = .ok (shortDisk t) := by
    intro t
    cbv
  unfold Log.Sink.append
  dsimp only
  split
  · exact ⟨log, rfl⟩
  · rw [show shortSink.file = Text.ofString "codespectre.log" from rfl, hwrite]
    exact ⟨_, rfl⟩

theorem after_openLog (log : Text) : (openLog shortConfig shortConfig.logFile).after
    { disk := shortDisk log } = (.ok shortSink, { disk := shortDisk log }) := by
  have hprepare : shortSink.prepare (shortDisk log) = ⟨none, shortDisk log⟩ := by cbv
  unfold openLog
  refine (Job.after_bind_of_ok _ (Job.after_disk _)).trans ?_
  have hready : (shortSink.prepare (shortDisk log)).fault? = none := by rw [hprepare]
  refine (Job.after_bind_of_ok _ (Job.after_attempt _ hready)).trans ?_
  rw [hprepare]
  rfl

theorem after_resolveGates (format log : Text) :
    (resolveGates shortConfig (shortOptions format)).after { disk := shortDisk log } =
      (.ok {}, { disk := shortDisk log }) := by
  have hfind : Policy.find (shortDisk log) [] = none := by cbv
  have hpolicy : (findPolicy ((shortOptions format).text "policy")).after { disk := shortDisk log } =
      (.ok none, { disk := shortDisk log }) := by
    unfold findPolicy
    refine (Job.after_bind_of_ok _ (Job.after_disk _)).trans ?_
    have hnone : (shortOptions format).text "policy" = [] := by rfl
    simp only [hnone, hfind]
    rfl
  unfold resolveGates
  refine (Job.after_bind_of_ok _ hpolicy).trans ?_
  have hgates : (shortOptions format).isGiven "score-threshold" = false ∧
      (shortOptions format).isOn "fail-on-critical" = false ∧
      (shortOptions format).isOn "fail-on-high" = false ∧
      (shortOptions format).isOn "fail-on-medium" = false := ⟨rfl, rfl, rfl, rfl⟩
  have hthreshold : decide (shortConfig.threshold > 0) = false := by decide
  have hcheck : ({} : Gates).check = none := by decide
  simp only [hgates, hthreshold, Bool.and_false, Bool.false_eq_true, if_false, Gates.override,
    Bool.or_false, Option.getD_none, hcheck]
  rfl

/-- The scanner does not depend on the log. -/
theorem exists_scanner : ∃ sc, ∀ log, (makeScanner shortConfig).after { disk := shortDisk log } =
    (.ok sc, { disk := shortDisk log }) := by
  have hmade : ((makeScanner shortConfig).after { disk := shortDisk [] }).1.toOption.isSome = true := by
    decide
  rcases hsc : (makeScanner shortConfig).after { disk := shortDisk [] } with ⟨f | sc, q⟩
  · rw [hsc] at hmade
    cases hmade
  · unfold makeScanner at hsc
    obtain ⟨d, q₁, hd, hsc⟩ := Job.exists_of_after_bind hsc
    cases hd
    obtain ⟨l, q₂, hl, hsc⟩ := Job.exists_of_after_bind hsc
    obtain ⟨w, q₃, hw, hsc⟩ := Job.exists_of_after_bind hsc
    have hlibrary : shortConfig.library (shortDisk []) = .ok l := Job.eq_ok_of_after_require hl
    refine ⟨sc, fun log => ?_⟩
    unfold makeScanner
    refine (Job.after_bind_of_ok _ (Job.after_disk _)).trans ?_
    refine (Job.after_bind_of_ok _ (Job.after_require _ hlibrary)).trans ?_
    refine (Job.after_bind_of_ok _ (Job.after_require _ (Job.eq_ok_of_after_require hw))).trans ?_
    exact Job.after_require _ (Job.eq_ok_of_after_require hsc)

/-- The report on an empty project trips no gate. -/
theorem exists_report (sc : Scanner) (log : Text) : ∃ r log',
    (scanTree oneSecond sc shortSink "p" []).after { disk := shortDisk log } =
      (.ok (.ok r), { disk := shortDisk log' }) ∧
    r.interrupted = false ∧ r.seconds = 1 ∧ ¬ ({} : Gates).Trips r := by
  have hstat : (shortDisk log).stat "p" = .ok (.dir []) := by cbv
  have hlstat : (shortDisk log).lstat "p" = .ok (.dir []) := by cbv
  have hfound : sc.discovery (shortDisk log) none "p" = .ok {} := by
    rw [Scanner.discovery_eq_ofVisits sc none hstat hlstat, Scanner.visits, Scanner.visitsIn]
    rfl
  have hscan : sc.scan (shortDisk log) ⟨oneSecond.now, oneSecond.seconds, oneSecond.cancelled⟩ "p" [] =
      .ok (sc.report ⟨oneSecond.now, 1, false⟩ "p" {} []) :=
    Scanner.scan_eq_sequential (Scanner.excluding_nil sc) hfound rfl
  have hwhole : (sc.report ⟨oneSecond.now, 1, false⟩ "p" {} []).interrupted = false := rfl
  obtain ⟨log₁, hstarted⟩ := append_shortDisk log ⟨.info, "scan started", [("root", "p")]⟩
  obtain ⟨log₂, hfinished⟩ := append_shortDisk log₁ ⟨.info, "scan finished", []⟩
  refine ⟨sc.report ⟨oneSecond.now, 1, false⟩ "p" {} [], log₂, ?_, hwhole, rfl, ?_⟩
  · unfold scanTree
    refine (Job.after_bind_of_ok _ (Job.after_disk _)).trans ?_
    dsimp only
    rw [hscan]
    refine (Job.after_bind_of_ok _ (Job.after_note ..)).trans ?_
    rw [hstarted]
    simp only [hwhole, Bool.false_eq_true, if_false]
    refine (Job.after_bind_of_ok _ (Job.after_note ..)).trans ?_
    rw [hfinished]
    rfl
  · have hscore := (Scanner.report_no_results sc ⟨oneSecond.now, 1, false⟩ "p" {}).2.2
    have hpositive : ¬ (100 : Float) < 0 := by decide
    rintro (⟨h, -⟩ | ⟨h, -⟩ | ⟨h, -⟩ | h | ⟨limit, h, -⟩ | ⟨kind, h, -⟩)
    · cases h
    · cases h
    · cases h
    · exact hpositive (hscore ▸ h)
    · cases h
    · cases h

theorem load_shortBaseline (log : Text) : ∃ b,
    BaselineFile.load (shortDisk log) "bl.json" = .ok (some b) ∧ b.seconds = 5e-324 := by
  have hcontent : (shortDisk log).contentOf "bl.json" = .ok shortBaseline := by cbv
  have hread : ((BaselineFile.read "bl.json" shortBaseline).toOption.map (·.seconds)) = some 5e-324 := by
    decide +kernel
  cases hb : BaselineFile.read "bl.json" shortBaseline with
  | error e =>
    rw [hb] at hread
    cases hread
  | ok b =>
    refine ⟨b, ?_, ?_⟩
    · simp [BaselineFile.load, hcontent, hb, Except.map]
    · rw [hb] at hread
      exact Option.some.inj hread

/-- The gate passes, and the comparison holds a ratio that is not finite. -/
theorem runGate_short {format : Text} (h : format = "text" ∨ format = "json") : ∃ outcome q',
    (runGate shortConfig oneSecond (shortOptions format)).after { disk := shortDisk [] } =
      (.ok outcome, q') ∧
    outcome.exitCode = Exit.pass ∧ ¬ outcome.Writable := by
  have hformat : (shortOptions format).text "format" = format := rfl
  have hknown : (format != Text.ofString "text" && format != Text.ofString "json") = false := by
    rcases h with rfl | rfl <;> decide
  obtain ⟨sc, hsc⟩ := exists_scanner
  obtain ⟨log₁, hlog₁⟩ := append_shortDisk [] ⟨.info, "gates resolved", []⟩
  obtain ⟨r, log₂, hscan, hinterrupted, hseconds, htrips⟩ := exists_report sc log₁
  obtain ⟨b, hload, hb⟩ := load_shortBaseline log₂
  generalize hp : pipelineOf shortConfig oneSecond (shortOptions format) (shortDisk log₁) {} sc.library = p
  have hpath : p.baseline? = some (Text.ofString "bl.json") := by
    rw [← hp]
    rfl
  have hgates : p.gates = {} := by
    rw [← hp]
    rfl
  generalize hresult : p.run oneSecond.now oneSecond.carry (.ok r) (shortDisk log₂) = result
  have hrun : ∃ q', (runGate shortConfig oneSecond (shortOptions format)).after
      { disk := shortDisk [] } = (.ok result.outcome, q') := by
    refine ⟨⟨shortSink.append result.disk [⟨.info, "gates evaluated", []⟩], [], [] ++ result.requests⟩, ?_⟩
    unfold runGate
    dsimp only
    rw [hformat, if_neg (by simp [hknown])]
    refine (Job.after_bind_of_ok _ (after_openLog [])).trans ?_
    refine (Job.after_bind_of_ok _ (after_resolveGates format [])).trans ?_
    refine (Job.after_bind_of_ok _ (Job.after_note ..)).trans ?_
    rw [hlog₁]
    refine (Job.after_bind_of_ok _ (hsc log₁)).trans ?_
    refine (Job.after_bind_of_ok _ (Job.after_disk _)).trans ?_
    refine (Job.after_bind_of_ok _ hscan).trans ?_
    refine (Job.after_bind_of_ok _ (Job.after_disk _)).trans ?_
    rw [hp, ← hresult]
    rfl
  obtain ⟨q', hrun⟩ := hrun
  refine ⟨result.outcome, q', hrun, ?_, ?_⟩
  · have hverdict := p.verdict_run oneSecond.now oneSecond.carry (.ok r) (shortDisk log₂)
    rw [hresult] at hverdict
    refine (congrArg Verdict.exitCode hverdict).trans ((Pipeline.exitCode_verdict_eq_zero_iff ..).2 ⟨r, rfl, hinterrupted, ?_⟩)
    rwa [hgates]
  · obtain ⟨c, hc, hratio⟩ := comparison?_run (r := r) oneSecond.now oneSecond.carry hpath hload
    have hinfinite : Number.notFinite? (if (5e-324 : Float) > 0 then (1 : Float) / 5e-324 else 0) ≠ none := by
      decide +kernel
    rw [hresult] at hc
    rw [hb, hseconds] at hratio
    intro hwritable
    exact hinfinite (hratio ▸ (hwritable.comparison c hc).1 c.ratio (by simp [Comparison.floats]))

/-- The configuration is accepted, no gate trips, and the exit code is that of an error. -/
theorem passing_run_ends_in_error : shortConfig.fault?.isNone = true ∧ ∃ outcome q',
    (runGate shortConfig oneSecond (shortOptions "json")).after { disk := shortDisk [] } =
      (.ok outcome, q') ∧
    outcome.exitCode = 0 ∧
    exitCode ((runValidate shortConfig oneSecond (shortOptions "json")).failure?
      { disk := shortDisk [] }) = 2 := by
  obtain ⟨outcome, q', hrun, hpass, hnot⟩ := runGate_short (.inr rfl)
  refine ⟨by decide, outcome, q', hrun, hpass, ?_⟩
  have hformat : (shortOptions "json").text "format" ≠ "text" := by decide
  rcases exitCode_cases hrun with ⟨-, htext | hwritable⟩ | ⟨hcode, -⟩
  · exact absurd htext hformat
  · exact absurd hwritable hnot
  · exact hcode

theorem passing_run_printed_as_text : ∃ outcome q',
    (runGate shortConfig oneSecond (shortOptions "text")).after { disk := shortDisk [] } =
      (.ok outcome, q') ∧
    exitCode ((runValidate shortConfig oneSecond (shortOptions "text")).failure?
      { disk := shortDisk [] }) = 0 := by
  obtain ⟨outcome, q', hrun, hpass, -⟩ := runGate_short (.inl rfl)
  obtain ⟨-, -, hiff⟩ := exitCode_of_outcome_iff hrun
  exact ⟨outcome, q', hrun, (hiff.2 (.inl rfl)).trans hpass⟩

end Tool

end LiteralAudit
