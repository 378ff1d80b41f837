import LiteralAudit.Proofs.Disk.Replace
import LiteralAudit.Proofs.Tool.Steps

/-!
# What a command leaves in its output file

`scan`, `export` and `diff` first find out what they have to write (`gather`), then create their output
file, and only then make the text (`Product.write`): the three commands are these two parts (`job_eq`). The
file is empty from its creation on until there is a text, so a report that has no text leaves it empty, and a
comparison that ends with a policy failure is written all the same (`after_write`). A failed command keeps
its output file exactly when it fails before it creates the file, or was to write what was there
(`output_of_failed_command_kept_iff`).
-/

namespace LiteralAudit.Tool

open CommandLine (Options)

/-! ## What is to be written -/

/-- What a command has to write, or why it cannot be rendered, how the command ends once it is written, and
what it prints then. -/
structure Product where
  rendered : Except Failure Text
  ending? : Option Failure := none
  notice : Text := []

/-- The format of a report in an output file. -/
def formatAsked (o : Options) : Text :=
  if (o.text "format").isEmpty then formatOf (o.text "output") else o.text "format"

def Product.ofReport (s : Session) (o : Options) (r : Report) : Product where
  rendered := (renderReport s (formatAsked o) false r).mapError fun e => .execution e.message
  notice := "Report written to " ++ o.text "output" ++ "\n"

/-- The changes in a format. -/
def changesText (format : Text) (changes : Changes) : Except Failure Text :=
  if format == "json" then
    match changes.toJson? with
    | some j => .ok (j.pretty ++ "\n")
    | none => .error (.execution "<cause>")
  else if format == "text" then .ok changes.text
  else .error (unsupported format)

def Product.ofChanges (o : Options) (before after : Report) : Product :=
  let changes := Changes.ofReports before after
  let added := changes.diff.added.length
  { rendered := changesText (o.text "format") changes
    ending? := if o.isOn "fail-new" && added > 0 then some (.policy (Text.ofNat added ++ " new issue(s)"))
      else none }

/-- A scan up to its report, which may be stored. -/
def scanned (c : Config) (s : Session) (o : Options) (root : Text) : Job Report := do
  let log ← openLog c c.logFile
  let sc ← makeScanner c
  let r ← Job.require Scanner.Error.message (← scanTree s sc log root (o.list "exclude"))
  if r.interrupted then throw (.execution (interruptedAfter r.files))
  let r := advised sc.library r
  if o.isOn "save" then store c s log r else pure r

/-- What `scan`, `export` and `diff` do before they create their output file. -/
def gather (s : Session) (name : Text) (o : Options) (operands : List Text) : Job Product := do
  let c ← loadConfig s o
  if name == "scan" then return .ofReport s o (← scanned c s o (operands.head?.getD []))
  else if name == "export" then return .ofReport s o (← loadReport c s (operands.head?.getD []))
  else
    let (before, after) ← reportsToCompare c s operands
    return .ofChanges o before after

/-- The text, or the failure to render it. -/
def Product.text (x : Product) : Job Text :=
  match x.rendered with
  | .ok t => return t
  | .error f => throw f

/-- What they do from then on. -/
def Product.write (path : Text) (x : Product) : Job Unit := do
  createFile path
  fillFile path (← x.text)
  Job.print x.notice
  if let some f := x.ending? then throw f

/-! ## The commands in these two parts -/

variable {c : Config} {s : Session} {o : Options} {operands : List Text}

theorem runScan_eq (root : Text) : runScan c s o root =
    scanned c s o root >>= writeReport s (o.text "output") (o.text "format") := by
  unfold runScan scanned
  simp only [bind_assoc]
  refine bind_congr fun log => bind_congr fun sc => bind_congr fun result => bind_congr fun r => ?_
  by_cases hinterrupted : r.interrupted = true
  · simp only [hinterrupted, if_true, bind_assoc]
    rfl
  · by_cases hsave : o.isOn "save" = true
    · simp only [hinterrupted, hsave, if_true, Bool.false_eq_true, if_false]
    · simp only [hinterrupted, hsave, Bool.false_eq_true, if_false]

theorem writeReport_eq (hout : o.text "output" ≠ []) (r : Report) :
    writeReport s (o.text "output") (o.text "format") r =
      (Product.ofReport s o r).write (o.text "output") := by
  have hnonempty : (o.text "output").isEmpty = false := by simpa using hout
  unfold writeReport Product.write
  simp only [hnonempty, Bool.false_eq_true, if_false]
  refine bind_congr fun _ => ?_
  unfold Product.ofReport Product.text formatAsked
  cases renderReport s (if (o.text "format").isEmpty then formatOf (o.text "output") else o.text "format")
    false r with
  | error e => rfl
  | ok t => rfl

theorem print_nil : Job.print [] = pure () := by
  have hsame : (fun p : Progress => { p with output := p.output ++ [] }) = id := by
    funext p
    simp
  unfold Job.print
  rw [hsame]
  rfl

theorem renderChanges_eq (format : Text) (changes : Changes) : renderChanges format changes =
    match changesText format changes with
    | .ok t => return t
    | .error f => throw f := by
  unfold renderChanges changesText
  split
  · cases changes.toJson? <;> rfl
  · split <;> rfl

theorem runDiff_eq (hout : o.text "output" ≠ []) : runDiff c s o operands =
    reportsToCompare c s operands >>= fun (before, after) =>
      (Product.ofChanges o before after).write (o.text "output") := by
  have hnonempty : (o.text "output").isEmpty = false := by simpa using hout
  unfold runDiff Product.write
  simp only [hnonempty, Bool.false_eq_true, if_false]
  refine bind_congr fun (before, after) => bind_congr fun _ => ?_
  have hnotice : (Product.ofChanges o before after).notice = [] := rfl
  have htext : (Product.ofChanges o before after).text =
      renderChanges (o.text "format") (Changes.ofReports before after) := by
    rw [renderChanges_eq]
    rfl
  rw [htext, hnotice, print_nil]
  refine bind_congr fun t => bind_congr fun _ => ?_
  rw [pure_bind]
  unfold Product.ofChanges
  split <;> simp_all

/-- The commands that write a report or a comparison. -/
def writers : List Text := [Text.ofString "scan", Text.ofString "export", Text.ofString "diff"]

/-- The commands that write are their two parts, one after the other. -/
theorem job_eq {name : Text} (hname : name ∈ writers) (hout : o.text "output" ≠ []) :
    (loadConfig s o >>= fun c => job s c name o operands) =
      gather s name o operands >>= Product.write (o.text "output") := by
  unfold gather
  rw [bind_assoc]
  refine bind_congr fun c => ?_
  simp only [writers, List.mem_cons, List.not_mem_nil, or_false] at hname
  obtain rfl | rfl | rfl := hname
  · show runScan c s o (operands.head?.getD []) =
      (scanned c s o (operands.head?.getD []) >>= fun r => pure (.ofReport s o r)) >>=
        Product.write (o.text "output")
    rw [runScan_eq, bind_assoc]
    exact bind_congr fun r => (writeReport_eq hout r).trans (pure_bind _ _).symm
  · show runExport c s o (operands.head?.getD []) =
      (loadReport c s (operands.head?.getD []) >>= fun r => pure (.ofReport s o r)) >>=
        Product.write (o.text "output")
    rw [runExport, bind_assoc]
    exact bind_congr fun r => (writeReport_eq hout r).trans (pure_bind _ _).symm
  · show runDiff c s o operands =
      (reportsToCompare c s operands >>= fun (before, after) => pure (.ofChanges o before after)) >>=
        Product.write (o.text "output")
    rw [runDiff_eq hout, bind_assoc]
    exact bind_congr fun reports => (pure_bind _ _).symm

/-! ## Until the file is created -/

theorem onlyLooks_loadReport (path : Text) : (loadReport c s path).OnlyLooks := by
  refine Job.onlyLooks_disk.bind fun d => ?_
  split <;> exact Job.onlyLooks_require _ _

theorem onlyLooks_reportsToCompare : (reportsToCompare c s operands).OnlyLooks := by
  unfold reportsToCompare
  cases operands with
  | cons before rest =>
    refine (onlyLooks_loadReport before).bind fun _ => ?_
    exact (onlyLooks_loadReport _).bind fun _ => Job.onlyLooks_pure _
  | nil =>
    refine Job.onlyLooks_disk.bind fun d => (Job.onlyLooks_require _ _).bind fun runs => ?_
    split
    · exact Job.onlyLooks_pure _
    · exact Job.onlyLooks_throw _

theorem onlyLooks_loadConfig : (loadConfig s o).OnlyLooks :=
  Job.onlyLooks_disk.bind fun _ => (Job.onlyLooks_require _ _).bind fun _ => Job.onlyLooks_pure _

/-- The log file of a configuration that was loaded. -/
theorem exists_load_of_loadConfig {q q' : Progress} (h : (loadConfig s o).after q = (.ok c, q')) :
    ∃ c₀, Config.load q.disk s.environment (o.text "config") = .ok c₀ ∧ c.logFile = c₀.logFile := by
  obtain ⟨d, q₁, hd, h⟩ := Job.exists_of_after_bind h
  cases hd
  obtain ⟨c₀, q₂, hload, h⟩ := Job.exists_of_after_bind h
  cases h
  exact ⟨c₀, Job.eq_ok_of_after_require hload, rfl⟩

theorem onlyLooks_makeScanner : (makeScanner c).OnlyLooks :=
  Job.onlyLooks_disk.bind fun _ => (Job.onlyLooks_require _ _).bind fun _ =>
    (Job.onlyLooks_require _ _).bind fun _ => Job.onlyLooks_require _ _

/-- Opening a log without a file. -/
theorem onlyLooks_openLog : (openLog c []).OnlyLooks := by
  intro q
  have hprepare : (({ verbose := c.verbose, debug := c.debug } : Log.Sink).prepare q.disk).fault? = none :=
    rfl
  have hnote : ∀ e, (Job.note { verbose := c.verbose, debug := c.debug } e).OnlyLooks :=
    Job.onlyLooks_note rfl
  unfold openLog
  rw [Job.after_bind_of_ok _ (Job.after_disk q), Job.after_bind_of_ok _ (Job.after_attempt q hprepare)]
  split
  · exact (hnote _).bind (fun _ => Job.onlyLooks_pure _) q
  · split
    · exact (hnote _).bind (fun _ => Job.onlyLooks_pure _) q
    · rfl

theorem onlyLooks_scanTree (sc : Scanner) {log : Log.Sink} (hlog : log.file = []) (root : Text)
    (more : List Text) : (scanTree s sc log root more).OnlyLooks := by
  have hnote := Job.onlyLooks_note hlog
  refine Job.onlyLooks_disk.bind fun d => ?_
  dsimp only
  split
  · next r hr =>
    refine (hnote _).bind fun _ => ?_
    split
    · exact (hnote _).bind fun _ => (hnote _).bind fun _ => Job.onlyLooks_pure _
    · exact (hnote _).bind fun _ => Job.onlyLooks_pure _
  · exact Job.onlyLooks_pure _

/-- The log that is opened without a file has none. -/
theorem file_of_openLog {log : Log.Sink} {file : Text} {q q' : Progress}
    (h : (openLog c file).after q = (.ok log, q')) : log.file = file := by
  unfold openLog at h
  obtain ⟨d, q₁, hd, h⟩ := Job.exists_of_after_bind h
  obtain ⟨_, q₂, -, h⟩ := Job.exists_of_after_bind h
  split at h
  · obtain ⟨_, q₄, -, h⟩ := Job.exists_of_after_bind h
    cases h
    rfl
  · split at h
    · obtain ⟨_, q₄, -, h⟩ := Job.exists_of_after_bind h
      cases h
      rfl
    · cases h
      rfl

/-- A scan that keeps no log file and does not store its report. -/
theorem onlyLooks_scanned (hlog : c.logFile = []) (hsave : o.isOn "save" = false) (root : Text) :
    (scanned c s o root).OnlyLooks := by
  unfold scanned
  rw [hlog]
  refine onlyLooks_openLog.bind_of_ok fun _ _ log hopened => ?_
  have hfile : log.file = [] := file_of_openLog hopened
  refine onlyLooks_makeScanner.bind fun sc => ?_
  refine (onlyLooks_scanTree sc hfile root _).bind fun result => ?_
  refine (Job.onlyLooks_require _ _).bind fun r => ?_
  simp only [hsave, Bool.false_eq_true, if_false]
  split
  · exact (Job.onlyLooks_throw _).bind fun _ => Job.onlyLooks_pure _
  · exact Job.onlyLooks_pure _

/-- A scan changes the disk on its way when it keeps a log file or stores its report. -/
def LooksFirst (s : Session) (d : Disk) (name : Text) (o : Options) : Prop :=
  name = "scan" → o.isOn "save" = false ∧
    ∀ c, Config.load d s.environment (o.text "config") = .ok c → c.logFile = []

theorem after_gather_snd {name : Text} {q : Progress} (h : LooksFirst s q.disk name o) :
    ((gather s name o operands).after q).2 = q := by
  have hload := onlyLooks_loadConfig (s := s) (o := o) q
  unfold gather
  rw [Job.after_bind]
  rcases hc : (loadConfig s o).after q with ⟨f | c, q₁⟩
  · rwa [hc] at hload
  · rw [hc] at hload
    obtain rfl : q₁ = q := hload
    by_cases hscan : name = "scan"
    · obtain ⟨hsave, hlog⟩ := h hscan
      obtain ⟨c₀, hc₀, hsame⟩ := exists_load_of_loadConfig hc
      have hlooks := onlyLooks_scanned (s := s) (hsame.trans (hlog c₀ hc₀)) hsave (operands.head?.getD [])
      simp only [hscan, beq_self_eq_true, if_true]
      exact hlooks.bind (fun _ => Job.onlyLooks_pure _) q₁
    · have hne : (name == Text.ofString "scan") = false := by simpa using hscan
      simp only [hne, Bool.false_eq_true, if_false]
      split
      · exact (onlyLooks_loadReport _).bind (fun _ => Job.onlyLooks_pure _) q₁
      · exact onlyLooks_reportsToCompare.bind (fun _ => Job.onlyLooks_pure _) q₁

/-! ## From then on -/

/-- What is in the output file at the end. -/
def Product.left (x : Product) : Text := x.rendered.toOption.getD []

theorem after_createFile_of_error {q : Progress} {path : Text} {e : DiskError}
    (h : q.disk.writeFile path [] = .error e) : (createFile path).after q =
      (.error (.execution ("failed to create output file: " ++ e.message)), q) := by
  unfold createFile
  rw [Job.after_bind_of_ok _ (Job.after_disk q), h]
  rfl

theorem after_createFile {q : Progress} {path : Text} {created : Disk}
    (h : q.disk.writeFile path [] = .ok created) :
    (createFile path).after q = (.ok (), { q with disk := created }) := by
  unfold createFile
  rw [Job.after_bind_of_ok _ (Job.after_disk q), Job.after_bind_of_ok _ (Job.after_require q h)]
  rfl

theorem after_fillFile {q : Progress} {path content : Text} {written : Disk}
    (h : q.disk.writeFile path content = .ok written) :
    (fillFile path content).after q = (.ok (), { q with disk := written }) := by
  unfold fillFile
  rw [Job.after_bind_of_ok _ (Job.after_disk q), Job.after_bind_of_ok _ (Job.after_require q h)]
  rfl

theorem after_write_of_error {q : Progress} {path : Text} {e : DiskError} (x : Product)
    (h : q.disk.writeFile path [] = .error e) : (x.write path).after q =
      (.error (.execution ("failed to create output file: " ++ e.message)), q) := by
  unfold Product.write
  rw [Job.after_bind, after_createFile_of_error h]

/-- Once the file is created, it holds the text at the end, or nothing when there is none. Then the job
fails exactly when there is no text, or when the command is to end so. -/
theorem after_write {q : Progress} {path : Text} {created : Disk} (x : Product)
    (h : q.disk.writeFile path [] = .ok created) :
    ((x.write path).after q).2.disk.contentOf path = .ok x.left ∧
      ((x.write path).failure? q = none ↔ (∃ t, x.rendered = .ok t) ∧ x.ending? = none) := by
  unfold Job.failure? Product.write
  rw [Job.after_bind_of_ok _ (after_createFile h)]
  unfold Product.text Product.left
  cases hrendered : x.rendered with
  | error f =>
    refine ⟨Disk.contentOf_of_writeFile h, ?_⟩
    simp only [reduceCtorEq, exists_false, false_and, iff_false]
    exact nofun
  | ok t =>
    obtain ⟨written, hwritten⟩ := Disk.exists_writeFile h t
    have hfilled := after_fillFile (q := { q with disk := created }) hwritten
    dsimp only
    rw [pure_bind, Job.after_bind_of_ok _ hfilled]
    cases hending : x.ending? with
    | none => exact ⟨Disk.contentOf_of_writeFile hwritten, by simp; rfl⟩
    | some f =>
      refine ⟨Disk.contentOf_of_writeFile hwritten, ?_⟩
      simp only [reduceCtorEq, and_false, iff_false]
      exact nofun

/-! ## The formats that there are -/

/-- The names of formats in which every report has a text. -/
def plainFormats : List Text := List.map Text.ofString ["text", "sarif", "html", "csv", "junit", "xml"]

theorem renderReport_isOk_iff {format : Text} {coloured : Bool} {r : Report} :
    (∃ t, renderReport s format coloured r = .ok t) ↔
      format.toLower ∈ plainFormats ∨ format.toLower = "json" ∧ r.toJson?.isSome = true := by
  generalize hname : format.toLower = name
  by_cases hplain : name ∈ plainFormats
  · refine iff_of_true ?_ (.inl hplain)
    unfold renderReport Format.write
    rw [hname]
    simp only [plainFormats, List.map_cons, List.map_nil, List.mem_cons, List.not_mem_nil, or_false] at hplain
    obtain rfl | rfl | rfl | rfl | rfl | rfl := hplain <;> exact ⟨_, rfl⟩
  · have hwrite : renderReport s format coloured r =
        if name == "json" then Format.json true r else .error (.unsupported format) := by
      unfold renderReport Format.write
      rw [hname]
      simp only [plainFormats, List.map_cons, List.map_nil, List.mem_cons, List.not_mem_nil, or_false,
        not_or] at hplain
      simp [hplain]
    rw [hwrite]
    by_cases hjson : name = "json"
    · have hnot : Text.ofString "json" ∉ plainFormats := by decide
      subst hjson
      cases hr : r.toJson? <;> simp [Format.json, hnot, hr]
    · simp [hjson, hplain]

theorem changesText_isOk_iff {format : Text} {changes : Changes} :
    (∃ t, changesText format changes = .ok t) ↔
    format = "text" ∨ format = "json" ∧ changes.toJson?.isSome = true := by
  have hne : Text.ofString "json" ≠ "text" := by decide
  unfold changesText
  by_cases hjson : format = "json"
  · cases changes.toJson? <;> simp [hjson, hne]
  · by_cases htext : format = "text" <;> simp [hjson, htext, hne.symm]

/-! ## The whole command -/

theorem run_eq_of_read {d : Disk} {args : List Text} {named : CommandLine.Program.Named}
    (hread : program.read args = .ok (.run named o operands)) (hname : named.command.name ∈ writers)
    (hout : o.text "output" ≠ []) :
    run s d args = complete d
      ((gather s named.command.name o operands >>= Product.write (o.text "output")) *> pure none) := by
  have hwatch : (named.command.name == Text.ofString "watch") = false := by
    have hnot : ∀ name ∈ writers, (name == Text.ofString "watch") = false := by decide
    exact hnot _ hname
  rw [← job_eq hname hout]
  unfold run perform
  rw [hread]
  simp only [hwatch, Bool.false_eq_true, if_false, seqRight_eq_bind, bind_assoc]

theorem complete_eq (d : Disk) (j : Job (Option Watching)) :
    (complete d j).disk = (j.after { disk := d }).2.disk ∧
      (complete d j).failure? = j.failure? { disk := d } := by
  unfold complete Job.failure? Job.after
  rcases j.run.run { disk := d } with ⟨f | watching?, q⟩ <;> exact ⟨rfl, rfl⟩

/-- A command that leaves no watch. -/
theorem complete_discarded (d : Disk) (j : Job Unit) :
    (complete d (j *> pure none)).disk = (j.after { disk := d }).2.disk ∧
      (complete d (j *> pure none)).failure? = j.failure? { disk := d } := by
  obtain ⟨hdisk, hfailure⟩ := complete_eq d (j *> pure none)
  rw [hdisk, hfailure, Job.failure?, Job.failure?, seqRight_eq_bind, Job.after_bind]
  rcases j.after { disk := d } with ⟨f | _, q⟩ <;> exact ⟨rfl, rfl⟩

/-- What a command writes, if it comes to creating its output file. -/
def created? (s : Session) (d : Disk) (name : Text) (o : Options) (operands : List Text) : Option Product :=
  match (gather s name o operands).after { disk := d } with
  | (.ok x, q) => if (q.disk.writeFile (o.text "output") []).isOk then some x else none
  | (.error _, _) => none

variable {d : Disk} {name : Text}

/-- A command that does not come to creating its output file fails, and leaves the disk as it was then. -/
theorem after_write_of_created?_eq_none (h : created? s d name o operands = none) :
    let done := (gather s name o operands >>= Product.write (o.text "output")).after { disk := d }
    (∃ f, done.1 = .error f) ∧ done.2 = ((gather s name o operands).after { disk := d }).2 := by
  intro done
  have hdone : done = _ := Job.after_bind _ _ _
  unfold created? at h
  rw [hdone]
  rcases hgather : (gather s name o operands).after { disk := d } with ⟨f | x, q⟩
  · exact ⟨⟨f, rfl⟩, rfl⟩
  · rw [hgather] at h
    cases hcreate : q.disk.writeFile (o.text "output") [] with
    | ok created => simp [hcreate, Except.isOk, Except.toBool] at h
    | error e =>
      dsimp only
      rw [after_write_of_error x hcreate]
      exact ⟨⟨_, rfl⟩, rfl⟩

/-- A command that comes to creating its output file leaves in it what it has to write. -/
theorem after_write_of_created?_eq_some {x : Product} (h : created? s d name o operands = some x) :
    let j := gather s name o operands >>= Product.write (o.text "output")
    (j.after { disk := d }).2.disk.contentOf (o.text "output") = .ok x.left ∧
      (j.failure? { disk := d } = none ↔ (∃ t, x.rendered = .ok t) ∧ x.ending? = none) := by
  intro j
  unfold created? at h
  rcases hgather : (gather s name o operands).after { disk := d } with ⟨f | y, q⟩
  · rw [hgather] at h
    cases h
  · rw [hgather] at h
    cases hcreate : q.disk.writeFile (o.text "output") [] with
    | error e => simp [hcreate, Except.isOk, Except.toBool] at h
    | ok created =>
      obtain rfl : y = x := by simpa [hcreate, Except.isOk, Except.toBool] using h
      unfold Job.failure?
      rw [Job.after_bind_of_ok _ hgather]
      exact after_write y hcreate

/-- A failed `scan`, `export` or `diff` leaves in its output file what was there exactly when it fails before
the file is created, and nothing on its way changed the file, or when it was about to write just what was
there. Only a scan with a log file or with a report to store changes the disk on its way. -/
theorem output_of_failed_command_kept_iff {args : List Text} {named : CommandLine.Program.Named}
    (hread : program.read args = .ok (.run named o operands)) (hname : named.command.name ∈ writers)
    (hout : o.text "output" ≠ []) (hfails : (run s d args).failure? ≠ none) :
    let path := o.text "output"
    let name := named.command.name
    let before := ((gather s name o operands).after { disk := d }).2.disk
    (LooksFirst s d name o → before = d) ∧
    ((run s d args).disk.contentOf path = d.contentOf path ↔
      match created? s d name o operands with
      | none => before.contentOf path = d.contentOf path
      | some x => d.contentOf path = .ok x.left) ∧
    (created? s d name o operands = none → (run s d args).disk = before) ∧
    ∀ x ∈ created? s d name o operands,
      (run s d args).disk.contentOf path = .ok x.left ∧
        ((∃ f, x.rendered = .error f) ∨ x.ending? ≠ none) := by
  intro path name before
  obtain ⟨hdisk, hfailure⟩ :=
    complete_discarded d (gather s name o operands >>= Product.write (o.text "output"))
  rw [run_eq_of_read hread hname hout] at hfails ⊢
  rw [hfailure] at hfails
  rw [hdisk]
  refine ⟨fun hlooks => congrArg Progress.disk (after_gather_snd (q := { disk := d }) hlooks), ?_⟩
  cases hcreated : created? s d name o operands with
  | none =>
    obtain ⟨-, hsame⟩ := after_write_of_created?_eq_none hcreated
    rw [hsame]
    exact ⟨Iff.rfl, fun _ => rfl, by simp⟩
  | some x =>
    obtain ⟨hcontent, hends⟩ := after_write_of_created?_eq_some hcreated
    refine ⟨by rw [hcontent, eq_comm], by simp, ?_⟩
    rintro _ ⟨⟩
    refine ⟨hcontent, ?_⟩
    cases hrendered : x.rendered with
    | error f => exact .inl ⟨f, rfl⟩
    | ok t =>
      refine .inr fun hending => hfails (hends.2 ⟨⟨t, hrendered⟩, hending⟩)

/-! ### An export over an old file -/

/-- An output file from before, and a report. -/
def oldOutput : Disk := { root := .dir [("out.json", .file "old"), ("r.json", .file "\x7b\x7d")] }

/-- To export a report in a format that there is not. -/
def exportArgs (report : String) : List Text :=
  List.map Text.ofString ["export", report, "-o", "out.json", "--format", "bogus"]

def exportOptions : Options :=
  { flags := CommandLine.Program.helpFlag "export" :: exportReport.flags ++ program.flags
    given := [("format", .text "bogus"), ("output", .text "out.json")] }

def exportNamed : CommandLine.Program.Named := ⟨"codespectre export", exportReport⟩

def atEpoch : Session := { now := { seconds := 0 } }

theorem read_exportArgs :
    program.read (exportArgs "gone.json") = .ok (.run exportNamed exportOptions ["gone.json"]) ∧
      program.read (exportArgs "r.json") = .ok (.run exportNamed exportOptions ["r.json"]) := ⟨rfl, rfl⟩

theorem export_mem_writers : exportNamed.command.name ∈ writers := by decide

theorem output_exportOptions_ne_nil : exportOptions.text "output" ≠ [] := by decide

theorem exists_loadConfig : ∃ c, (loadConfig atEpoch exportOptions).after { disk := oldOutput } =
    (.ok c, { disk := oldOutput }) := by
  have hfind : SettingsFile.find oldOutput "codespectre" (Config.searchDirs oldOutput {}) = none := by
    cbv
  have hsound : ((Config.Layers.config? ⟨{}, []⟩).any fun c =>
      ({ c with file := [], missingFile := [] } : Config).fault?.isNone) = true := by decide
  obtain ⟨c, hc, hfault⟩ := Option.any_eq_true _ _ |>.1 hsound
  have hload : Config.load oldOutput atEpoch.environment (exportOptions.text "config") =
      .ok { c with file := [], missingFile := [] } := by
    have hchosen : Config.chooseFile oldOutput {} (exportOptions.text "config") = .ok ([], []) := by
      show Except.ok ((SettingsFile.find oldOutput "codespectre" (Config.searchDirs oldOutput {})).getD [],
        ([] : Text)) = _
      rw [hfind]
      rfl
    unfold Config.load
    rw [show atEpoch.environment = {} from rfl, hchosen]
    -- Nothing was found, so that there are no settings to read.
    dsimp only [bind, Except.bind]
    rw [if_pos List.isEmpty_nil]
    dsimp only [pure, Except.pure]
    rw [hc]
    dsimp only
    rw [Option.isNone_iff_eq_none.1 hfault]
  unfold loadConfig
  rw [Job.after_bind_of_ok _ (Job.after_disk _), Job.after_bind_of_ok _ (Job.after_require _ hload)]
  exact ⟨_, rfl⟩

/-- The report is read before the format is looked at. -/
theorem after_gather_export (report : Text) : ∃ c,
    (gather atEpoch exportNamed.command.name exportOptions [report]).after { disk := oldOutput } =
      (loadReport c atEpoch report >>= fun r => pure (.ofReport atEpoch exportOptions r)).after
        { disk := oldOutput } := by
  obtain ⟨c, hc⟩ := exists_loadConfig
  refine ⟨c, ?_⟩
  unfold gather
  rw [Job.after_bind_of_ok _ hc]
  rfl

theorem created?_gone :
    created? atEpoch oldOutput exportNamed.command.name exportOptions ["gone.json"] = none := by
  obtain ⟨c, hc⟩ := after_gather_export "gone.json"
  have hgone : History.loadFile oldOutput "gone.json" = .error (.notFound "gone.json") := by
    have hmissing : oldOutput.contentOf "gone.json" = .error ⟨"open", "gone.json", .missing⟩ := by cbv
    rw [History.loadFile, hmissing]
    rfl
  have hfails : (loadReport c atEpoch "gone.json").after { disk := oldOutput } =
      (.error (.execution (History.Error.notFound "gone.json").message), { disk := oldOutput }) := by
    unfold loadReport
    rw [Job.after_bind_of_ok _ (Job.after_disk _)]
    dsimp only
    rw [hgone]
    rfl
  unfold created?
  rw [hc, Job.after_bind, hfails]

theorem exists_created?_of_report : ∃ r,
    created? atEpoch oldOutput exportNamed.command.name exportOptions ["r.json"] =
      some (.ofReport atEpoch exportOptions r) := by
  obtain ⟨c, hc⟩ := after_gather_export "r.json"
  have hread : ((Json.read? ("\x7b\x7d" : Text)).bind Report.ofJson?).isSome = true := by decide
  obtain ⟨r, hr⟩ := Option.isSome_iff_exists.1 hread
  have hloaded : History.loadFile oldOutput "r.json" = .ok r := by
    have hcontent : oldOutput.contentOf "r.json" = .ok "\x7b\x7d" := by cbv
    rw [History.loadFile, hcontent]
    dsimp only
    rw [hr]
  have hfound : (loadReport c atEpoch "r.json").after { disk := oldOutput } =
      (.ok r, { disk := oldOutput }) := by
    unfold loadReport
    rw [Job.after_bind_of_ok _ (Job.after_disk _)]
    dsimp only
    rw [hloaded]
    rfl
  have hcreated : oldOutput.writeFile "out.json" [] =
      .ok { root := .dir [("out.json", .file []), ("r.json", .file "\x7b\x7d")] } := by cbv
  have houtput : exportOptions.text "output" = "out.json" := rfl
  refine ⟨r, ?_⟩
  unfold created?
  rw [hc, Job.after_bind_of_ok _ hfound, houtput]
  show (if (oldOutput.writeFile "out.json" []).isOk = true then _ else _) = _
  rw [hcreated]
  rfl

theorem old_output_kept_without_report :
    (run atEpoch oldOutput (exportArgs "gone.json")).failure? ≠ none ∧
      oldOutput.contentOf "out.json" = .ok "old" ∧
      (run atEpoch oldOutput (exportArgs "gone.json")).disk = oldOutput := by
  have hfails : (run atEpoch oldOutput (exportArgs "gone.json")).failure? ≠ none := by
    rw [run_eq_of_read read_exportArgs.1 export_mem_writers output_exportOptions_ne_nil,
      (complete_discarded _ _).2, Job.failure?]
    obtain ⟨⟨f, hf⟩, -⟩ := after_write_of_created?_eq_none created?_gone
    rw [hf]
    exact nofun
  obtain ⟨hfirst, -, hkept, -⟩ := output_of_failed_command_kept_iff read_exportArgs.1 export_mem_writers
    output_exportOptions_ne_nil hfails
  have hexport : exportNamed.command.name ≠ "scan" := by decide
  exact ⟨hfails, by cbv, (hkept created?_gone).trans (hfirst fun hscan => absurd hscan hexport)⟩

/-- A format that there is not is found out when the old file has been emptied. -/
theorem old_output_emptied_for_unknown_format :
    (run atEpoch oldOutput (exportArgs "r.json")).failure? ≠ none ∧
      oldOutput.contentOf "out.json" = .ok "old" ∧
      (run atEpoch oldOutput (exportArgs "r.json")).disk.contentOf "out.json" = .ok [] := by
  obtain ⟨r, hcreated⟩ := exists_created?_of_report
  have hunknown : (Product.ofReport atEpoch exportOptions r).rendered =
      .error (.execution (Format.Error.unsupported "bogus").message) := by rfl
  obtain ⟨hcontent, hends⟩ := after_write_of_created?_eq_some hcreated
  rw [run_eq_of_read read_exportArgs.2 export_mem_writers output_exportOptions_ne_nil,
    (complete_discarded _ _).1, (complete_discarded _ _).2]
  refine ⟨fun hnone => ?_, by cbv, ?_⟩
  · obtain ⟨t, ht⟩ := (hends.1 hnone).1
    rw [hunknown] at ht
    cases ht
  · rw [Product.left, hunknown] at hcontent
    exact hcontent

end LiteralAudit.Tool
