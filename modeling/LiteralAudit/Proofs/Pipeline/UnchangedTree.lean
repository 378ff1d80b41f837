import LiteralAudit.Proofs.History.Stored
import LiteralAudit.Proofs.Pipeline.RunHistory
import LiteralAudit.Proofs.Report.Diff
import LiteralAudit.Proofs.Scan.Root

/-!
# Two runs on one tree

Two complete scans of the same files give the same issues, whoever of the pool works when. The first report
is stored and read back before the second one is compared with it, and on this way the bytes that belong to
no character become U+FFFD. Since an issue is known by its key, the second run takes an issue for a new one
exactly when the key is not valid UTF-8, and the same issue of the first report for a resolved one
(`Turn.unchanged_tree_told_by_keys`).
-/

namespace LiteralAudit

namespace Scanner

variable {s s' : Scanner} {d : Disk} {root : Text} {more : List Text} {tree : Discovery}

theorem interrupted_discovery (h : s.discovery d none root = .ok tree) : tree.interrupted = false := by
  unfold discovery at h
  split at h
  · cases h
  · cases h
    rfl
  · cases h
    rfl

/-- The issues of the files that were found. -/
def issuesOf (s : Scanner) (tree : Discovery) : List Issue :=
  tree.files.flatMap fun file => s.audit file.1 file.2

/-- A scan that is not cancelled tells of all the files, whatever the interleaving. -/
theorem scanAlong_complete (hs : s.excluding more = .ok s')
    (hfound : s'.discovery d none root = .ok tree) (run : Run) {schedule : List Pool.Action}
    (hnever : .cancel ∉ schedule) : ∃ r, s.scanAlong d run { schedule } root more = .ok r ∧
      r.timestamp = run.started.utc ∧ r.interrupted = false ∧ r.issues = s.issuesOf tree ∧
      r.trend? = none := by
  obtain ⟨k, -, hscan, hall⟩ := scanAlong_eq_first_files hs hfound run schedule
  rw [hall rfl hnever, List.take_length] at hscan
  refine ⟨_, hscan, rfl, ?_, ?_, rfl⟩
  · rw [Bool.eq_false_iff, Ne, report_interrupted_iff, interrupted_discovery hfound]
    simp
  · rw [report_issues, issuesOf, ← audit_excluding hs, List.flatMap_def]
    rfl

end Scanner

namespace Turn

/-- A run on a scan of what is at a root. -/
def ofScan (p : Pipeline) (now : Timestamp) (carry : Transport) (s : Scanner) (d : Disk)
    (run : Scanner.Run) (schedule : List Pool.Action) (root : Text) (more : List Text) : Turn where
  pipeline := p
  now
  carry
  scan := (s.scanAlong d run { schedule } root more).mapError Scanner.Error.message

section

variable {p : Pipeline} {s s' : Scanner} {d d' : Disk} {root dir : Text} {more : List Text}
  {tree : Scanner.Discovery} {run run' : Scanner.Run} {schedule schedule' : List Pool.Action}
  {earlier : List Report}

/-- What a complete scan gives a run that keeps a history. -/
theorem report?_ofScan (hs : s.excluding more = .ok s') (hfound : s'.discovery d none root = .ok tree)
    (hnever : .cancel ∉ schedule) (hhistory : p.history? = some dir)
    (h : History.Holds d dir earlier) (run : Scanner.Run) (now : Timestamp) (carry : Transport) :
    ∃ r, ((ofScan p now carry s d run schedule root more).result d).outcome.report? = some r ∧
      r.timestamp = run.started.utc ∧ r.interrupted = false ∧ r.issues = s.issuesOf tree ∧
      ∀ last previous, earlier.getLast? = some last → History.reread? last = some previous →
        r.trend? = some (Trend.ofReports r previous) := by
  obtain ⟨r, hscan, htime, hcomplete, hissues, htrend⟩ :=
    Scanner.scanAlong_complete hs hfound run hnever
  obtain ⟨recommendations, hadvice⟩ := p.exists_advice r
  have hturn : (ofScan p now carry s d run schedule root more).scan = .ok r := by
    rw [ofScan, hscan]
    rfl
  have hreport := report?_result_of_holds (t := ofScan p now carry s d run schedule root more) hhistory h
    hturn
  refine ⟨_, hreport, ?_, ?_, ?_, ?_⟩
  · show (p.withAdvice r).timestamp = _
    rw [hadvice, htime]
  · show (p.withAdvice r).interrupted = _
    rw [hadvice, hcomplete]
  · show (p.withAdvice r).issues = _
    rw [hadvice]
    exact hissues
  · intro last previous hlast hread
    show ((earlier.getLast?.bind History.reread?).map (Trend.ofReports r)).or r.trend? = _
    rw [hlast, Option.bind_some, hread]
    show some (Trend.ofReports r previous) =
      some (Trend.ofReports { p.withAdvice r with trend? := _ } previous)
    rw [hadvice]
    rfl

/-- Where a run has stored its report and nothing has changed in the tree, the trend of the next run is the
one since the report as it is read. -/
theorem report?_of_unchanged_tree (hs : s.excluding more = .ok s')
    (hfound : s'.discovery d none root = .ok tree) (hfound' : s'.discovery d' none root = .ok tree)
    (hnever : .cancel ∉ schedule) (hnever' : .cancel ∉ schedule')
    (hhistory : p.history? = some dir) (h : History.Holds d dir earlier)
    (hyear : run.started.utc.HasShortYear)
    (hlater : ∀ x ∈ earlier, x.timestamp.seconds < run.started.seconds)
    {now now' : Timestamp} {carry carry' : Transport}
    (hrun : (ofScan p now carry s d run schedule root more).KeepsHistory dir d)
    (hbetween : ∀ rs,
      History.Holds ((ofScan p now carry s d run schedule root more).result d).disk dir rs →
        History.Holds d' dir rs)
    (hjson : ∀ r ∈ (ofScan p now carry s d run schedule root more).complete? d, r.HasJson) :
    ∃ r previous,
      ((ofScan p now' carry' s d' run' schedule' root more).result d').outcome.report? = some r ∧
      r.issues = s.issuesOf tree ∧ r.trend? = some (Trend.ofReports r previous) ∧
      previous.issues.map (·.key) = r.issues.map fun i => i.key.mended := by
  obtain ⟨first, hfirst, htime, hcomplete, hissues, -⟩ :=
    report?_ofScan hs hfound hnever hhistory h run now carry
  have hstored : (ofScan p now carry s d run schedule root more).complete? d = some first := by
    rw [complete?, hfirst, Option.filter_some, hcomplete]
    rfl
  have hheld := holds_result hhistory h hrun (by
    rw [hstored]
    rintro _ ⟨⟩
    rw [htime]
    exact ⟨hyear, hlater⟩)
  rw [hstored, Option.toList_some] at hheld
  have hread := History.reread?_eq (hjson first hstored)
  obtain ⟨second, hsecond, -, -, hissues', htrend⟩ :=
    report?_ofScan hs hfound' hnever' hhistory (hbetween _ hheld) run' now' carry'
  refine ⟨second, _, hsecond, hissues', htrend first _ (List.getLast?_concat ..) hread, ?_⟩
  rw [Report.keys_mended_named, hissues, hissues']

end

/-! ### A file that cannot be parsed -/

/-- The built-in library, looking for another deprecated identifier. -/
def ownPatterns : Library :=
  { Library.builtin with deprecated := (Library.compileDeprecated [Text.ofString "zq"]).toOption.getD [] }

def ownScanner : Scanner :=
  { library := ownPatterns, whitelist? := none, selection := ⟨[], []⟩, workers_pos := Nat.one_pos }

/-- What a scan finds in a directory with one file whose only line opens a quote. -/
def openQuoteTree (name : Text) : Scanner.Discovery := { files := [(name, "x = '\n")] }

/-- A disk with this directory. -/
def openQuoteDisk (name : Text) (others : List (Text × Entry)) : Disk :=
  { root := .dir (("app", .dir [(name, .file "x = '\n")]) :: others) }

def openQuoteIssue (name : Text) : Issue where
  file := name
  line := 1
  kind := "scan_error"
  severity := .medium
  description := "failed to parse file: line 1: unterminated string literal"
  pattern := "syntax"
  fix := "Fix the file so it can be read and parsed"

/-- The name of a file in Latin-1. -/
def latinName : Text := Text.ofString "caf" ++ [0xE9] ++ Text.ofString ".py"

/-- A run on the directory, at some second. -/
def onOpenQuote (second : Int) (d : Disk) : Turn :=
  ofScan { history? := some "h" } sampleTime (fun _ => .failure []) ownScanner d
    { started := ⟨second, 0, 0⟩ } [] "app" []

/-- The disk that the first run leaves. -/
def storedDisk (name report : Text) : Disk :=
  openQuoteDisk name [("h", .dir [("runs", .dir [("1970-01-01T00-01-40-report.json", .file report)])])]

def openQuoteReport (name : Text) : Report :=
  ownScanner.report { started := ⟨100, 0, 0⟩ } "app" (openQuoteTree name) [[openQuoteIssue name]]

theorem discovery_openQuoteDisk (name : Text) (others : List (Text × Entry)) :
    ownScanner.discovery (openQuoteDisk name others) none "app" = .ok (openQuoteTree name) := by
  have hstat : (openQuoteDisk name others).stat "app" = .ok (.dir [(name, .file "x = '\n")]) := by cbv
  have hlstat : (openQuoteDisk name others).lstat "app" = .ok (.dir [(name, .file "x = '\n")]) := by cbv
  have hvisits : Scanner.visits ⟨[], []⟩ [] (.dir [(name, .file "x = '\n")]) =
      [some (name, Text.ofString "x = '\n")] := by cbv
  rw [Scanner.discovery_eq_ofVisits _ _ hstat hlstat]
  show Except.ok (Scanner.Discovery.ofVisits (none :: Scanner.visits ⟨[], []⟩ [] _) none) = _
  rw [hvisits]
  rfl

theorem excluding_nothing : ownScanner.excluding [] = .ok ownScanner := rfl

theorem holds_openQuoteDisk (name : Text) : History.Holds (openQuoteDisk name []) "h" [] :=
  History.holds_nil (.inr ⟨rfl, ⟨"open", "h/runs", .missing⟩, by cbv, rfl⟩)

section

variable {name : Text} (hissue : ownScanner.audit name "x = '\n" = [openQuoteIssue name])

include hissue

theorem complete?_onOpenQuote : (onOpenQuote 100 (openQuoteDisk name [])).complete? (openQuoteDisk name []) =
    some (openQuoteReport name) := by
  have hscan : (onOpenQuote 100 (openQuoteDisk name [])).scan = .ok (openQuoteReport name) := by
    obtain ⟨k, -, hscan, hall⟩ := Scanner.scanAlong_eq_first_files excluding_nothing
      (discovery_openQuoteDisk name []) { started := ⟨100, 0, 0⟩ } []
    rw [hall rfl List.not_mem_nil, List.take_length] at hscan
    show (ownScanner.scanAlong _ _ _ _ _).mapError _ = _
    rw [hscan]
    show Except.ok (ownScanner.report _ _ _ [ownScanner.audit name "x = '\n"]) = _
    rw [hissue]
    rfl
  have hcomplete : (openQuoteReport name).interrupted = false := by
    rw [Bool.eq_false_iff, Ne, openQuoteReport, Scanner.report_interrupted_iff]
    simp [openQuoteTree]
  have hnone : (openQuoteReport name).trend? = none := rfl
  rw [complete?, report?_result_of_holds rfl (holds_openQuoteDisk name) hscan, hnone]
  -- The report is left open, so that what is in it is not computed.
  generalize openQuoteReport name = r at hcomplete hnone ⊢
  have hsame : { r with trend? := none } = r := by rw [← hnone]
  show Option.filter _ (some { r with trend? := none }) = _
  rw [hsame, Option.filter_some, hcomplete]
  rfl

variable (hjson : (openQuoteReport name).HasJson)

include hjson

/-- The first run does nothing besides storing its report. -/
theorem first_onOpenQuote :
    (onOpenQuote 100 (openQuoteDisk name [])).KeepsHistory "h" (openQuoteDisk name []) ∧
      ∃ report, ((onOpenQuote 100 (openQuoteDisk name [])).result (openQuoteDisk name [])).disk =
        storedDisk name report := by
  have hcomplete := complete?_onOpenQuote hissue
  have hmade : (openQuoteDisk name []).makeDirs (History.runsDir "h") =
      ⟨none, openQuoteDisk name [("h", .dir [("runs", .dir [])])]⟩ := by cbv
  have hfile : ∀ report, (openQuoteDisk name [("h", .dir [("runs", .dir [])])]).replace
      (History.runPath "h" ⟨100, 0, 0⟩) report = ⟨none, storedDisk name report⟩ := fun report => by cbv
  obtain ⟨j, hj, -⟩ := Report.exists_json hjson
  have hsaved := History.save_of_replace (r := openQuoteReport name) (by rw [hj]; rfl) hmade (hfile _)
  refine ⟨keepsHistory_of_quiet rfl rfl fun r hr => ?_, History.fileTextOf (openQuoteReport name), ?_⟩
  · obtain rfl := Option.some.inj (hcomplete.symm.trans hr)
    exact ⟨_, hsaved⟩
  · rw [disk_result_of_no_artifacts rfl, kept_of_complete rfl hcomplete, settled_of_no_baseline rfl,
      History.disk_store hsaved]

/-- The second run, on what the first one leaves, counts the issue when its key is not valid UTF-8. -/
theorem report?_onOpenQuote : ∃ r previous report,
    ((onOpenQuote 100 (openQuoteDisk name [])).result (openQuoteDisk name [])).disk =
      storedDisk name report ∧
    ((onOpenQuote 200 (storedDisk name report)).result (storedDisk name report)).outcome.report? = some r ∧
    r.issues = ownScanner.issuesOf (openQuoteTree name) ∧ r.trend? = some (Trend.ofReports r previous) ∧
    previous.issues.map (·.key) = r.issues.map fun i => i.key.mended := by
  obtain ⟨hrun, report, hdisk⟩ := first_onOpenQuote hissue hjson
  obtain ⟨r, previous, hr, hissues, htrend, hkeys⟩ := report?_of_unchanged_tree excluding_nothing
    (discovery_openQuoteDisk name []) (discovery_openQuoteDisk name _) List.not_mem_nil List.not_mem_nil rfl
    (holds_openQuoteDisk name) (by decide) (by simp) hrun (fun _ h => hdisk ▸ h)
    fun r hr => Option.some.inj ((complete?_onOpenQuote hissue).symm.trans hr) ▸ hjson
  exact ⟨r, previous, report, hdisk, hr, hissues, htrend, hkeys⟩

end

theorem hasJson_openQuoteReport : (openQuoteReport "a.py").HasJson :=
  ⟨by decide +kernel, by decide +kernel, by decide +kernel⟩

theorem hasJson_latinName : (openQuoteReport latinName).HasJson :=
  ⟨by decide +kernel, by decide +kernel, by decide +kernel⟩

theorem audit_openQuote : ownScanner.audit "a.py" "x = '\n" = [openQuoteIssue "a.py"] := rfl

theorem audit_latinName : ownScanner.audit latinName "x = '\n" = [openQuoteIssue latinName] := rfl

end Turn

end LiteralAudit
