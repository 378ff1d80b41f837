import LiteralAudit.Proofs.History.RunMap
import LiteralAudit.Proofs.Report.RoundTrip

/-!
# A history that grows

Reports of later and later seconds are added to a history one after another. `Holds d dir rs` says that
the run files of the directory are those of the reports `rs`, in the order of time; files of other names
may stand beside them. What the history answers follows from this: `Holds.list_eq` says which scans are
listed, `Holds.load_eq` what is read for one of them, and `Holds.latest_eq` what is read for the last.
`Holds.save` is the step: a report of a later second is added and nothing else changes.

What is read for a report is what its file is read as (`reread?`), which may differ from the report.
-/

namespace LiteralAudit

namespace Entry

variable {es : List (Text × Entry)} {name : Text} {e : Entry}

theorem insert_of_before (h : ∀ x ∈ es, Text.cmp name x.1 = .lt) : insert name e es = (name, e) :: es := by
  cases es with
  | nil => rfl
  | cons x es =>
    rw [insert, h x List.mem_cons_self]

/-- Setting an entry and dropping others can be done in either order. -/
theorem filter_insert {p : Text × Entry → Bool} (hp : p (name, e) = true)
    (h : es.Pairwise fun x y => Text.cmp x.1 y.1 = .lt) :
    (insert name e es).filter p = insert name e (es.filter p) := by
  induction es with
  | nil => rw [insert, List.filter_cons_of_pos hp, List.filter_nil, insert]
  | cons x es ih =>
    obtain ⟨n, x⟩ := x
    obtain ⟨hbefore, hsorted⟩ := List.pairwise_cons.1 h
    rw [insert]
    cases hcmp : Text.cmp name n with
    | lt =>
      have hall : ∀ y ∈ ((n, x) :: es).filter p, Text.cmp name y.1 = .lt := by
        intro y hy
        obtain rfl | hy := List.mem_cons.1 (List.mem_of_mem_filter hy)
        · exact hcmp
        · exact Text.cmp_lt_trans hcmp (hbefore y hy)
      rw [insert_of_before hall]
      exact List.filter_cons_of_pos hp
    | eq =>
      obtain rfl := (Text.cmp_eq_eq_iff name n).1 hcmp
      have hall : ∀ y ∈ es.filter p, Text.cmp name y.1 = .lt := fun y hy =>
        hbefore y (List.mem_of_mem_filter hy)
      dsimp only
      rw [List.filter_cons_of_pos hp]
      by_cases hx : p (name, x) = true
      · rw [List.filter_cons_of_pos hx, insert, hcmp]
      · rw [List.filter_cons_of_neg hx, insert_of_before hall]
    | gt =>
      dsimp only
      by_cases hx : p (n, x) = true
      · rw [List.filter_cons_of_pos hx, List.filter_cons_of_pos hx, ih hsorted, insert, hcmp]
      · rw [List.filter_cons_of_neg hx, List.filter_cons_of_neg hx, ih hsorted]

end Entry

namespace History

/-- A file that is part of a history. -/
def isRun (x : Text × Entry) : Bool := (stampOf? x.1 x.2).isSome

/-- What the file of a report is read as. -/
def reread? (r : Report) : Option Report := (Json.read? (fileTextOf r)).bind Report.ofJson?

/-- The file of a report is read as the report with its texts mended. -/
theorem reread?_eq {r : Report} (h : r.HasJson) : reread? r = some r.mended.named := read_fileTextOf h

/-- The history holds these reports, the earliest one first. -/
structure Holds (d : Disk) (dir : Text) (rs : List Report) : Prop where
  increasing : rs.Pairwise fun a b => a.timestamp.seconds < b.timestamp.seconds
  years : ∀ r ∈ rs, r.timestamp.HasShortYear
  listed : ∃ es, d.Lists (runsDir dir) es ∧ (es.Pairwise fun x y => Text.cmp x.1 y.1 = .lt) ∧
    es.filter isRun = filesOf rs

/-- A directory without files is a history without reports. -/
theorem holds_nil {d : Disk} {dir : Text} (h : d.Lists (runsDir dir) []) : Holds d dir [] :=
  ⟨.nil, by simp, [], h, .nil, rfl⟩

section Increasing

variable {rs : List Report} (h : rs.Pairwise fun a b => a.timestamp.seconds < b.timestamp.seconds)

include h

theorem seconds_of_increasing : seconds rs = rs.map fun r => r.timestamp.seconds := by
  have hlt : (rs.map fun r => r.timestamp.seconds).Pairwise (· < ·) := List.pairwise_map.2 h
  have hnodup : (rs.map fun r => r.timestamp.seconds).Nodup := hlt.imp fun hab => hab.ne
  have hsorted : (rs.map fun r => r.timestamp.seconds).Pairwise fun a b => decide (a ≤ b) = true :=
    hlt.imp fun hab => decide_eq_true hab.le
  rw [seconds, List.Nodup.dedup hnodup, List.mergeSort_of_pairwise hsorted]

theorem saved?_of_increasing {r : Report} (hr : r ∈ rs) : saved? rs r.timestamp.seconds = some r := by
  obtain ⟨r', hsaved⟩ := exists_saved? (mem_seconds_iff.2 ⟨r, hr, rfl⟩)
  obtain ⟨hr', hsecond⟩ := saved?_eq_some hsaved
  have hinjective : (rs.map fun r => r.timestamp.seconds).Nodup :=
    List.Pairwise.imp (fun hab => hab.ne) (List.pairwise_map.2 h)
  rw [hsaved, List.inj_on_of_nodup_map hinjective hr' hr hsecond]

end Increasing

namespace Holds

variable {d after : Disk} {dir path : Text} {rs : List Report} {r : Report} (h : Holds d dir rs)

include h

/-- The scans of the reports are listed. -/
theorem list_eq : list d dir = .ok (rs.map fun r => stampAt r.timestamp.seconds) := by
  obtain ⟨hincreasing, hyears, es, hlists, -, hruns⟩ := h
  have hstamps : (es.filterMap fun x => stampOf? x.1 x.2) =
      (filesOf rs).filterMap fun x => stampOf? x.1 x.2 := by
    rw [← hruns, List.filterMap_filter]
    refine List.filterMap_congr fun x _ => ?_
    cases hx : stampOf? x.1 x.2 with
    | none => simp
    | some t => rw [isRun, hx, Option.isSome_some, if_pos rfl]
  have hsorted := mergeSort_stamps (nodup_stamps hyears) fun t => mem_stamps_iff hyears
  rw [seconds_of_increasing hincreasing, List.map_map, ← hstamps] at hsorted
  obtain hread | ⟨rfl, e, hread, hmissing⟩ := hlists
  · rw [list, hread]
    exact congrArg Except.ok hsorted
  · rw [List.filterMap_nil, List.mergeSort_nil] at hsorted
    rw [list, hread]
    simp only [hmissing, if_true]
    exact congrArg Except.ok hsorted

/-- For each second of a report its file is read. -/
theorem load_eq (hr : r ∈ rs) {t : Timestamp} (ht : t.seconds = r.timestamp.seconds) :
    load d dir t = (reread? r).elim (.error (.malformed (runPath dir t))) .ok := by
  obtain ⟨hincreasing, hyears, es, hlists, hsorted, hruns⟩ := h
  have hname : fileName t = fileName r.timestamp := (fileName_eq_iff (hyears r hr)).2 ht
  have hfile : (fileName r.timestamp, .file (fileTextOf r)) ∈ filesOf rs := by
    have hlookup := lookup_fileName hyears r.timestamp
    rw [saved?_of_increasing hincreasing hr] at hlookup
    exact (Entry.lookup_eq_some_iff (pairwise_filesOf rs)).1 hlookup
  rw [← hruns] at hfile
  have hlookup := (Entry.lookup_eq_some_iff hsorted).2 (List.mem_of_mem_filter hfile)
  have hread : d.readDir (runsDir dir) = .ok es := by
    obtain hread | ⟨rfl, -⟩ := hlists
    · exact hread
    · cases hfile
  rw [← hname] at hlookup
  exact load_of_lookup (hname ▸ isName_fileName (hyears r hr)) hread hlookup

/-- The latest report is what the file of the last one is read as. -/
theorem latest_eq : latest d dir = rs.getLast?.elim (.error (.noRuns dir)) fun r =>
    (reread? r).elim (.error (.malformed (runPath dir (stampAt r.timestamp.seconds)))) .ok := by
  rw [latest_of_listed h.list_eq, List.getLast?_map]
  cases hlast : rs.getLast? with
  | none => rfl
  | some r => exact h.load_eq (List.mem_of_getLast? hlast) rfl

/-- A report of a later second is added. -/
theorem save (hlater : ∀ x ∈ rs, x.timestamp.seconds < r.timestamp.seconds)
    (hyear : r.timestamp.HasShortYear) (hsaved : History.save d dir r = .ok (after, path)) :
    Holds after dir (rs ++ [r]) := by
  obtain ⟨hincreasing, hyears, es, hlists, hsorted, hruns⟩ := h
  refine ⟨?_, ?_, Entry.insert (fileName r.timestamp) (.file (fileTextOf r)) es, .inl ?_,
    Entry.pairwise_insert hsorted _ _, ?_⟩
  · exact List.pairwise_append.2 ⟨hincreasing, List.pairwise_singleton .., by simpa using hlater⟩
  · exact List.forall_mem_append.2 ⟨hyears, by simpa using hyear⟩
  · -- A link under the name of a run would be listed as one, but all of these are files.
    refine readDir_save hlists (fun target hlink => ?_) hsaved
    have hmem := (Entry.lookup_eq_some_iff hsorted).1 hlink
    have hrun : (fileName r.timestamp, Entry.link target) ∈ es.filter isRun :=
      List.mem_filter.2 ⟨hmem, congrArg Option.isSome (stampOf?_fileName hyear [])⟩
    rw [hruns] at hrun
    obtain ⟨x, -, hx⟩ := mem_filesOf hrun
    cases (Prod.ext_iff.1 hx).2
  · have hrun : isRun (fileName r.timestamp, .file (fileTextOf r)) = true :=
      congrArg Option.isSome (stampOf?_fileName hyear _)
    rw [Entry.filter_insert hrun hsorted, hruns, filesOf_concat]

end Holds

end History

end LiteralAudit

/-!
## Stored reports are read back

`History.contentOf_save` says what stands at the path of a report that was saved: the text of the report,
whether the directory of the runs was there or had to be made. With what the JSON reader makes of that
text, `History.stored_report_reads_back` says that reading undoes writing for every report that a file can
keep (`Report.Storable`).
-/

namespace LiteralAudit

namespace History

variable {r : Report} {d after : Disk} {dir path : Text}

theorem save_path (h : save d dir r = .ok (after, path)) : path = runPath dir r.timestamp := by
  rw [save] at h
  cases hstored : (store d dir r).result with
  | error e =>
    rw [hstored] at h
    cases h
  | ok d =>
    rw [hstored] at h
    cases h
    rfl

/-- A report that was saved is the content of its file. A link in the place of the file would be
replaced, and the path may have led through it. -/
theorem contentOf_save (hnolink : ∀ target, d.entryAt? (runPath dir r.timestamp) ≠ some (.link target))
    (h : save d dir r = .ok (after, path)) : after.contentOf path = .ok (fileTextOf r) := by
  obtain ⟨j, hjson, hmade, hreplaced, rfl⟩ := save_eq_ok h
  have htext : fileTextOf r = j.fileText := by
    rw [fileTextOf, hjson]
    rfl
  have hname := plain_fileName r.timestamp
  have hnormal := normal_runsParts dir
  have hne := runsParts_ne_nil dir
  rw [save_path h, htext]
  rw [runPath_eq dir hname] at hnolink hreplaced ⊢
  rw [runsDir_eq] at hmade hreplaced ⊢
  -- The directory was there and nothing was changed, or it is new and empty.
  obtain ⟨hdir, hnolink⟩ : (∃ es, (d.makeDirs (Path.spell (Path.isAbsolute dir) (runsParts dir))).disk.stat
      (Path.spell (Path.isAbsolute dir) (runsParts dir)) = .ok (.dir es)) ∧ ∀ target,
      (d.makeDirs (Path.spell (Path.isAbsolute dir) (runsParts dir))).disk.entryAt?
        (Path.spell (Path.isAbsolute dir) (runsParts dir ++ [fileName r.timestamp])) ≠
        some (.link target) := by
    obtain ⟨hsame, hdir⟩ | ⟨-, -, hempty⟩ := Disk.makeDirsFrom_cases hnormal hne _ hmade
    · rw [Disk.makeDirs, hsame]
      exact ⟨hdir, hnolink⟩
    · refine ⟨⟨_, hempty⟩, fun target hlink => ?_⟩
      obtain ⟨names, hplace⟩ := Disk.entryAt?_eq_some_iff.1 hlink
      exact Disk.lstat_below_empty hnormal hne hname hempty _ (Disk.lookAt_eq_ok_iff.2 ⟨names, hplace⟩)
  obtain ⟨es, hdir⟩ := hdir
  have hparent : (d.makeDirs (Path.spell (Path.isAbsolute dir) (runsParts dir))).disk.makeDirs
      (Path.parent (Path.spell (Path.isAbsolute dir) (runsParts dir ++ [fileName r.timestamp]))) =
        ⟨none, (d.makeDirs (Path.spell (Path.isAbsolute dir) (runsParts dir))).disk⟩ := by
    rw [Path.parent_spell hnormal hname.isPart, Disk.makeDirs_of_dir hdir]
  refine Disk.contentOf_of_entryAt?_file ?_
  rw [Disk.entryAt?_replace (by rwa [hparent]), hreplaced]
  rfl

end History

/-! ## Reading back -/

namespace Json

theorem keeps_of_finite {x : Float} (hfinite : Number.notFinite? x = none)
    (hread : ∀ j, ofFloat? x = some j → float? j = some x) : Keeps x := by
  rw [Keeps, Option.bind_eq_some_iff]
  have hwritten : ∃ j, ofFloat? x = some j := by
    unfold ofFloat?
    rw [hfinite]
    exact ⟨_, rfl⟩
  obtain ⟨j, hj⟩ := hwritten
  exact ⟨j, hj, hread j hj⟩

end Json

namespace Report

/-- A report that a file can keep as it is: its texts are valid UTF-8, its doubles finite, its integers
of 64 bits, and its times such as the internet's date format holds. -/
structure Storable (r : Report) : Prop where
  texts : ∀ t ∈ r.texts, t.isUtf8 = true
  floats : ∀ x ∈ r.floats, Number.notFinite? x = none
  times : ∀ t ∈ r.times, t.HasText
  integers : ∀ i ∈ r.integers, Number.fits64 i = true
  proper : r.Proper

end Report

namespace History

/-- A file that holds either layout of a storable report is read as that report, and so is the file that
saving it leaves: nothing in the report keeps it from being saved. The shortest digits of its doubles are
taken to read back as them. -/
theorem stored_report_reads_back {r : Report} (hr : r.Storable)
    (hshortest : ∀ x ∈ r.floats, ∀ j, Json.ofFloat? x = some j → Json.float? j = some x) :
    (∀ pretty, ∃ t, Format.json pretty r = .ok t ∧
      ∀ (d : Disk) path, d.contentOf path = .ok t → loadFile d path = .ok r) ∧
    (∀ d dir, save d dir r ≠ .error .unwritable) ∧
    ∀ (d : Disk) dir after path,
      (∀ target, d.entryAt? (runPath dir r.timestamp) ≠ some (.link target)) →
      save d dir r = .ok (after, path) → loadFile after path = .ok r := by
  have hjson : r.HasJson :=
    ⟨fun x hx => Json.keeps_of_finite (hr.floats x hx) (hshortest x hx), hr.times, hr.integers⟩
  have hsame : r.mended.named = r := by
    rw [Report.mended_eq_self hr.proper hr.texts, Report.named_eq_self hr.proper]
  have hload : ∀ pretty, ∃ t, Format.json pretty r = .ok t ∧
      ∀ (d : Disk) path, d.contentOf path = .ok t → loadFile d path = .ok r := by
    intro pretty
    obtain ⟨t, ht, hread⟩ := Report.read_json hjson pretty
    refine ⟨t, ht, fun d path hcontent => ?_⟩
    rw [hsame] at hread
    rw [loadFile_of_contentOf hcontent, hread, Option.elim_some]
  have hwritten : Format.json true r = .ok (fileTextOf r) := by
    obtain ⟨j, hj, -⟩ := Report.exists_json hjson
    rw [Format.json, fileTextOf, hj]
    rfl
  refine ⟨hload, ?_, ?_⟩
  · intro d dir hfails
    obtain ⟨j, hj, -⟩ := Report.exists_json hjson
    rw [save, store] at hfails
    cases hmade : (d.makeDirs (runsDir dir)).fault? with
    | some e => simp [hmade, Attempt.result, Except.map] at hfails
    | none =>
      cases hreplaced :
          ((d.makeDirs (runsDir dir)).disk.replace (runPath dir r.timestamp) j.fileText).fault? with
      | some e => simp [hmade, hj, hreplaced, Attempt.result, Except.map] at hfails
      | none => simp [hmade, hj, hreplaced, Attempt.result, Except.map] at hfails
  · intro d dir after path hnolink hsaved
    obtain ⟨t, ht, hread⟩ := hload true
    obtain rfl : fileTextOf r = t := Except.ok.inj (hwritten.symm.trans ht)
    exact hread after path (contentOf_save hnolink hsaved)

/-- A report of an interrupted scan, with everything that a report can hold. -/
def interruptedReport : Report where
  timestamp := { seconds := 1767323045, nanos := 120000000, offset := -12600 }
  root := "/srv/<app>"
  files := 2
  issues? := some [
    { file := "conf \"a\".py", line := 3, kind := "hardcoded", severity := .critical,
      description := "a & b\t(assigned to caf\u00e9)", pattern := "\\d+\u2028", fix := "use a setting" },
    { file := "b.go", line := -1, kind := "odd", severity := .other "blocker" }]
  bySeverity? := some [("blocker", 1), ("critical", 1)]
  byKind? := none
  score := 87.5
  readiness := "good"
  seconds := 0.1
  interrupted := true
  trend? := some {
    direction := "degrading", changePercent := 1e-7, previousIssues := 1, currentIssues := 2,
    previousScore := 95, currentScore := 87.5, comparedWith := { seconds := 1767236645 }, newIssues := 1 }
  recommendations := [{ severity := .critical, kind := "hardcoded", action := "move", count := 1, files := 1 }]

theorem interrupted_report_reads_back :
    interruptedReport.Storable ∧ (∀ x ∈ interruptedReport.floats, Json.Keeps x) ∧
      ∃ after path, save {} "history" interruptedReport = .ok (after, path) ∧
        loadFile after path = .ok interruptedReport := by
  have hr : interruptedReport.Storable :=
    ⟨by decide, by decide, by decide, by decide,
      ⟨by decide, by decide⟩⟩
  have hkeeps : ∀ x ∈ interruptedReport.floats, Json.Keeps x := by decide
  have hshortest : ∀ x ∈ interruptedReport.floats, ∀ j,
      Json.ofFloat? x = some j → Json.float? j = some x := by
    intro x hx j hj
    have hread := hkeeps x hx
    rwa [Json.Keeps, hj] at hread
  have hmade : ({} : Disk).makeDirs (runsDir "history") =
      ⟨none, { root := .dir [("history", .dir [("runs", .dir [])])] }⟩ := by cbv
  have hreplaced : ∀ c, ({ root := .dir [("history", .dir [("runs", .dir [])])] } : Disk).replace
      (runPath "history" { seconds := 1767323045, nanos := 120000000, offset := -12600 }) c =
      ⟨none, { root := .dir [("history", .dir [("runs", .dir
        [("2026-01-02T03-04-05-report.json", .file c)])])] }⟩ := fun c => by cbv
  have hsaved := save_of_replace (r := interruptedReport) (by decide) hmade (hreplaced _)
  have hnone : ({} : Disk).entryAt?
      (runPath "history" { seconds := 1767323045, nanos := 120000000, offset := -12600 }) = none := by cbv
  refine ⟨hr, hkeeps, _, _, hsaved, ?_⟩
  refine (stored_report_reads_back hr hshortest).2.2 {} "history" _ _ (fun target hlink => ?_) hsaved
  cases hnone.symm.trans hlink

end History

end LiteralAudit
