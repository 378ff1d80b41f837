import LiteralAudit.Proofs.History.RunMap

/-!
# Runs that cannot be read

A history lists its scans by the names of its files, and a file that is listed may be damaged. The latest
report is the one of the last scan that is listed, or the reason why it cannot be read; the last `n`
reports are those that can be read among the last `n` scans that are listed. So both tell the same of the
last scan (`latest_eq_ok_iff`), but neither looks further back for what it misses.

`answers_of_listed_runs` says for which patterns of good and damaged files the answers are nevertheless
those of a history that has the good files only: an empty history is reported unless all that is listed is
damaged (`EmptyIffNoneReadable`), and the last `n` reports that can be read are given when none of the
last `n` is damaged, or all before them are (`last_eq_readable_iff`).
-/

namespace LiteralAudit.History

/-- The reports of scans as far as they can be read, in the order of the scans. -/
def readable (d : Disk) (dir : Text) (stamps : List Timestamp) : List Report :=
  stamps.filterMap fun t => (load d dir t).toOption

/-- The error for an empty history is given when no report can be read, and only then. -/
structure EmptyIffNoneReadable (d : Disk) (dir : Text) (stamps : List Timestamp) : Prop where
  latest : latest d dir = .error (.noRuns dir) ↔ readable d dir stamps = []
  last : ∀ n, last d dir n = .error (.noRuns dir) ↔ readable d dir stamps = []

variable {d : Disk} {dir : Text} {stamps front back : List Timestamp} {r : Report}

/-! ## What can be read -/

theorem readable_append :
    readable d dir (front ++ back) = readable d dir front ++ readable d dir back :=
  List.filterMap_append

theorem readable_eq_nil_iff :
    readable d dir stamps = [] ↔ ∀ t ∈ stamps, (load d dir t).isOk = false := by
  rw [readable, List.filterMap_eq_nil_iff]
  refine forall₂_congr fun t _ => ?_
  cases load d dir t <;> simp [Except.toOption, Except.isOk, Except.toBool]

/-- As many reports can be read as there are scans when each of them can. -/
theorem length_readable_eq_iff :
    (readable d dir stamps).length = stamps.length ↔ ∀ t ∈ stamps, (load d dir t).isOk = true := by
  induction stamps with
  | nil => simp [readable]
  | cons t rest ih =>
    have hle : (readable d dir rest).length ≤ rest.length := List.length_filterMap_le ..
    rw [List.forall_mem_cons, ← ih]
    cases hload : load d dir t with
    | ok r => simp [readable, hload, Except.toOption, Except.isOk, Except.toBool]
    | error e =>
      have hskip : readable d dir (t :: rest) = readable d dir rest := by
        simp [readable, hload, Except.toOption]
      rw [hskip, List.length_cons]
      simp only [Except.isOk, Except.toBool, Bool.false_eq_true, false_and, iff_false]
      omega

/-- The end of a list with something before it. -/
theorem rtake_append_eq_iff {α : Type} {before cut : List α} {n : Nat} (hshort : cut.length ≤ n) :
    (before ++ cut).rtake n = cut ↔ cut.length = n ∨ before = [] := by
  constructor
  · intro h
    have hlength := congrArg List.length h
    rw [List.rtake, List.length_drop, List.length_append] at hlength
    rw [← List.length_eq_zero_iff]
    omega
  · rintro (rfl | rfl)
    · rw [List.rtake, List.length_append, Nat.add_sub_cancel, List.drop_left]
    · have hall : cut.length - n = 0 := by omega
      rw [List.nil_append, List.rtake, hall, List.drop_zero]

theorem load_ne_noRuns (t : Timestamp) : load d dir t ≠ .error (.noRuns dir) := by
  unfold load loadFile
  split
  · split <;> simp
  · split <;> simp

/-! ## The answers -/

section Listed

variable (hlist : list d dir = .ok stamps)

include hlist

theorem last_eq_readable (n : Int) : last d dir n = if stamps = [] then .error (.noRuns dir)
    else .ok (readable d dir (if 0 < n then stamps.rtake n.toNat else stamps)) :=
  last_of_listed hlist n

theorem latest_eq_noRuns_iff : latest d dir = .error (.noRuns dir) ↔ stamps = [] := by
  rw [latest_of_listed hlist]
  cases hlast : stamps.getLast? with
  | none => simpa using hlast
  | some t =>
    have hsome : stamps ≠ [] := by
      rintro rfl
      cases hlast
    simpa [hsome] using load_ne_noRuns t

theorem last_eq_noRuns_iff (n : Int) : last d dir n = .error (.noRuns dir) ↔ stamps = [] := by
  rw [last_eq_readable hlist]
  split <;> simp [*]

/-- An empty history is not told from one in which all is damaged. -/
theorem emptyIffNoneReadable_iff :
    EmptyIffNoneReadable d dir stamps ↔ (readable d dir stamps = [] → stamps = []) := by
  have hnone : stamps = [] → readable d dir stamps = [] := by
    rintro rfl
    rfl
  constructor
  · rintro ⟨hlatest, -⟩ hread
    exact (latest_eq_noRuns_iff hlist).1 (hlatest.2 hread)
  · intro h
    refine ⟨(latest_eq_noRuns_iff hlist).trans ⟨hnone, h⟩, fun n => ?_⟩
    exact (last_eq_noRuns_iff hlist n).trans ⟨hnone, h⟩

/-- The list is cut before what is damaged is left out of it. -/
theorem last_eq_readable_iff {n : Nat} (hn : 1 ≤ n) (hsome : stamps ≠ []) :
    last d dir n = .ok ((readable d dir stamps).rtake n) ↔
      (∀ t ∈ stamps.rtake n, (load d dir t).isOk = true) ∨
        ∀ t ∈ stamps.rdrop n, (load d dir t).isOk = false := by
  have hpos : (0 : Int) < n := by omega
  have hread : readable d dir stamps =
      readable d dir (stamps.rdrop n) ++ readable d dir (stamps.rtake n) := by
    rw [← readable_append, List.rdrop, List.rtake, List.take_append_drop]
  have hcut : (stamps.rtake n).length ≤ n := by
    rw [List.rtake, List.length_drop]
    omega
  have hshort : (readable d dir (stamps.rtake n)).length ≤ (stamps.rtake n).length :=
    List.length_filterMap_le ..
  rw [last_eq_readable hlist, if_neg hsome, if_pos hpos, Int.toNat_natCast, Except.ok.injEq,
    ← length_readable_eq_iff, ← readable_eq_nil_iff, hread, eq_comm,
    rtake_append_eq_iff (hshort.trans hcut)]
  by_cases hmany : n ≤ stamps.length
  · -- There are `n` scans to be read.
    have hlength : (stamps.rtake n).length = n := by
      rw [List.rtake, List.length_drop]
      omega
    rw [hlength]
  · have hnone : stamps.rdrop n = [] := by
      rw [List.rdrop, List.take_eq_nil_iff]
      omega
    simp [hnone, readable]

end Listed

/-- The latest report is given exactly when it is given as the last one. -/
theorem latest_eq_ok_iff : latest d dir = .ok r ↔ last d dir 1 = .ok [r] := by
  cases hlist : list d dir with
  | error e => simp [latest, last, hlist, bind, Except.bind]
  | ok stamps =>
    rw [latest_of_listed hlist, last_eq_readable hlist]
    induction stamps using List.reverseRecOn with
    | nil => simp
    | append_singleton front t _ =>
      have hlast : (front ++ [t]).rtake (Int.toNat 1) = [t] := by simp [List.rtake]
      rw [List.getLast?_concat, Option.elim_some, if_neg (by simp), if_pos (by decide), hlast]
      cases hload : load d dir t <;> simp [readable, hload, Except.toOption]

theorem answers_of_no_list {e : Error} (hlist : list d dir = .error e) :
    latest d dir = .error e ∧ ∀ n, last d dir n = .error e := by
  simp [latest, last, hlist, bind, Except.bind]

/-- The scans are listed from the oldest to the newest. -/
theorem pairwise_of_listed (hlist : list d dir = .ok stamps) :
    stamps.Pairwise fun a b => (!b.before a) = true := by
  unfold list at hlist
  split at hlist
  · split at hlist <;> cases hlist
    exact List.Pairwise.nil
  · cases hlist
    exact pairwise_mergeSort_stamps _

/-- The latest report is the last one whatever the directory holds. An empty history is reported for an
empty list, which is the same as that nothing can be read unless all that is listed is damaged. And the
last `n` reports that can be read are given unless one of the last `n` scans is damaged while one before
them is not. -/
theorem answers_of_listed_runs (d : Disk) (dir : Text) :
    (∀ r, latest d dir = .ok r ↔ last d dir 1 = .ok [r]) ∧
    (∀ e, list d dir = .error e → latest d dir = .error e ∧ ∀ n, last d dir n = .error e) ∧
    ∀ stamps, list d dir = .ok stamps → (stamps.Pairwise fun a b => (!b.before a) = true) ∧
      (EmptyIffNoneReadable d dir stamps ↔ (readable d dir stamps = [] → stamps = [])) ∧
      ∀ n : Nat, 1 ≤ n → stamps ≠ [] →
        (last d dir n = .ok ((readable d dir stamps).rtake n) ↔
          (∀ t ∈ stamps.rtake n, (load d dir t).isOk = true) ∨
            ∀ t ∈ stamps.rdrop n, (load d dir t).isOk = false) := by
  refine ⟨fun r => latest_eq_ok_iff, fun e => answers_of_no_list, ?_⟩
  intro stamps hlist
  refine ⟨pairwise_of_listed hlist, emptyIffNoneReadable_iff hlist, fun n hn hsome => ?_⟩
  exact last_eq_readable_iff hlist hn hsome

/-! ### A damaged file behind a good one -/

/-- What is left of a report that was cut off. -/
def cutOff : Text := "\x7b"

/-- A history whose last file is damaged. -/
def damagedDisk : Disk :=
  diskWith [("1970-01-01T00-00-50-report.json", .file (fileTextOf earlierScan)),
    ("1970-01-01T00-01-40-report.json", .file cutOff)]

/-- A history whose only file is damaged. -/
def damagedOnlyDisk : Disk := diskWith [("1970-01-01T00-01-40-report.json", .file cutOff)]

theorem fileName_fifty : fileName (stampAt 50) = "1970-01-01T00-00-50-report.json" := by decide

theorem fileName_hundred : fileName (stampAt 100) = "1970-01-01T00-01-40-report.json" := by decide

theorem stampOf?_hundred (content : Text) :
    stampOf? "1970-01-01T00-01-40-report.json" (.file content) = some (stampAt 100) := by
  rw [← fileName_hundred]
  exact stampOf?_fileName (by decide) content

theorem list_damagedDisk : list damagedDisk "h" = .ok [stampAt 50, stampAt 100] := by
  have hfifty : ∀ content, stampOf? "1970-01-01T00-00-50-report.json" (.file content) =
      some (stampAt 50) := by
    intro content
    rw [← fileName_fifty]
    exact stampOf?_fileName (by decide) content
  simp only [damagedDisk, list_diskWith, List.filterMap_cons, List.filterMap_nil, hfifty,
    stampOf?_hundred]
  exact congrArg Except.ok (List.mergeSort_of_pairwise (by decide))

theorem list_damagedOnlyDisk : list damagedOnlyDisk "h" = .ok [stampAt 100] := by
  simp only [damagedOnlyDisk, list_diskWith, List.filterMap_cons, List.filterMap_nil, stampOf?_hundred,
    List.mergeSort_singleton]

theorem load_damagedDisk : load damagedDisk "h" (stampAt 50) = .ok earlierScan := by
  have hlookup : List.lookup (fileName (stampAt 50))
      [("1970-01-01T00-00-50-report.json", Entry.file (fileTextOf earlierScan)),
        ("1970-01-01T00-01-40-report.json", .file cutOff)] = some (.file (fileTextOf earlierScan)) := by
    rw [fileName_fifty]
    rfl
  rw [damagedDisk, load_diskWith (by decide) hlookup, read_scans earlierScan (by simp [scans]),
    Option.elim_some]

/-- A file that is damaged cannot be read, whatever is beside it. -/
theorem load_cutOff {files : List (Text × Entry)}
    (hlookup : files.lookup (Text.ofString "1970-01-01T00-01-40-report.json") = some (.file cutOff)) :
    load (diskWith files) "h" (stampAt 100) = .error (.malformed (runPath "h" (stampAt 100))) := by
  rw [← fileName_hundred] at hlookup
  have hjson : (Json.read? cutOff).bind Report.ofJson? = none := by decide
  rw [load_diskWith (by decide) hlookup, hjson, Option.elim_none]

theorem readable_damagedDisk : readable damagedDisk "h" [stampAt 50, stampAt 100] = [earlierScan] := by
  have hdamaged : load damagedDisk "h" (stampAt 100) = .error (.malformed (runPath "h" (stampAt 100))) :=
    load_cutOff rfl
  simp [readable, load_damagedDisk, hdamaged, Except.toOption]

/-- Of the last two scans the good one is given. -/
theorem last_two_with_damaged_one : list damagedDisk "h" = .ok [stampAt 50, stampAt 100] ∧
    last damagedDisk "h" 2 = .ok [earlierScan] := by
  refine ⟨list_damagedDisk, ?_⟩
  have hnone : ∀ t ∈ [stampAt 50, stampAt 100].rdrop 2, (load damagedDisk "h" t).isOk = false := by
    simp [List.rdrop]
  have hgiven := (((answers_of_listed_runs damagedDisk "h").2.2 _ list_damagedDisk).2.2 2 (by decide)
    (by simp)).2 (.inr hnone)
  rwa [readable_damagedDisk] at hgiven

/-- A good file is not looked for before a damaged one, and where all is damaged the history is not told to
be empty. -/
theorem good_run_overlooked :
    (list damagedDisk "h" = .ok [stampAt 50, stampAt 100] ∧
      readable damagedDisk "h" [stampAt 50, stampAt 100] = [earlierScan] ∧
      last damagedDisk "h" 1 = .ok [] ∧
      latest damagedDisk "h" = .error (.malformed (runPath "h" (stampAt 100)))) ∧
    list damagedOnlyDisk "h" = .ok [stampAt 100] ∧
      readable damagedOnlyDisk "h" [stampAt 100] = [] ∧
      last damagedOnlyDisk "h" 1 = .ok [] ∧
      latest damagedOnlyDisk "h" = .error (.malformed (runPath "h" (stampAt 100))) := by
  have hdamaged : load damagedDisk "h" (stampAt 100) = .error (.malformed (runPath "h" (stampAt 100))) :=
    load_cutOff rfl
  have honly : load damagedOnlyDisk "h" (stampAt 100) = .error (.malformed (runPath "h" (stampAt 100))) :=
    load_cutOff rfl
  refine ⟨⟨list_damagedDisk, readable_damagedDisk, ?_, ?_⟩, list_damagedOnlyDisk, ?_, ?_, ?_⟩
  · rw [last_eq_readable list_damagedDisk]
    simp [readable, List.rtake, hdamaged, Except.toOption]
  · rw [latest_of_listed list_damagedDisk]
    exact hdamaged
  · simp [readable, honly, Except.toOption]
  · rw [last_eq_readable list_damagedOnlyDisk]
    simp [readable, List.rtake, honly, Except.toOption]
  · rw [latest_of_listed list_damagedOnlyDisk]
    exact honly

end LiteralAudit.History
