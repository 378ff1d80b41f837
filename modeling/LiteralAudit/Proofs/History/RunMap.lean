import LiteralAudit.Proofs.Disk.WellFormed
import LiteralAudit.Proofs.Report.RoundTrip

/-!
# The history is a map from seconds to reports

Reports that are saved one after another leave a directory in which each second of universal time has one
file, with the report that was saved for it last. The directory lists its files by name and the history
sorts what it reads off the names by time, so that neither the order of saving nor that of the names
shows.

* `lists_of_saves`: what the directory lists after any number of reports was saved.
* `history_is_map`: what the operations of the history answer then, in terms of the map from seconds to
  reports (`IsMap`).
-/

namespace LiteralAudit.History

/-! ## What a map from seconds holds -/

/-- The report that was saved last for a second. -/
def saved? (rs : List Report) (second : Int) : Option Report :=
  rs.reverse.find? fun r => r.timestamp.seconds == second

/-- The seconds for which reports were saved, each once and in order. -/
def seconds (rs : List Report) : List Int :=
  ((rs.map fun r => r.timestamp.seconds).dedup).mergeSort fun a b => a ≤ b

variable {rs : List Report} {r : Report} {second : Int}

theorem mem_seconds_iff : second ∈ seconds rs ↔ ∃ r ∈ rs, r.timestamp.seconds = second := by
  rw [seconds, (List.mergeSort_perm _ _).mem_iff, List.mem_dedup, List.mem_map]

theorem pairwise_seconds (rs : List Report) : (seconds rs).Pairwise (· < ·) := by
  have hle : (seconds rs).Pairwise fun a b => decide (a ≤ b) = true :=
    List.pairwise_mergeSort (fun a b c hab hbc => by simp only [decide_eq_true_eq] at *; omega)
      (fun a b => by simp only [Bool.or_eq_true, decide_eq_true_eq]; omega) _
  have hnodup : (seconds rs).Nodup :=
    (List.mergeSort_perm _ _).nodup_iff.2 (List.nodup_dedup _)
  refine (hle.and hnodup).imp ?_
  rintro a b ⟨hab, hne⟩
  rw [decide_eq_true_eq] at hab
  omega

theorem saved?_eq_some (h : saved? rs second = some r) : r ∈ rs ∧ r.timestamp.seconds = second := by
  refine ⟨List.mem_reverse.1 (List.mem_of_find?_eq_some h), ?_⟩
  simpa using List.find?_some h

theorem exists_saved? (h : second ∈ seconds rs) : ∃ r, saved? rs second = some r := by
  obtain ⟨r, hr, hsecond⟩ := mem_seconds_iff.1 h
  rw [← Option.isSome_iff_exists, saved?, List.find?_isSome]
  exact ⟨r, List.mem_reverse.2 hr, by simpa using hsecond⟩

/-! ## Saving -/

/-- Reports saved one after another, each without a fault. What the system refuses may be different
each time. -/
inductive Saves (dir : Text) : Disk → List Report → Disk → Prop where
  | nothing {d : Disk} : Saves dir d [] d
  | save {d before after : Disk} {rs : List Report} {r : Report} {path : Text}
      {refuses : DiskStep → Text → Option Refusal} (earlier : Saves dir d rs before)
      (saved : History.save { before with refuses } dir r = .ok (after, path)) :
      Saves dir d (rs ++ [r]) after

/-- What is written for a report. -/
def fileTextOf (r : Report) : Text := (r.toJson?.map Json.fileText).getD []

/-- What is written for a report is read as the report with its texts mended. -/
theorem read_fileTextOf (h : r.HasJson) :
    (Json.read? (fileTextOf r)).bind Report.ofJson? = some r.mended.named := by
  obtain ⟨t, ht, hread⟩ := Report.read_json h true
  obtain ⟨j, hj, -⟩ := Report.exists_json h
  have htext : fileTextOf r = t := by
    rw [Format.json, hj] at ht
    rw [fileTextOf, hj]
    exact Except.ok.inj ht
  rw [htext, hread]

/-- In a report that is as it is kept nothing is mended. -/
theorem read_fileTextOf_of_proper (h : r.HasJson) (hproper : r.Proper)
    (htexts : ∀ t ∈ r.texts, t.isUtf8 = true) :
    (Json.read? (fileTextOf r)).bind Report.ofJson? = some r := by
  rw [read_fileTextOf h, Report.mended_eq_self hproper htexts, Report.named_eq_self hproper]

/-- The files that saved reports leave. -/
def filesOf (rs : List Report) : List (Text × Entry) :=
  rs.foldl (fun es r => Entry.insert (fileName r.timestamp) (.file (fileTextOf r)) es) []

theorem filesOf_concat (rs : List Report) (r : Report) : filesOf (rs ++ [r]) =
    Entry.insert (fileName r.timestamp) (.file (fileTextOf r)) (filesOf rs) := by
  rw [filesOf, List.foldl_concat]
  rfl

/-- A file is listed for the last report that was saved under its name. -/
theorem lookup_filesOf (rs : List Report) (name : Text) : (filesOf rs).lookup name =
    (rs.reverse.find? fun r => fileName r.timestamp == name).map fun r => .file (fileTextOf r) := by
  induction rs using List.reverseRecOn with
  | nil => rfl
  | append_singleton rs r ih =>
    rw [filesOf_concat, List.reverse_append, List.reverse_singleton, List.singleton_append,
      List.find?_cons]
    by_cases hname : fileName r.timestamp = name
    · rw [← hname, Entry.lookup_insert_self, beq_self_eq_true]
      rfl
    · rw [Entry.lookup_insert_of_ne (Ne.symm hname), ih, beq_eq_false_iff_ne.2 hname]

theorem mem_filesOf {x : Text × Entry} (h : x ∈ filesOf rs) :
    ∃ r ∈ rs, x = (fileName r.timestamp, .file (fileTextOf r)) := by
  induction rs using List.reverseRecOn with
  | nil => cases h
  | append_singleton rs r ih =>
    rw [filesOf_concat] at h
    obtain rfl | h := Entry.mem_of_mem_insert h
    · exact ⟨r, by simp, rfl⟩
    · obtain ⟨r', hr', hx⟩ := ih h
      exact ⟨r', List.mem_append_left _ hr', hx⟩

theorem pairwise_filesOf (rs : List Report) :
    (filesOf rs).Pairwise fun x y => Text.cmp x.1 y.1 = .lt := by
  induction rs using List.reverseRecOn with
  | nil => exact List.Pairwise.nil
  | append_singleton rs r ih =>
    rw [filesOf_concat]
    exact Entry.pairwise_insert ih _ _

/-- What a report went through that was saved. -/
theorem save_eq_ok {d after : Disk} {dir path : Text} (h : save d dir r = .ok (after, path)) :
    ∃ j, r.toJson? = some j ∧ (d.makeDirs (runsDir dir)).fault? = none ∧
      ((d.makeDirs (runsDir dir)).disk.replace (runPath dir r.timestamp) j.fileText).fault? = none ∧
      ((d.makeDirs (runsDir dir)).disk.replace (runPath dir r.timestamp) j.fileText).disk = after := by
  unfold save store at h
  dsimp only at h
  cases hmade : (d.makeDirs (runsDir dir)).fault? with
  | some e => simp [hmade, Attempt.result, Except.map] at h
  | none =>
    cases hjson : r.toJson? with
    | none => simp [hmade, hjson, Attempt.result, Except.map] at h
    | some j =>
      refine ⟨j, rfl, rfl, ?_⟩
      cases hreplaced :
          ((d.makeDirs (runsDir dir)).disk.replace (runPath dir r.timestamp) j.fileText).fault? with
      | some e => simp [hmade, hjson, hreplaced, Attempt.result, Except.map] at h
      | none =>
        simp only [hmade, hjson, hreplaced, Attempt.result, Except.map, Option.map_none,
          Except.ok.injEq, Prod.mk.injEq] at h
        exact ⟨rfl, h.1⟩

theorem save_of_replace {d made after : Disk} {dir : Text} (hjson : r.toJson?.isSome = true)
    (hmade : d.makeDirs (runsDir dir) = ⟨none, made⟩)
    (hreplaced : made.replace (runPath dir r.timestamp) (fileTextOf r) = ⟨none, after⟩) :
    save d dir r = .ok (after, runPath dir r.timestamp) := by
  obtain ⟨j, hj⟩ := Option.isSome_iff_exists.1 hjson
  rw [fileTextOf, hj, Option.map_some, Option.getD_some] at hreplaced
  simp [save, store, hmade, hj, hreplaced, Attempt.result, Except.map]

/-- A report that is saved sets one file in the directory. -/
theorem readDir_save {d after : Disk} {dir path : Text} {es : List (Text × Entry)}
    (hlists : d.Lists (runsDir dir) es)
    (hnolink : ∀ target, es.lookup (fileName r.timestamp) ≠ some (.link target))
    (h : save d dir r = .ok (after, path)) :
    after.readDir (runsDir dir) =
      .ok (Entry.insert (fileName r.timestamp) (.file (fileTextOf r)) es) := by
  obtain ⟨j, hjson, hmade, hreplaced, rfl⟩ := save_eq_ok h
  have htext : fileTextOf r = j.fileText := by rw [fileTextOf, hjson]; rfl
  have hname := plain_fileName r.timestamp
  have hnormal := normal_runsParts dir
  have hne := runsParts_ne_nil dir
  rw [runPath_eq dir hname] at hreplaced ⊢
  rw [htext]
  rw [runsDir_eq] at *
  exact Disk.readDir_replace hnormal hne hname (Disk.readDir_makeDirs hnormal hne hlists hmade) hnolink
    hreplaced

/-- After any number of reports was saved, the directory lists their files. -/
theorem lists_of_saves {d d' : Disk} {dir : Text} (hempty : d.Lists (runsDir dir) [])
    (h : Saves dir d rs d') : d'.Lists (runsDir dir) (filesOf rs) := by
  induction h with
  | nothing => exact hempty
  | @save before after rs r path refuses earlier saved ih =>
    refine .inl ?_
    rw [filesOf_concat]
    refine readDir_save (d := { before with refuses }) ih ?_ saved
    intro target htarget
    rw [lookup_filesOf, Option.map_eq_some_iff] at htarget
    obtain ⟨r', -, hlink⟩ := htarget
    cases hlink

/-! ## Sorting by time -/

/-- The timestamp that the name of a file tells. -/
def stampAt (second : Int) : Timestamp := ⟨second, 0, 0⟩

theorem stampAt_injective : Function.Injective stampAt := fun _ _ h => congrArg Timestamp.seconds h

theorem before_stampAt (a b : Int) : (stampAt a).before (stampAt b) = decide (a < b) := by
  have hnanos : (decide ((0 : Nat) < 0)) = false := rfl
  rw [Timestamp.before, stampAt, stampAt, hnanos, Bool.and_false, Bool.or_false]

/-- Sorted timestamps stand in the order of time. -/
theorem pairwise_mergeSort_stamps (stamps : List Timestamp) :
    (stamps.mergeSort fun a b => !b.before a).Pairwise fun a b => (!b.before a) = true := by
  refine List.pairwise_mergeSort ?_ ?_ stamps
  · intro a b c hab hbc
    simp only [Timestamp.before, Bool.not_eq_true', Bool.or_eq_false_iff, Bool.and_eq_false_iff,
      decide_eq_false_iff_not, beq_eq_false_iff_ne] at *
    omega
  · intro a b
    simp only [Timestamp.before, Bool.or_eq_true, Bool.not_eq_true', Bool.or_eq_false_iff,
      Bool.and_eq_false_iff, decide_eq_false_iff_not, beq_eq_false_iff_ne]
    omega

/-- Timestamps of the seconds, in any order but each once, are sorted into the order of the seconds. -/
theorem mergeSort_stamps {stamps : List Timestamp} (hnodup : stamps.Nodup)
    (hmem : ∀ t, t ∈ stamps ↔ t ∈ (seconds rs).map stampAt) :
    stamps.mergeSort (fun a b => !b.before a) = (seconds rs).map stampAt := by
  have hsorted : ((seconds rs).map stampAt).Pairwise fun a b => (!b.before a) = true := by
    rw [List.pairwise_map]
    refine (pairwise_seconds rs).imp ?_
    intro a b hab
    rw [before_stampAt]
    simpa using hab.le
  have hnodup' : ((seconds rs).map stampAt).Nodup :=
    List.Nodup.map stampAt_injective ((pairwise_seconds rs).imp fun hab => hab.ne)
  have hperm : (stamps.mergeSort fun a b => !b.before a).Perm ((seconds rs).map stampAt) :=
    (List.mergeSort_perm _ _).trans ((List.perm_ext_iff_of_nodup hnodup hnodup').2 hmem)
  refine hperm.eq_of_pairwise ?_ ?_ hsorted
  · intro a b ha hb hab hba
    obtain ⟨s, -, rfl⟩ := List.mem_map.1 (hperm.mem_iff.1 ha)
    obtain ⟨s', -, rfl⟩ := List.mem_map.1 hb
    rw [before_stampAt] at hab hba
    simp only [Bool.not_eq_true', decide_eq_false_iff_not, not_lt] at hab hba
    rw [le_antisymm hab hba]
  · exact pairwise_mergeSort_stamps stamps

/-! ## What the history answers -/

section Answers

variable {d : Disk} {dir : Text} (hyears : ∀ r ∈ rs, r.timestamp.HasShortYear)

include hyears

/-- The file of a second is the one of the report that was saved last for it. -/
theorem lookup_fileName (t : Timestamp) : (filesOf rs).lookup (fileName t) =
    (saved? rs t.seconds).map fun r => .file (fileTextOf r) := by
  have hsame : ∀ r ∈ rs.reverse,
      (fileName r.timestamp == fileName t) = (r.timestamp.seconds == t.seconds) := by
    intro r hr
    have hiff : fileName t = fileName r.timestamp ↔ t.seconds = r.timestamp.seconds :=
      fileName_eq_iff (hyears r (List.mem_reverse.1 hr))
    rw [Bool.eq_iff_iff, beq_iff_eq, beq_iff_eq, eq_comm, hiff, eq_comm]
  rw [lookup_filesOf, saved?, List.find?_congr hsame]

theorem lookup_of_mem_seconds (h : second ∈ seconds rs) : ∃ r ∈ rs, r.timestamp.seconds = second ∧
    (filesOf rs).lookup (fileName r.timestamp) = some (.file (fileTextOf r)) := by
  obtain ⟨r, hsaved⟩ := exists_saved? h
  obtain ⟨hr, rfl⟩ := saved?_eq_some hsaved
  exact ⟨r, hr, rfl, by rw [lookup_fileName hyears, hsaved, Option.map_some]⟩

theorem seconds_of_filesOf_eq_nil (hnil : filesOf rs = []) : seconds rs = [] := by
  rw [List.eq_nil_iff_forall_not_mem]
  intro second h
  obtain ⟨r, -, -, hlookup⟩ := lookup_of_mem_seconds hyears h
  rw [hnil] at hlookup
  cases hlookup

/-- The timestamps that the names of the files tell are those of the seconds. -/
theorem mem_stamps_iff {t : Timestamp} :
    (t ∈ (filesOf rs).filterMap fun x => stampOf? x.1 x.2) ↔ t ∈ (seconds rs).map stampAt := by
  rw [List.mem_filterMap, List.mem_map]
  constructor
  · rintro ⟨x, hx, ht⟩
    obtain ⟨r, hr, rfl⟩ := mem_filesOf hx
    have hstamp := (stampOf?_fileName (hyears r hr) _).symm.trans ht
    exact ⟨_, mem_seconds_iff.2 ⟨r, hr, rfl⟩, Option.some.inj hstamp⟩
  · rintro ⟨second, h, rfl⟩
    obtain ⟨r, hr, rfl, hlookup⟩ := lookup_of_mem_seconds hyears h
    exact ⟨_, (Entry.lookup_eq_some_iff (pairwise_filesOf rs)).1 hlookup,
      stampOf?_fileName (hyears r hr) _⟩

/-- No two files tell the same timestamp. -/
theorem nodup_stamps : ((filesOf rs).filterMap fun x => stampOf? x.1 x.2).Nodup := by
  rw [List.Nodup, List.pairwise_filterMap]
  refine (pairwise_filesOf rs).imp_of_mem ?_
  intro x y hx hy hlt a ha b hb hab
  obtain ⟨r, hr, rfl⟩ := mem_filesOf hx
  obtain ⟨r', hr', rfl⟩ := mem_filesOf hy
  have hstamp := (stampOf?_fileName (hyears r hr) _).symm.trans (ha.trans (congrArg some hab))
  have hstamp' := (stampOf?_fileName (hyears r' hr') _).symm.trans hb
  have hsame : stampAt r'.timestamp.seconds = stampAt r.timestamp.seconds :=
    Option.some.inj (hstamp'.trans hstamp.symm)
  have hname := (fileName_eq_iff (hyears r hr)).2 (stampAt_injective hsame)
  dsimp only at hlt
  rw [hname, Text.cmp_self] at hlt
  cases hlt

variable (hlists : d.Lists (runsDir dir) (filesOf rs))

include hlists

/-- The report saved last for a second is loaded for each of its timestamps. -/
theorem load_of_saved {t : Timestamp} (hsaved : saved? rs t.seconds = some r)
    (hjson : (Json.read? (fileTextOf r)).bind Report.ofJson? = some r) : load d dir t = .ok r := by
  obtain ⟨hr, hsecond⟩ := saved?_eq_some hsaved
  have hname : fileName t = fileName r.timestamp :=
    (fileName_eq_iff (hyears r hr)).2 hsecond.symm
  have hlookup : (filesOf rs).lookup (fileName t) = some (.file (fileTextOf r)) := by
    rw [lookup_fileName hyears, hsaved]
    rfl
  have hread : d.readDir (runsDir dir) = .ok (filesOf rs) := by
    obtain hread | ⟨hnil, -⟩ := hlists
    · exact hread
    · rw [hnil] at hlookup
      cases hlookup
  have hshort : Disk.IsName (fileName t) := hname ▸ isName_fileName (hyears r hr)
  rw [load_of_lookup hshort hread hlookup, hjson, Option.elim_some]

theorem load_of_not_saved {t : Timestamp} (hnone : saved? rs t.seconds = none) :
    ∃ e, load d dir t = .error e := by
  have hlookup : (filesOf rs).lookup (fileName t) = none := by
    rw [lookup_fileName hyears, hnone]
    rfl
  rw [runsDir_eq] at hlists
  obtain ⟨e, he⟩ := Disk.contentOf_of_lookup_none (normal_runsParts dir) (runsParts_ne_nil dir)
    (plain_fileName t) hlists hlookup
  rw [load, loadFile, runPath_eq dir (plain_fileName t), he]
  exact ⟨_, rfl⟩

/-- The scans of the history are listed in the order of time, each second once. -/
theorem list_eq : list d dir = .ok ((seconds rs).map stampAt) := by
  obtain hread | ⟨hnil, e, hread, hmissing⟩ := hlists
  · rw [list, hread]
    exact congrArg Except.ok (mergeSort_stamps (nodup_stamps hyears) fun t => mem_stamps_iff hyears)
  · rw [list, hread, seconds_of_filesOf_eq_nil hyears hnil]
    simp [hmissing]

end Answers

/-! ## What is answered from a list -/

/-- The last `n` of a list are all of it when there are no more. -/
theorem chosen_eq_rtake {α : Type} (n : Int) (xs : List α) :
    (if 0 < n && n < xs.length then xs.drop (xs.length - n.toNat) else xs) =
      if 0 < n then xs.rtake n.toNat else xs := by
  simp only [Bool.and_eq_true, decide_eq_true_eq]
  by_cases hpos : 0 < n
  · by_cases hmany : n < xs.length
    · rw [if_pos ⟨hpos, hmany⟩, if_pos hpos, List.rtake]
    · have hall : xs.length - n.toNat = 0 := by omega
      rw [if_neg fun h => hmany h.2, if_pos hpos, List.rtake, hall, List.drop_zero]
  · rw [if_neg fun h => hpos h.1, if_neg hpos]

section Listed

variable {d : Disk} {dir : Text} {stamps : List Timestamp} (hlist : list d dir = .ok stamps)

include hlist

/-- The latest report is that of the last scan that is listed. -/
theorem latest_of_listed :
    latest d dir = stamps.getLast?.elim (.error (.noRuns dir)) (load d dir) := by
  rw [latest, hlist]
  cases hlast : stamps.getLast? <;> simp [bind, Except.bind, hlast, throw, throwThe, MonadExceptOf.throw]

/-- The last reports are those of the last scans that are listed, as far as they can be read. -/
theorem last_of_listed (n : Int) : last d dir n = if stamps = [] then .error (.noRuns dir)
    else .ok ((if 0 < n then stamps.rtake n.toNat else stamps).filterMap
      fun t => (load d dir t).toOption) := by
  rw [last, hlist]
  cases stamps with
  | nil => rfl
  | cons t rest =>
    have hsome : (t :: rest).isEmpty = false := rfl
    rw [if_neg (List.cons_ne_nil _ _), ← chosen_eq_rtake]
    simp only [bind, Except.bind, hsome, Bool.false_eq_true, if_false]
    rfl

end Listed

/-! ## The map -/

/-- The last `n` of the times, or all of them for `n ≤ 0`. -/
def newest (n : Int) (times : List Int) : List Int :=
  if 0 < n then times.rtake n.toNat else times

/-- The history answers as a map from seconds to reports does, whose keys are the `times` in order. With
no key there is no latest report, and asking for the last reports fails as well. -/
structure IsMap (d : Disk) (dir : Text) (times : List Int) (report? : Int → Option Report) : Prop where
  increasing : times.Pairwise (· < ·)
  mem_times : ∀ second, second ∈ times ↔ (report? second).isSome = true
  list_eq : list d dir = .ok (times.map stampAt)
  load_eq : ∀ t, (load d dir t).toOption = report? t.seconds
  latest_eq : latest d dir = (times.getLast?.bind report?).elim (.error (.noRuns dir)) .ok
  last_eq : ∀ n, last d dir n =
    if times = [] then .error (.noRuns dir) else .ok ((newest n times).filterMap report?)

theorem map_newest (n : Int) (times : List Int) :
    (newest n times).map stampAt =
      if 0 < n then (times.map stampAt).rtake n.toNat else times.map stampAt := by
  rw [newest]
  split
  · rw [List.rtake, List.rtake, List.map_drop, List.length_map]
  · rfl

section Derived

variable {d : Disk} {dir : Text} {times : List Int} {report? : Int → Option Report}
  (hlist : list d dir = .ok (times.map stampAt)) (hload : ∀ t, (load d dir t).toOption = report? t.seconds)

include hlist hload

/-- The latest report is the one of the last time that is listed. -/
theorem latest_of_list (hmem : ∀ second, second ∈ times ↔ (report? second).isSome = true) :
    latest d dir = (times.getLast?.bind report?).elim (.error (.noRuns dir)) .ok := by
  rw [latest_of_listed hlist, List.getLast?_map]
  cases hlast : times.getLast? with
  | none => rfl
  | some second =>
    obtain ⟨r, hr⟩ := Option.isSome_iff_exists.1 ((hmem second).1 (List.mem_of_getLast? hlast))
    have hoption : (load d dir (stampAt second)).toOption = some r := (hload _).trans hr
    rw [Option.map_some, Option.elim_some, Option.bind_some, hr, Option.elim_some]
    cases hloaded : load d dir (stampAt second) with
    | error e =>
      rw [hloaded] at hoption
      cases hoption
    | ok r' =>
      rw [hloaded] at hoption
      exact congrArg Except.ok (Option.some.inj hoption)

/-- The last reports are those of the last times that are listed. -/
theorem last_of_list (n : Int) : last d dir n =
    if times = [] then .error (.noRuns dir) else .ok ((newest n times).filterMap report?) := by
  simp only [last_of_listed hlist, List.map_eq_nil_iff, ← map_newest, List.filterMap_map, hload]
  rfl

end Derived

/-- After any number of reports was saved, the history is the map from each second to the report that was
saved last for it. -/
theorem history_is_map {d d' : Disk} {dir : Text} (hempty : d.Lists (runsDir dir) [])
    (hsaves : Saves dir d rs d') (hyears : ∀ r ∈ rs, r.timestamp.HasShortYear)
    (hjson : ∀ r ∈ rs, (Json.read? (fileTextOf r)).bind Report.ofJson? = some r) :
    IsMap d' dir (seconds rs) (saved? rs) := by
  have hlists := lists_of_saves hempty hsaves
  have hlist := list_eq hyears hlists
  have hmem : ∀ second, second ∈ seconds rs ↔ (saved? rs second).isSome = true := by
    intro second
    rw [Option.isSome_iff_exists]
    constructor
    · exact exists_saved?
    · rintro ⟨r, hsaved⟩
      obtain ⟨hr, hsecond⟩ := saved?_eq_some hsaved
      exact mem_seconds_iff.2 ⟨r, hr, hsecond⟩
  have hload : ∀ t, (load d' dir t).toOption = saved? rs t.seconds := by
    intro t
    cases hsaved : saved? rs t.seconds with
    | none =>
      obtain ⟨e, he⟩ := load_of_not_saved hyears hlists hsaved
      rw [he]
      rfl
    | some r =>
      rw [load_of_saved hyears hlists hsaved (hjson r (saved?_eq_some hsaved).1)]
      rfl
  exact ⟨pairwise_seconds rs, hmem, hlist, hload, latest_of_list hlist hload hmem,
    last_of_list hlist hload⟩

/-! ### Histories in a directory of that name -/

section Written

/-- A disk with the files of a history. -/
def diskWith (files : List (Text × Entry)) : Disk :=
  { root := .dir [("h", .dir [("runs", .dir files)])] }

variable {files : List (Text × Entry)}

theorem readDir_diskWith (files : List (Text × Entry)) : (diskWith files).readDir (runsDir "h") = .ok files := by
  cbv

theorem makeDirs_diskWith (files : List (Text × Entry)) :
    (diskWith files).makeDirs (runsDir "h") = ⟨none, diskWith files⟩ := by
  cbv

theorem makeDirs_no_files : ({} : Disk).makeDirs (runsDir "h") = ⟨none, diskWith []⟩ := by
  cbv

theorem lists_of_no_files : ({} : Disk).Lists (runsDir "h") [] :=
  .inr ⟨rfl, ⟨"open", "h/runs", .missing⟩, by cbv, rfl⟩

theorem replace_diskWith {t : Timestamp} (hshort : (fileName t).length + 5 ≤ Disk.nameLimit)
    (hfree : ∀ e ∈ files.lookup (fileName t), e.isFile = true) (content : Text) :
    (diskWith files).replace (runPath "h" t) content =
      ⟨none, diskWith (Entry.insert (fileName t) (.file content) files)⟩ := by
  have hplace : (diskWith files).locate (runsDir "h") true =
      .ok ⟨["h", "runs"], some (.dir files)⟩ := by cbv
  obtain ⟨hleads, hget, -⟩ := Disk.locate_eq_ok_iff.1 hplace
  rw [runsDir_eq] at hleads
  rw [runPath_eq "h" (plain_fileName t)]
  exact Disk.replace_of_dir (normal_runsParts "h") (runsParts_ne_nil "h") (plain_fileName t) hleads hget
    hshort (noNul_fileName t) hfree (fun _ _ => rfl) content

theorem save_diskWith (files : List (Text × Entry)) (hjson : r.toJson?.isSome = true)
    (hshort : (fileName r.timestamp).length + 5 ≤ Disk.nameLimit)
    (hfree : ∀ e ∈ files.lookup (fileName r.timestamp), e.isFile = true) :
    save (diskWith files) "h" r = .ok
      (diskWith (Entry.insert (fileName r.timestamp) (.file (fileTextOf r)) files),
        runPath "h" r.timestamp) :=
  save_of_replace hjson (makeDirs_diskWith files) (replace_diskWith hshort hfree _)

/-- The first report that is saved makes the directory. -/
theorem save_no_files (hjson : r.toJson?.isSome = true)
    (hshort : (fileName r.timestamp).length + 5 ≤ Disk.nameLimit) :
    save {} "h" r = .ok
      (diskWith [(fileName r.timestamp, .file (fileTextOf r))], runPath "h" r.timestamp) :=
  save_of_replace hjson makeDirs_no_files (replace_diskWith hshort (by simp) _)

theorem list_diskWith (files : List (Text × Entry)) : list (diskWith files) "h" =
    .ok ((files.filterMap fun x => stampOf? x.1 x.2).mergeSort fun a b => !b.before a) := by
  rw [list, readDir_diskWith]

theorem load_diskWith {t : Timestamp} {content : Text} (hyear : t.HasShortYear)
    (hlookup : files.lookup (fileName t) = some (.file content)) :
    load (diskWith files) "h" t =
      ((Json.read? content).bind Report.ofJson?).elim (.error (.malformed (runPath "h" t))) .ok :=
  load_of_lookup (isName_fileName hyear) (readDir_diskWith files) hlookup

end Written

deriving instance DecidableEq for Trend, Recommendation, Report

def firstScan : Report := { timestamp := ⟨100, 5, 3600⟩, files := 1 }

def earlierScan : Report := { timestamp := ⟨50, 0, 0⟩, files := 2 }

/-- A scan in the second of the first one, told in another zone. -/
def laterScan : Report := { timestamp := ⟨100, 900000000, -7200⟩, files := 3 }

def scans : List Report := [firstScan, earlierScan, laterScan]

def scansDisk : Disk :=
  diskWith [("1970-01-01T00-00-50-report.json", .file (fileTextOf earlierScan)),
    ("1970-01-01T00-01-40-report.json", .file (fileTextOf laterScan))]

theorem saves_scans : Saves "h" {} scans scansDisk := by
  have hfirst : fileName firstScan.timestamp = "1970-01-01T00-01-40-report.json" := by decide
  have hearlier : fileName earlierScan.timestamp = "1970-01-01T00-00-50-report.json" := by decide
  have hlater : fileName laterScan.timestamp = "1970-01-01T00-01-40-report.json" := by decide
  have saved₁ := save_no_files (r := firstScan) rfl (by decide)
  rw [hfirst] at saved₁
  have saved₂ := save_diskWith (r := earlierScan)
    [("1970-01-01T00-01-40-report.json", .file (fileTextOf firstScan))] rfl (by decide)
    (by rw [hearlier]; rintro _ ⟨⟩)
  have saved₃ := save_diskWith (r := laterScan)
    [("1970-01-01T00-00-50-report.json", .file (fileTextOf earlierScan)),
      ("1970-01-01T00-01-40-report.json", .file (fileTextOf firstScan))] rfl (by decide)
    (by rw [hlater]; rintro _ ⟨⟩; rfl)
  rw [hearlier] at saved₂
  rw [hlater] at saved₃
  have one : Saves "h" {} [firstScan] _ := .save .nothing saved₁
  have two : Saves "h" {} [firstScan, earlierScan] _ := .save one saved₂
  exact .save two saved₃

theorem read_scans : ∀ r ∈ scans, (Json.read? (fileTextOf r)).bind Report.ofJson? = some r := by
  have hfloats : ∀ r ∈ scans, ∀ x ∈ r.floats, Json.Keeps x := by decide
  have htimes : ∀ r ∈ scans, ∀ t ∈ r.times, t.HasText := by decide
  have hintegers : ∀ r ∈ scans, ∀ i ∈ r.integers, Number.fits64 i = true := by decide
  have hlevels : ∀ r ∈ scans, ∀ s ∈ r.levels, s.named = s := by decide
  have htables : ∀ r ∈ scans, ∀ c ∈ r.tables, c.Sorted := by decide
  have htexts : ∀ r ∈ scans, ∀ t ∈ r.texts, t.isUtf8 = true := by decide
  exact fun r hr => read_fileTextOf_of_proper ⟨hfloats r hr, htimes r hr, hintegers r hr⟩
    ⟨hlevels r hr, htables r hr⟩ (htexts r hr)

/-- The seconds are listed in order, and the later of two scans in one second is kept. -/
theorem later_scan_kept : ({} : Disk).Lists (runsDir "h") [] ∧ Saves "h" {} scans scansDisk ∧
    IsMap scansDisk "h" (seconds scans) (saved? scans) ∧ seconds scans = [50, 100] ∧
    saved? scans 100 = some laterScan :=
  ⟨lists_of_no_files, saves_scans,
    history_is_map lists_of_no_files saves_scans (by decide) read_scans, by cbv, rfl⟩

/-- Asking a history that nothing was saved to for its last reports is a failure, not an empty answer. -/
theorem no_last_of_nothing : ({} : Disk).Lists (runsDir "h") [] ∧ Saves "h" {} [] {} ∧
    last {} "h" 0 ≠ .ok ((newest 0 (seconds [])).filterMap (saved? [])) := by
  have hlist : list {} "h" = .ok ([].map stampAt) := by cbv
  refine ⟨lists_of_no_files, .nothing, ?_⟩
  rw [last, hlist]
  rintro h
  cases h

end LiteralAudit.History
