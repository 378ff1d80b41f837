import LiteralAudit.Proofs.Disk.Below
import LiteralAudit.Proofs.History.RunMap
import LiteralAudit.Proofs.Time.RunStamp

/-!
# The scans that are listed and their files

A history reads the times of its scans off the names of its files, and finds the file of a scan by writing
its time. A name with an hour of one digit or with a fraction is read, too, but never written: the scan that
is listed for it has another file, or none. `listed_scans_have_files_iff` says that this is the only way
in which the list can be wrong.
-/

namespace LiteralAudit

namespace Disk

variable {d : Disk} {rooted : Bool} {ks : List Text} {name : Text} {es : List (Text × Entry)}

/-- Under the path of an entry of a directory there is what the directory lists. -/
theorem lstat_eq_ok_iff_lookup {e : Entry} (hks : Path.Normal rooted ks) (hne : ks ≠ [])
    (hname : Path.Plain name) (hshort : IsName name) (hnul : name.contains 0 = false)
    (hread : d.readDir (Path.spell rooted ks) = .ok es) :
    d.lstat (Path.spell rooted (ks ++ [name])) = .ok e ↔ es.lookup name = some e := by
  obtain ⟨dir, hdir, hget⟩ := stat_eq_dir_iff.1 (readDir_eq_ok_iff.1 hread)
  have hnormal := hks.concat hname
  have hentry : d.root.get? (dir ++ [name]) = es.lookup name := Entry.get?_concat hget name
  have hto : d.LeadsTo (Path.spell rooted (ks ++ [name])) false (dir ++ [name]) := by
    refine ⟨by simpa using Path.spell_ne_nil hnormal, ?_, ?_⟩
    · rw [noNul_spell_concat hne, hdir.noNul, hnul]
      rfl
    · have hleads := hdir.leads
      rw [partsFromRoot_spell hks hne, asksForDir_spell hks hne, Bool.or_false] at hleads
      rw [partsFromRoot_spell hnormal (by simp), asksForDir_spell hnormal (by simp), Bool.or_false,
        ← List.append_assoc]
      refine hleads.append ⟨es, hget⟩ (List.cons_ne_nil _ _) fun links => ?_
      by_cases hinner : d.root.IsDirAt (dir ++ [name])
      · exact .enter ⟨es, hget⟩ hshort hinner .stop
      · exact .last ⟨es, hget⟩ hshort hinner (by simp)
  rw [lstat, lookAt_eq_ok_iff, ← hentry]
  constructor
  · rintro ⟨names, hplace⟩
    obtain ⟨hleads, hfound, -⟩ := locate_eq_ok_iff.1 hplace
    rwa [hleads.unique hto] at hfound
  · intro hfound
    refine ⟨_, locate_eq_ok_iff.2 ⟨hto, hfound, ?_⟩⟩
    simp [asksForDir_spell hnormal (by simp)]

end Disk

namespace History

/-- Each scan that is listed has a file, and no two have the same one. -/
structure ListsFiles (d : Disk) (dir : Text) (stamps : List Timestamp) : Prop where
  exists_file : ∀ t ∈ stamps, ∃ e, d.lstat (runPath dir t) = .ok e ∧ e.isDir = false
  distinct : (stamps.map (runPath dir)).Nodup

/-- What is not named as the files of reports are is not listed. -/
def IgnoresOtherNames (es : List (Text × Entry)) : Prop :=
  ∀ x ∈ es, (∀ t, x.1 ≠ fileName t) → stampOf? x.1 x.2 = none

/-- A name that is listed and has the length of those that are written. -/
def ListsFullNames (es : List (Text × Entry)) : Prop :=
  ∀ x ∈ es, (stampOf? x.1 x.2).isSome = true → x.1.length = 31

variable {d : Disk} {dir name : Text} {t : Timestamp} {e : Entry} {es : List (Text × Entry)}

/-! ## Names that are listed -/

theorem stampOf?_eq_some (h : stampOf? name e = some t) : e.isDir = false ∧
    ∃ stamp, name = stamp ++ reportSuffix ∧ Timestamp.readRunStamp? stamp = some t := by
  unfold stampOf? at h
  split at h
  · cases h
  · next hnot =>
    simp only [Bool.or_eq_true, Bool.not_eq_true', not_or, Bool.not_eq_true, Bool.not_eq_false] at hnot
    obtain ⟨stamp, rfl⟩ := List.isSuffixOf_iff_suffix.1 hnot.2
    refine ⟨hnot.1, stamp, rfl, ?_⟩
    rwa [Text.dropBack, if_pos hnot.2, List.length_append, Nat.add_sub_cancel, List.take_left] at h

/-- A name that is listed is that of its scan when it has the length of one. -/
theorem eq_fileName_iff (h : stampOf? name e = some t) : name = fileName t ↔ name.length = 31 := by
  obtain ⟨-, stamp, rfl, hread⟩ := stampOf?_eq_some h
  have hsuffix : reportSuffix.length = 12 := rfl
  rw [fileName, List.append_left_inj, (Timestamp.readRunStamp?_eq_some hread).2.2, List.length_append,
    hsuffix]
  omega

theorem hasShortYear_of_stampOf? (h : stampOf? name e = some t) : t.HasShortYear := by
  obtain ⟨-, stamp, -, hread⟩ := stampOf?_eq_some h
  exact (Timestamp.readRunStamp?_eq_some hread).1

theorem ignoresOtherNames_iff : IgnoresOtherNames es ↔ ListsFullNames es := by
  constructor
  · intro h x hx hlisted
    obtain ⟨t, ht⟩ := Option.isSome_iff_exists.1 hlisted
    by_contra hlength
    refine absurd (h x hx fun t' hname => hlength ?_) (by simp [ht])
    obtain ⟨-, stamp, hstamp, hread⟩ := stampOf?_eq_some ht
    obtain rfl : t'.runStamp = stamp := List.append_cancel_right (hname.symm.trans hstamp)
    rw [hstamp, List.length_append, Timestamp.length_of_readRunStamp?_runStamp hread]
    rfl
  · intro h x hx hother
    rw [← Option.not_isSome_iff_eq_none]
    intro hlisted
    obtain ⟨t, ht⟩ := Option.isSome_iff_exists.1 hlisted
    exact hother t ((eq_fileName_iff ht).2 (h x hx hlisted))

/-! ## Files of scans -/

theorem lstat_runPath_iff (hyear : t.HasShortYear) (hread : d.readDir (runsDir dir) = .ok es) :
    d.lstat (runPath dir t) = .ok e ↔ es.lookup (fileName t) = some e := by
  rw [runsDir_eq] at hread
  rw [runPath_eq dir (plain_fileName t)]
  exact Disk.lstat_eq_ok_iff_lookup (normal_runsParts dir) (runsParts_ne_nil dir) (plain_fileName t)
    (isName_fileName hyear) (noNul_fileName t) hread

theorem runPath_eq_iff {t' : Timestamp} : runPath dir t = runPath dir t' ↔ fileName t = fileName t' := by
  have hnormal : ∀ t, Path.Normal (Path.isAbsolute dir) (runsParts dir ++ [fileName t]) :=
    fun t => (normal_runsParts dir).concat (plain_fileName t)
  rw [runPath_eq dir (plain_fileName t), runPath_eq dir (plain_fileName t')]
  constructor
  · intro h
    simpa using Path.spell_injective (hnormal t) (hnormal t') h
  · intro h
    rw [h]

section Listed

variable {stamps : List Timestamp} (hread : d.readDir (runsDir dir) = .ok es)
  (hsorted : es.Pairwise fun x y => Text.cmp x.1 y.1 = .lt)
  (hperm : stamps.Perm (es.filterMap fun x => stampOf? x.1 x.2))

include hperm

theorem mem_stamps : t ∈ stamps ↔ ∃ x ∈ es, stampOf? x.1 x.2 = some t := by
  rw [hperm.mem_iff, List.mem_filterMap]

/-- No two scans have one file when no two entries are listed for it. -/
theorem nodup_runPath_iff : (stamps.map (runPath dir)).Nodup ↔ es.Pairwise fun x y =>
    ∀ a, stampOf? x.1 x.2 = some a → ∀ b, stampOf? y.1 y.2 = some b → fileName a ≠ fileName b := by
  rw [(hperm.map _).nodup_iff, List.Nodup, List.pairwise_map, List.pairwise_filterMap]
  simp only [ne_eq, runPath_eq_iff]

include hread hsorted

theorem listsFiles_of_fullNames (hfull : ListsFullNames es) : ListsFiles d dir stamps := by
  have hname : ∀ x ∈ es, ∀ t, stampOf? x.1 x.2 = some t → x.1 = fileName t := fun x hx t ht =>
    (eq_fileName_iff ht).2 (hfull x hx (by rw [ht]; rfl))
  constructor
  · intro t ht
    obtain ⟨x, hx, hstamp⟩ := (mem_stamps hperm).1 ht
    refine ⟨x.2, ?_, (stampOf?_eq_some hstamp).1⟩
    rw [lstat_runPath_iff (hasShortYear_of_stampOf? hstamp) hread, ← hname x hx t hstamp]
    exact (Entry.lookup_eq_some_iff hsorted).2 hx
  · rw [nodup_runPath_iff hperm]
    refine hsorted.imp_of_mem ?_
    intro x y hx hy hlt a ha b hb heq
    rw [← hname x hx a ha, ← hname y hy b hb] at heq
    rw [heq, Text.cmp_self] at hlt
    cases hlt

/-- The file of a scan that is listed for another name is listed for its own name as well. -/
theorem fullNames_of_listsFiles (h : ListsFiles d dir stamps) : ListsFullNames es := by
  intro x hx hlisted
  obtain ⟨t, ht⟩ := Option.isSome_iff_exists.1 hlisted
  have hyear := hasShortYear_of_stampOf? ht
  obtain ⟨e, hfile, he⟩ := h.exists_file t ((mem_stamps hperm).2 ⟨x, hx, ht⟩)
  rw [lstat_runPath_iff hyear hread, Entry.lookup_eq_some_iff hsorted] at hfile
  have hstamp := stampOf?_fileName_of_not_dir hyear he
  have hsame : fileName ⟨t.seconds, 0, 0⟩ = fileName t := (fileName_eq_iff hyear).2 rfl
  rw [← eq_fileName_iff ht]
  by_contra hne
  have hsymm : Std.Symm fun x y : Text × Entry =>
      ∀ a, stampOf? x.1 x.2 = some a → ∀ b, stampOf? y.1 y.2 = some b → fileName a ≠ fileName b :=
    ⟨fun x y hxy a ha b hb heq => hxy b hb a ha heq.symm⟩
  have hdistinct := (nodup_runPath_iff hperm).1 h.distinct
  exact hdistinct.forall hx hfile (fun heq => hne (congrArg Prod.fst heq)) t ht _ hstamp hsame.symm

end Listed

/-- Each scan that is listed has a file of its own exactly when names other than those that are written
are passed over, that is, when no name is listed that has an hour of one digit or a fraction. -/
theorem listed_scans_have_files_iff (hwell : d.root.WellFormed)
    (hread : d.readDir (runsDir dir) = .ok es) : ∃ stamps, list d dir = .ok stamps ∧
      (ListsFiles d dir stamps ↔ IgnoresOtherNames es) ∧ (IgnoresOtherNames es ↔ ListsFullNames es) := by
  obtain ⟨names, -, hget⟩ := Disk.stat_eq_dir_iff.1 (Disk.readDir_eq_ok_iff.1 hread)
  have hsorted : es.Pairwise fun x y => Text.cmp x.1 y.1 = .lt := by
    cases hwell.of_get? hget with
    | dir _ hsorted _ => exact hsorted
  have hperm := List.mergeSort_perm (es.filterMap fun x => stampOf? x.1 x.2) fun a b => !b.before a
  refine ⟨_, by rw [list, hread], ?_, ignoresOtherNames_iff⟩
  rw [ignoresOtherNames_iff]
  exact ⟨fullNames_of_listsFiles hread hsorted hperm, listsFiles_of_fullNames hread hsorted hperm⟩

/-! ### A name with an hour of one digit -/

/-- A report and what else may lie beside it. -/
def sortedFiles : List (Text × Entry) :=
  [("2024-01-02T03-04-05-report.json", .file "\x7b\x7d"), ("notes-report.json", .file "\x7b\x7d")]

/-- A report under a name that was made by hand. -/
def handMadeFiles : List (Text × Entry) := [("2024-01-02T3-04-05-report.json", .file "\x7b\x7d")]

theorem wellFormed_sortedFiles : (diskWith sortedFiles).root.WellFormed := by
  have hfiles : (Entry.dir sortedFiles).WellFormed := by
    refine .dir (by decide) (by decide) ?_
    simp only [sortedFiles, List.forall_mem_cons, List.not_mem_nil, false_implies, implies_true, and_true]
    exact ⟨.file _, .file _⟩
  refine .dir (by decide) (by simp) ?_
  rw [List.forall_mem_singleton]
  refine .dir (by decide) (by simp) ?_
  rwa [List.forall_mem_singleton]

theorem written_names_have_files : (diskWith sortedFiles).root.WellFormed ∧
    (diskWith sortedFiles).readDir (runsDir "h") = .ok sortedFiles ∧
    ∃ stamps, list (diskWith sortedFiles) "h" = .ok stamps ∧
      ListsFiles (diskWith sortedFiles) "h" stamps := by
  obtain ⟨stamps, hlist, hfiles, hnames⟩ :=
    listed_scans_have_files_iff wellFormed_sortedFiles (readDir_diskWith sortedFiles)
  have hfull : ListsFullNames sortedFiles := by
    unfold ListsFullNames
    decide
  exact ⟨wellFormed_sortedFiles, readDir_diskWith _, stamps, hlist, hfiles.2 (hnames.2 hfull)⟩

/-- The scan is listed, but its file is looked for under the name that would be written for it. -/
theorem hand_made_name_has_no_file :
    list (diskWith handMadeFiles) "h" = .ok [⟨1704164645, 0, 0⟩] ∧
      runPath "h" ⟨1704164645, 0, 0⟩ = "h/runs/2024-01-02T03-04-05-report.json" ∧
      (diskWith handMadeFiles).lstat (runPath "h" ⟨1704164645, 0, 0⟩) =
        .error ⟨"lstat", "h/runs/2024-01-02T03-04-05-report.json", .missing⟩ := by
  have hpath : runPath "h" ⟨1704164645, 0, 0⟩ = "h/runs/2024-01-02T03-04-05-report.json" := by decide
  refine ⟨?_, hpath, ?_⟩
  · rw [list_diskWith]
    cbv
  · rw [hpath]
    cbv

end History

end LiteralAudit
