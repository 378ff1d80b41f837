import LiteralAudit.Proofs.Disk.Staging
import LiteralAudit.Proofs.Number.Digits

/-!
# The steps of a replacement and their outcome

`Disk.replace` tells the outcome of a replacement without the new file that is written first. It says what
comes of the steps, with the same disk and the same success (`replaceInSteps_eq_replace`), whenever one of the
numbers that are drawn gives the new file a name that is free, and the names are not too long: the path of the
new file leads to its name in the directory of the target (`leadsTo_numbered`), so that it can be created
unless this is refused (`exists_createTemporary_iff`).
-/

namespace LiteralAudit

namespace Disk

variable {d : Disk} {path content : Text} {n : Nat}

/-- The name of a new file, for a path that a file can have. -/
theorem plain_numberedName (h : Path.IsPart (Path.base path)) (n : Nat) :
    Path.Plain (numberedName path n) := by
  have hlen : 2 < (numberedName path n).length := by
    have hbase : 0 < (Path.base path).length := List.length_pos_iff.2 h.1
    have hmiddle : (Text.ofString ".tmp.").length = 5 := rfl
    rw [numberedName, List.length_append, List.length_append]
    omega
  refine ⟨⟨List.ne_nil_of_length_pos (by omega), fun hslash => ?_⟩, ?_, ?_⟩
  · obtain hfront | hdigit := List.mem_append.1 hslash
    · obtain hbase | hmiddle := List.mem_append.1 hfront
      · exact h.2 hbase
      · revert hmiddle
        decide
    · cases Text.isDigit_of_mem_ofNat hdigit
  · rintro hdot
    rw [hdot] at hlen
    exact absurd hlen (by decide)
  · rintro hup
    rw [hup] at hlen
    exact absurd hlen (by decide)

theorem exists_beside_eq (path : Text) : ∃ front, Path.parts front = Path.parts (Path.parent path) ∧
    ∀ name, beside path ++ name = front ++ ('/' : UInt8) :: name := by
  unfold beside
  dsimp only
  split
  · next hslash =>
    obtain ⟨front, hfront⟩ := List.getLast?_eq_some_iff.1 (beq_iff_eq.1 hslash)
    refine ⟨front, ?_, fun name => by rw [hfront]; simp⟩
    rw [hfront, Path.parts_append_slash, Path.parts_nil, List.append_nil]
  · exact ⟨_, rfl, fun name => by simp [show Text.ofString "/" = [('/' : UInt8)] from rfl]⟩

/-- The path of the new file leads to its name in the directory of the path that it is for. -/
theorem leadsTo_numbered {dir : List Text} (hdir : d.LeadsTo (Path.parent path) true dir)
    (hisDir : d.root.IsDirAt dir) (hplain : Path.Plain (numberedName path n))
    (hshort : (numberedName path n).length ≤ nameLimit)
    (hnul : (numberedName path n).contains 0 = false) :
    asksForDir (numbered path n) = false ∧
      d.LeadsTo (numbered path n) false (dir ++ [numberedName path n]) := by
  obtain ⟨front, hparts, hfront⟩ := exists_beside_eq path
  have hname : IsName (numberedName path n) :=
    ⟨by simpa using hplain.ne_dot, by simpa using hplain.ne_up, by omega⟩
  have hslash : asksForDir (numbered path n) = false := by
    rw [asksForDir, numbered, List.getLast?_append_of_ne_nil _ hplain.isPart.1, beq_eq_false_iff_ne]
    exact fun h => hplain.isPart.2 (List.mem_of_getLast? h)
  have hfrom : d.partsFromRoot (numbered path n) =
      d.partsFromRoot (Path.parent path) ++ [numberedName path n] := by
    have habsolute : Path.isAbsolute (numbered path n) = Path.isAbsolute (Path.parent path) := by
      have hparent : Path.parent path ≠ [] := by simpa using hdir.nonempty
      unfold numbered beside
      dsimp only
      split
      · exact Path.isAbsolute_append hparent _
      · rw [List.append_assoc]
        exact Path.isAbsolute_append hparent _
    rw [partsFromRoot, habsolute, numbered, hfront, Path.parts_append_slash,
      Path.parts_of_isPart hplain.isPart, hparts, partsFromRoot, List.append_assoc]
  have hbesideNul : (beside path).contains 0 = false := by
    unfold beside
    dsimp only
    split
    · exact hdir.noNul
    · rw [List.contains_append, hdir.noNul]
      rfl
  refine ⟨hslash, ?_, ?_, ?_⟩
  · rw [List.isEmpty_eq_false_iff, numbered]
    exact List.append_ne_nil_of_right_ne_nil _ hplain.isPart.1
  · rw [numbered, List.contains_append, hbesideNul, hnul]
    rfl
  · rw [hslash, hfrom]
    exact hdir.leads.concat hisDir hname fun h => absurd h Bool.false_ne_true

/-- A new file can be created where nothing is, and where something is it is found out. -/
theorem createNew_of_leadsTo {names : List Text} (hleads : d.LeadsTo path false names)
    (hslash : asksForDir path = false) :
    (d.entryAt? path = none ∧ ∃ created, d.createNew path = .ok created) ∨
      (d.entryAt? path ≠ none ∧ d.createNew path = .error .fileExists) := by
  have hplace : d.locate path false = .ok ⟨names, d.root.get? names⟩ :=
    locate_eq_ok_iff.2 ⟨hleads, rfl, by simp [hslash]⟩
  rw [asksForDir] at hslash
  rw [entryAt?, lstat, lookAt, createNew, hplace]
  cases d.root.get? names with
  | none => simp [hslash, Except.toOption]
  | some e => simp [Except.toOption]

theorem exists_createNumbered {draws : List Nat} (hallowed : d.refuses .create path = none)
    (hleads : ∀ n ∈ draws, asksForDir (numbered path n) = false ∧
      ∃ names, d.LeadsTo (numbered path n) false names)
    (hfree : ∃ n ∈ draws, d.entryAt? (numbered path n) = none) :
    ∃ x, d.createNumbered path draws = .ok x := by
  induction draws with
  | nil => simp at hfree
  | cons n draws ih =>
    obtain ⟨hslash, names, hnames⟩ := hleads n List.mem_cons_self
    obtain ⟨-, created, hcreated⟩ | ⟨htaken, hexists⟩ := createNew_of_leadsTo hnames hslash
    · unfold createNumbered
      rw [hcreated]
      dsimp only
      rw [hallowed]
      exact ⟨_, rfl⟩
    · unfold createNumbered
      rw [hexists]
      refine ih (fun m hm => hleads m (List.mem_cons_of_mem _ hm)) ?_
      obtain ⟨m, hm, hmfree⟩ := hfree
      obtain rfl | hm := List.mem_cons.1 hm
      · exact absurd hmfree htaken
      · exact ⟨m, hm, hmfree⟩

/-- The new file can be created when the directory is there, unless this is refused. -/
theorem exists_createTemporary_iff {draws : List Nat} {es : List (Text × Entry)} {names : List Text}
    (hstat : d.stat (Path.parent path) = .ok (.dir es)) (hplace : d.placeFor path = .ok names)
    (hshort : ∀ n ∈ draws, (numberedName path n).length ≤ nameLimit)
    (hfree : ∃ n ∈ draws, d.entryAt? (numbered path n) = none) :
    (∃ x, d.createTemporary path draws = .ok x) ↔ d.refuses .create path = none := by
  obtain ⟨⟨hempty, hnul, -⟩, -, hslash, -⟩ := placeFor_eq_ok_iff.1 hplace
  obtain ⟨hpart, hsuffix⟩ := Path.base_suffix (by simpa using hempty) hslash
  have hnoslash : (Path.base path).contains '/' = false := by simpa using hpart.2
  have hbaseNul : (0 : UInt8) ∉ Path.base path := fun h => by
    simp [hsuffix.subset h] at hnul
  constructor
  · rintro ⟨⟨temporary, created⟩, hcreate⟩
    exact (createTemporary_eq_ok hcreate).1
  · intro hallowed
    rw [createTemporary, hnoslash]
    obtain ⟨dir, hdir, hget⟩ := stat_eq_dir_iff.1 hstat
    refine exists_createNumbered hallowed (fun n hn => ?_) hfree
    have hnameNul : (numberedName path n).contains 0 = false := by
      rw [List.contains_eq_mem, decide_eq_false_iff_not, numberedName, List.mem_append, List.mem_append]
      rintro ((hbase | hmiddle) | hdigit)
      · exact hbaseNul hbase
      · revert hmiddle
        decide
      · cases Text.isDigit_of_mem_ofNat hdigit
    obtain ⟨hend, hleads⟩ :=
      leadsTo_numbered hdir ⟨es, hget⟩ (plain_numberedName hpart n) (hshort n hn) hnameNul
    exact ⟨hend, _, hleads⟩

/-- A file of a directory has a name without a slash. -/
theorem noSlash_base_of_placeFor {names : List Text} (hplace : d.placeFor path = .ok names) :
    (Path.base path).contains '/' = false := by
  obtain ⟨⟨hempty, -, -⟩, -, hslash, -⟩ := placeFor_eq_ok_iff.1 hplace
  simpa using (Path.base_suffix (by simpa using hempty) hslash).1.2

theorem stagingFault?_eq_none_iff (hnoslash : (Path.base path).contains '/' = false) :
    d.stagingFault? path = none ↔
      (Path.base path).length + 5 ≤ nameLimit ∧ d.refuses .create path = none ∧ d.Settles path := by
  unfold stagingFault?
  rw [hnoslash]
  dsimp only
  rw [if_neg (by simp)]
  split
  · next hlong =>
    simp only [reduceCtorEq, false_iff]
    omega
  · next hshort =>
    rw [findSome?_refuses_eq_none_iff]
    simp only [stagingSteps, settlingSteps, Settles, List.forall_mem_cons]
    have hshort : (Path.base path).length + 5 ≤ nameLimit := by omega
    simp only [hshort, true_and]

theorem fault?_replace_eq_none_iff : (d.replace path content).fault? = none ↔
    (d.makeDirs (Path.parent path)).fault? = none ∧
      (d.makeDirs (Path.parent path)).disk.stagingFault? path = none ∧
      ∃ names, (d.makeDirs (Path.parent path)).disk.placeFor path = .ok names := by
  unfold replace
  generalize d.makeDirs (Path.parent path) = made
  cases hmade : made.fault? with
  | some e => simp [hmade]
  | none =>
    cases hstaging : made.disk.stagingFault? path with
    | some e => simp [hmade, hstaging]
    | none =>
      cases hplace : made.disk.placeFor path with
      | error r => simp [hmade, hstaging, moveInto_eq, hplace]
      | ok names => simp [hmade, hstaging, moveInto_eq, hplace]

theorem fault?_replaceInSteps_eq_none_iff (hwell : d.root.WellFormed) {c : Chance} :
    (d.replaceInSteps c path content).fault? = none ↔
      ((d.makeDirs (Path.parent path)).fault? = none ∧
        (∃ x, (d.makeDirs (Path.parent path)).disk.createTemporary path c.draws = .ok x) ∧
        (d.makeDirs (Path.parent path)).disk.Settles path) ∧
      ∃ names, (d.makeDirs (Path.parent path)).disk.placeFor path = .ok names := by
  obtain ⟨⟨e, hfailed⟩, hnot⟩ | ⟨hcompletes, names, hplace, hmoved⟩ :=
    replaceInSteps_cases hwell c path content
  · rw [hfailed]
    exact iff_of_false nofun hnot
  · rw [hmoved]
    exact iff_of_true rfl ⟨hcompletes, names, hplace⟩

/-- A replacement succeeds as it does in steps, and leaves the same disk, when the names that are drawn for
the new file are not too long and one of them is free. -/
theorem replaceInSteps_eq_replace (hwell : d.root.WellFormed) (c : Chance) (content : Text)
    (hshort : ∀ n ∈ c.draws, (numberedName path n).length ≤ nameLimit)
    (hfree : ∃ n ∈ c.draws, (d.makeDirs (Path.parent path)).disk.entryAt? (numbered path n) = none) :
    (d.replaceInSteps c path content).disk = (d.replace path content).disk ∧
      ((d.replaceInSteps c path content).fault? = none ↔ (d.replace path content).fault? = none) := by
  have hsame : (d.replaceInSteps c path content).fault? = none ↔
      (d.replace path content).fault? = none := by
    rw [fault?_replaceInSteps_eq_none_iff hwell, fault?_replace_eq_none_iff]
    constructor
    · rintro ⟨⟨hmade, hcreate, hsettles⟩, names, hplace⟩
      obtain ⟨es, hstat⟩ := exists_stat_makeDirs hmade
      have hallowed := (exists_createTemporary_iff hstat hplace hshort hfree).1 hcreate
      have hlen : (Path.base path).length + 5 ≤ nameLimit := by
        obtain ⟨n, hn, -⟩ := hfree
        have hname := hshort n hn
        have hmiddle : (Text.ofString ".tmp.").length = 5 := rfl
        rw [numberedName, List.length_append, List.length_append] at hname
        omega
      have hstaging := (stagingFault?_eq_none_iff (noSlash_base_of_placeFor hplace)).2
        ⟨hlen, hallowed, hsettles⟩
      exact ⟨hmade, hstaging, names, hplace⟩
    · rintro ⟨hmade, hstaging, names, hplace⟩
      obtain ⟨es, hstat⟩ := exists_stat_makeDirs hmade
      obtain ⟨-, hallowed, hsettles⟩ :=
        (stagingFault?_eq_none_iff (noSlash_base_of_placeFor hplace)).1 hstaging
      have hcreate := (exists_createTemporary_iff hstat hplace hshort hfree).2 hallowed
      exact ⟨⟨hmade, hcreate, hsettles⟩, names, hplace⟩
  refine ⟨?_, hsame⟩
  obtain ⟨e, hsteps⟩ | ⟨names, hplace, hsteps⟩ := replaced_replaceInSteps hwell c path content <;>
    obtain ⟨e', hwhole⟩ | ⟨names', hplace', hwhole⟩ := replaced_replace d path content <;>
    rw [hsteps, hwhole] at hsame ⊢
  · simp at hsame
  · simp at hsame
  · obtain rfl := Except.ok.inj (hplace.symm.trans hplace')
    rfl

end Disk

end LiteralAudit
