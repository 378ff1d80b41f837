import LiteralAudit.Disk.Staging
import LiteralAudit.Proofs.Disk.MadeDirs

/-!
# A replacement and its steps

A replacement that is carried out in steps (`Disk.replaceInSteps`) comes to one of two things, like
`Disk.replace`: it fails and leaves the disk with the directories that were made, or the target holds the new
content and all else is as it was then (`Replaced`). The new file beside the target is always gone at the
end. It lies at a place that was free, so that no path but its own is led elsewhere by it (`SameWays`), and
taking it away gives the tree back as it was (`erase_set`). So a reader finds the old content or the new,
also after a failure at any step (`replacement_all_or_nothing`).
-/

namespace LiteralAudit

/-- The last part of a path without a slash at its end stands at the end of the path. -/
theorem Path.base_suffix {path : Text} (hne : path ≠ []) (hslash : Disk.asksForDir path = false) :
    Path.IsPart (Path.base path) ∧ Path.base path <:+ path := by
  have hbase : Path.base path = (Path.parts path).getLast?.getD "/" := by
    rw [Path.base, if_neg (by simpa using hne)]
  by_cases hmem : ('/' : UInt8) ∈ path
  · obtain ⟨back, front, hback, hname⟩ := List.eq_append_cons_of_mem (List.mem_reverse.2 hmem)
    obtain rfl : path = front.reverse ++ ('/' : UInt8) :: back.reverse := by
      rw [← List.reverse_inj, hback]
      simp
    have hpart : Path.IsPart back.reverse := by
      refine ⟨?_, fun h => hname (List.mem_reverse.1 h)⟩
      rintro hnil
      rw [hnil, Disk.asksForDir, List.getLast?_concat] at hslash
      cases hslash
    rw [hbase, Path.parts_append_slash, Path.parts_of_isPart hpart, List.getLast?_concat]
    exact ⟨hpart, front.reverse ++ [('/' : UInt8)], by simp⟩
  · have hpart : Path.IsPart path := ⟨hne, hmem⟩
    rw [hbase, Path.parts_of_isPart hpart]
    exact ⟨hpart, List.suffix_rfl⟩

namespace Disk

/-! ## Files lead nowhere -/

/-- Two trees with the same directories and the same links: every path leads the same way. -/
structure SameWays (root root' : Entry) : Prop where
  dirs : ∀ q, root.IsDirAt q ↔ root'.IsDirAt q
  links : ∀ q target, root.get? q = some (.link target) ↔ root'.get? q = some (.link target)

theorem SameWays.symm {root root' : Entry} (h : SameWays root root') : SameWays root' root :=
  ⟨fun q => (h.dirs q).symm, fun q target => (h.links q target).symm⟩

theorem Leads.of_sameWays {root root' : Entry} {follow : Bool} {links : Nat} {here todo names : List Text}
    (h : Leads root follow links here todo names) (hsame : SameWays root root') :
    Leads root' follow links here todo names := by
  have hdirs : ∀ q, root.IsDirAt q → root'.IsDirAt q := fun q => (hsame.dirs q).1
  induction h with
  | stop => exact .stop
  | dot hdir hdot _ ih => exact .dot (hdirs _ hdir) hdot ih
  | up hdir hdot hup _ ih => exact .up (hdirs _ hdir) hdot hup ih
  | last hdir hname hlast hlink =>
    refine .last (hdirs _ hdir) hname (mt (hsame.dirs _).2 hlast) ?_
    exact fun hfollow target hget => hlink hfollow target ((hsame.links _ _).2 hget)
  | enter hdir hname hnext _ ih => exact .enter (hdirs _ hdir) hname (hdirs _ hnext) ih
  | link hdir hname hget hrest _ ih =>
    exact .link (hdirs _ hdir) hname ((hsame.links _ _).1 hget) hrest ih

/-- A file that is put where there was nothing. -/
theorem sameWays_set_file {root : Entry} {names : List Text} (content : Text)
    (hparent : root.IsDirAt names.dropLast) (hfree : root.get? names = none) :
    SameWays root (root.set (.file content) names) := by
  have hshape : ∀ q x, (∀ t, x ≠ .file t) →
      (root.shape? q = some x ↔ (root.set (.file content) names).shape? q = some x) := by
    intro q x hnofile
    rw [Entry.shape?_set _ hparent]
    split
    · next hq =>
      obtain ⟨rest, rfl⟩ := hq
      have hnone : root.shape? (names ++ rest) = none := by
        rw [Entry.shape?, Entry.get?_append, hfree]
        rfl
      rw [hnone, List.drop_left, Entry.shape?_file]
      split
      · simpa using (hnofile content).symm
      · exact Iff.rfl
    · exact Iff.rfl
  constructor
  · intro q
    rw [← Entry.shape?_eq_dir_iff, ← Entry.shape?_eq_dir_iff]
    exact hshape q (.dir []) (by simp)
  · intro q target
    rw [← Entry.shape?_eq_link_iff, ← Entry.shape?_eq_link_iff]
    exact hshape q (.link target) (by simp)

/-! ## The new file -/

/-- A disk with a new file on it, at a free place to which a path leads. -/
structure Staged (d staged : Disk) (path : Text) (names : List Text) (content : Text) : Prop where
  free : d.locate path false = .ok ⟨names, none⟩
  noSlash : asksForDir path = false
  eq : staged = { d with root := d.root.set (.file content) names }

namespace Staged

variable {d staged : Disk} {path content : Text} {names : List Text} (h : Staged d staged path names content)

include h

theorem get?_names : d.root.get? names = none := (locate_eq_ok_iff.1 h.free).2.1

theorem isDirAt_dropLast : d.root.IsDirAt names.dropLast := by
  obtain hroot | hparent := (locate_eq_ok_iff.1 h.free).1.isDirAt_dropLast
  · have hnone := h.get?_names
    rw [hroot] at hnone
    cases hnone
  · exact hparent

theorem sameWays : SameWays d.root staged.root := by
  rw [h.eq]
  exact sameWays_set_file content h.isDirAt_dropLast h.get?_names

theorem leadsTo_iff {other : Text} {follow : Bool} {q : List Text} :
    staged.LeadsTo other follow q ↔ d.LeadsTo other follow q := by
  have hparts : staged.partsFromRoot other = d.partsFromRoot other := by rw [h.eq]; rfl
  constructor
  · rintro ⟨hempty, hnul, hleads⟩
    rw [hparts] at hleads
    exact ⟨hempty, hnul, hleads.of_sameWays h.sameWays.symm⟩
  · rintro ⟨hempty, hnul, hleads⟩
    refine ⟨hempty, hnul, ?_⟩
    rw [hparts]
    exact hleads.of_sameWays h.sameWays

theorem locate_path : staged.locate path false = .ok ⟨names, some (.file content)⟩ := by
  obtain ⟨hleads, -, -⟩ := locate_eq_ok_iff.1 h.free
  obtain ⟨es, hes⟩ := h.isDirAt_dropLast
  refine locate_eq_ok_iff.2 ⟨h.leadsTo_iff.2 hleads, ?_, by simp [h.noSlash]⟩
  rw [h.eq]
  exact Entry.get?_set_self _ (.inr ⟨_, hes⟩)

theorem fill (other : Text) : Staged d (staged.fill path other) path names other := by
  refine ⟨h.free, h.noSlash, ?_⟩
  rw [Disk.fill, h.locate_path, h.eq]
  dsimp only
  rw [Entry.set_set]

/-- Nothing of the file is left when it is removed. -/
theorem removeAll (hwell : d.root.WellFormed) : staged.removeAll path = d := by
  rw [Disk.removeAll, h.locate_path, h.eq]
  dsimp only
  rw [Entry.erase_set _ hwell h.isDirAt_dropLast h.get?_names]

end Staged

/-! ## Where the new file is moved -/

theorem placeFor_eq_ok_iff {d : Disk} {path : Text} {names : List Text} :
    d.placeFor path = .ok names ↔ d.LeadsTo path false names ∧ ¬ d.root.IsDirAt names ∧
      asksForDir path = false ∧ d.refuses .rename path = none := by
  constructor
  · intro h
    unfold placeFor at h
    split at h
    · cases h
    · cases h
    · next q e? hnodir hplace =>
      split at h
      · cases h
      · next hslash =>
        split at h
        · cases h
        · next hallowed =>
          cases h
          obtain ⟨hleads, hget, -⟩ := locate_eq_ok_iff.1 hplace
          exact ⟨hleads, Entry.not_isDirAt hget hnodir, Bool.eq_false_iff.2 hslash, hallowed⟩
  · rintro ⟨hleads, hnodir, hslash, hallowed⟩
    have hplace : d.locate path false = .ok ⟨names, d.root.get? names⟩ :=
      locate_eq_ok_iff.2 ⟨hleads, rfl, by simp [hslash]⟩
    rw [asksForDir] at hslash
    unfold placeFor
    rw [hplace]
    cases hget : d.root.get? names with
    | none => simp [hslash, hallowed]
    | some e =>
      cases e with
      | dir es => exact absurd ⟨es, hget⟩ hnodir
      | file content => simp [hslash, hallowed]
      | link target => simp [hslash, hallowed]

/-- The place for a file lies in a directory. -/
theorem isDirAt_dropLast_of_placeFor {d : Disk} {path : Text} {names : List Text}
    (h : d.placeFor path = .ok names) : d.root.IsDirAt names.dropLast := by
  obtain ⟨hleads, hnodir, hslash, -⟩ := placeFor_eq_ok_iff.1 h
  obtain rfl | hparent := hleads.isDirAt_dropLast
  · -- Not one part of the path could be walked if the root were no directory.
    obtain ⟨hempty, -, hgo⟩ := hleads
    obtain ⟨hpart, -⟩ := Path.base_suffix (by simpa using hempty) hslash
    have hparts : d.partsFromRoot path ≠ [] := by
      intro hnil
      have hnone : Path.parts path = [] := (List.append_eq_nil_iff.1 hnil).2
      rw [Path.base, hempty, hnone] at hpart
      exact absurd hpart (by decide)
    generalize d.partsFromRoot path = todo at hgo hparts
    cases hgo with
    | stop => exact absurd rfl hparts
    | dot hdir => exact hdir
    | up hdir => exact hdir
    | enter hdir => exact hdir
    | link hdir => exact hdir
  · exact hparent

theorem moveInto_eq (d : Disk) (path content : Text) :
    d.moveInto path content = match d.placeFor path with
      | .error r => ⟨some (.rename (temporaryName path) path r), d⟩
      | .ok names => ⟨none, { d with root := d.root.set (.file content) names }⟩ := by
  unfold moveInto placeFor
  dsimp only
  cases d.locate path false with
  | error r => rfl
  | ok place =>
    obtain ⟨names, _ | (other | es | target)⟩ := place
    case some.dir => rfl
    all_goals
      dsimp only
      split
      · rfl
      · cases d.refuses .rename path <;> rfl

namespace Staged

variable {d staged : Disk} {path content : Text} {names : List Text} (h : Staged d staged path names content)

include h

/-- The new file stands in no way. -/
theorem placeFor_eq_ok_iff {target : Text} {q : List Text} :
    staged.placeFor target = .ok q ↔ d.placeFor target = .ok q := by
  have hrefuses : staged.refuses = d.refuses := by rw [h.eq]
  rw [Disk.placeFor_eq_ok_iff, Disk.placeFor_eq_ok_iff, h.leadsTo_iff, h.sameWays.dirs, hrefuses]

/-- The file that is moved leaves its place as it was. -/
theorem moveFile_cases (hwell : d.root.WellFormed) (target : Text) :
    (∃ e, staged.moveFile path target = .error e) ∧ (∀ q, d.placeFor target ≠ .ok q) ∨
    ∃ q, d.placeFor target = .ok q ∧
      staged.moveFile path target = .ok { d with root := d.root.set (.file content) q } := by
  unfold moveFile
  rw [h.locate_path]
  cases hplace : staged.placeFor target with
  | error r =>
    refine .inl ⟨⟨_, rfl⟩, fun q hq => ?_⟩
    cases (h.placeFor_eq_ok_iff.2 hq).symm.trans hplace
  | ok q =>
    refine .inr ⟨q, h.placeFor_eq_ok_iff.1 hplace, ?_⟩
    dsimp only
    rw [h.eq]
    dsimp only
    rw [Entry.erase_set _ hwell h.isDirAt_dropLast h.get?_names]

end Staged

/-! ## Creating and writing the new file -/

section Steps

variable {d created : Disk} {path temporary content : Text}

theorem createNew_eq_ok (h : d.createNew path = .ok created) :
    ∃ names, Staged d created path names [] := by
  unfold createNew at h
  split at h
  · cases h
  · cases h
  · next names hplace =>
    split at h
    · cases h
    · next hslash =>
      cases h
      exact ⟨names, hplace, Bool.eq_false_iff.2 hslash, rfl⟩

theorem createNumbered_eq_ok {draws : List Nat}
    (h : d.createNumbered path draws = .ok (temporary, created)) :
    d.refuses .create path = none ∧ ∃ n ∈ draws, temporary = numbered path n ∧
      ∃ names, Staged d created temporary names [] := by
  induction draws with
  | nil => cases h
  | cons n draws ih =>
    unfold createNumbered at h
    split at h
    · obtain ⟨hallowed, m, hm, hrest⟩ := ih h
      exact ⟨hallowed, m, List.mem_cons_of_mem _ hm, hrest⟩
    · cases h
    · next made hmade =>
      split at h
      · cases h
      · next hallowed =>
        cases h
        exact ⟨hallowed, n, List.mem_cons_self, rfl, createNew_eq_ok hmade⟩

theorem createTemporary_eq_ok {draws : List Nat}
    (h : d.createTemporary path draws = .ok (temporary, created)) :
    d.refuses .create path = none ∧ ∃ n ∈ draws, temporary = numbered path n ∧
      ∃ names, Staged d created temporary names [] := by
  unfold createTemporary at h
  split at h
  · cases h
  · exact createNumbered_eq_ok h

/-- Nothing is refused between creating the new file and moving it. -/
def Settles (d : Disk) (path : Text) : Prop :=
  d.refuses .write path = none ∧ ∀ x ∈ settlingSteps, d.refuses x.1 path = none

theorem findSome?_refuses_eq_none_iff {steps : List (DiskStep × Text)} :
    (steps.findSome? fun (step, operation) =>
      (d.refuses step path).map fun r => ReplaceError.disk ⟨operation, temporary, r⟩) = none ↔
      ∀ x ∈ steps, d.refuses x.1 path = none := by
  simp only [List.findSome?_eq_none_iff, Option.map_eq_none_iff]

/-- While it is written, the new file stays the only one that is new. All is written when nothing is
refused. -/
theorem Staged.writeTemporary {names : List Text} (h : Staged d created temporary names [])
    (path content : Text) (part : Nat) :
    let written := created.writeTemporary temporary path content part
    ∃ left, Staged d written.disk temporary names left ∧ (written.fault? = none ↔ d.Settles path) ∧
      (written.fault? = none → left = content) := by
  intro written
  have hrefuses : created.refuses = d.refuses := by rw [h.eq]
  cases hwrite : d.refuses .write path with
  | some r =>
    have hwritten : written = ⟨some (.disk ⟨"write", temporary, r⟩),
        created.fill temporary (content.take part)⟩ := by
      show created.writeTemporary temporary path content part = _
      rw [Disk.writeTemporary, hrefuses, hwrite]
    refine ⟨content.take part, ?_, ?_, ?_⟩
    · rw [hwritten]
      exact h.fill _
    · rw [hwritten]
      simp [Settles, hwrite]
    · rw [hwritten]
      exact nofun
  | none =>
    have hwritten : written = ⟨settlingSteps.findSome? fun (step, operation) =>
        (d.refuses step path).map fun r => .disk ⟨operation, temporary, r⟩,
        created.fill temporary content⟩ := by
      show created.writeTemporary temporary path content part = _
      rw [Disk.writeTemporary, hrefuses, hwrite]
    refine ⟨content, ?_, ?_, fun _ => rfl⟩
    · rw [hwritten]
      exact h.fill _
    · rw [hwritten]
      simp only [findSome?_refuses_eq_none_iff, Settles, hwrite, true_and]

end Steps

/-! ## What a replacement comes to -/

/-- A replacement fails, and what is left is the directories that were made, or the target holds the new
content and the rest is as it was then. -/
def Replaced (d : Disk) (path content : Text) (a : Attempt ReplaceError) : Prop :=
  let made := (d.makeDirs (Path.parent path)).disk
  (∃ e, a = ⟨some e, made⟩) ∨
  ∃ names, made.placeFor path = .ok names ∧
    a = ⟨none, { made with root := made.root.set (.file content) names }⟩

section Replaced

variable {d : Disk} {path content : Text}

theorem replaced_replace (d : Disk) (path content : Text) :
    Replaced d path content (d.replace path content) := by
  obtain ⟨e, h⟩ | h := d.replace_cases path content
  · exact .inl ⟨e, h⟩
  · rw [h, moveInto_eq]
    cases hplace : (d.makeDirs (Path.parent path)).disk.placeFor path with
    | error r => exact .inl ⟨_, rfl⟩
    | ok names => exact .inr ⟨names, hplace, rfl⟩

/-- A replacement in steps removes its new file whichever step fails. It succeeds when the new file can be
created, nothing is refused on the way, and there is a place for it. -/
theorem replaceInSteps_cases (hwell : d.root.WellFormed) (c : Chance) (path content : Text) :
    let a := d.replaceInSteps c path content
    let made := d.makeDirs (Path.parent path)
    let completes := made.fault? = none ∧ (∃ x, made.disk.createTemporary path c.draws = .ok x) ∧
      made.disk.Settles path
    (∃ e, a = ⟨some e, made.disk⟩) ∧
      ¬ (completes ∧ ∃ names, made.disk.placeFor path = .ok names) ∨
    completes ∧ ∃ names, made.disk.placeFor path = .ok names ∧
      a = ⟨none, { made.disk with root := made.disk.root.set (.file content) names }⟩ := by
  intro a made completes
  have hmadewell : made.disk.root.WellFormed := wellFormed_makeDirs hwell
  have ha : a = d.replaceInSteps c path content := rfl
  unfold replaceInSteps at ha
  dsimp only at ha
  cases hmade : made.fault? with
  | some e =>
    refine .inl ⟨⟨.disk e, ?_⟩, fun h => ?_⟩
    · rw [ha, hmade]
    · cases h.1.1.symm.trans hmade
  | none =>
    rw [hmade] at ha
    dsimp only at ha
    cases hcreate : made.disk.createTemporary path c.draws with
    | error e =>
      refine .inl ⟨⟨e, ?_⟩, fun h => ?_⟩
      · rw [ha, hcreate]
      · obtain ⟨x, hx⟩ := h.1.2.1
        cases hx.symm.trans hcreate
    | ok x =>
      obtain ⟨temporary, created⟩ := x
      rw [hcreate] at ha
      dsimp only at ha
      obtain ⟨-, n, -, -, names, hstaged⟩ := createTemporary_eq_ok hcreate
      obtain ⟨left, hleft, hsettles, hall⟩ := hstaged.writeTemporary path content c.part
      cases hwrite : (created.writeTemporary temporary path content c.part).fault? with
      | some e =>
        refine .inl ⟨⟨e, ?_⟩, fun h => ?_⟩
        · rw [ha, hwrite]
          dsimp only
          rw [hleft.removeAll hmadewell]
        · cases (hsettles.2 h.1.2.2).symm.trans hwrite
      | none =>
        rw [hwrite] at ha
        dsimp only at ha
        obtain rfl := hall hwrite
        obtain ⟨⟨e, hmove⟩, hnoplace⟩ | ⟨q, hplace, hmove⟩ := hleft.moveFile_cases hmadewell path
        · refine .inl ⟨⟨e, ?_⟩, fun h => ?_⟩
          · rw [ha, hmove]
            dsimp only
            rw [hleft.removeAll hmadewell]
          · obtain ⟨q, hq⟩ := h.2
            exact hnoplace q hq
        · refine .inr ⟨⟨hmade, ⟨_, hcreate⟩, hsettles.1 hwrite⟩, q, hplace, ?_⟩
          rw [ha, hmove]

theorem replaced_replaceInSteps (hwell : d.root.WellFormed) (c : Chance) (path content : Text) :
    Replaced d path content (d.replaceInSteps c path content) := by
  obtain ⟨hfailed, -⟩ | ⟨-, hmoved⟩ := replaceInSteps_cases hwell c path content
  · exact .inl hfailed
  · exact .inr hmoved

end Replaced

end Disk

end LiteralAudit

/-!
## All or nothing

The target holds the new content, or what it held before; and no file but the target is touched in any case,
so that none is left behind.
-/

namespace LiteralAudit.Disk

variable {d : Disk} {path content : Text} {a : Attempt ReplaceError}

/-- A file that is put in its place leaves every other place as it was. -/
theorem keptAt_set_file {root : Entry} {names q : List Text} (content : Text)
    (hparent : root.IsDirAt names.dropLast) (hnodir : ¬ root.IsDirAt names) (hq : q ≠ names) :
    root.KeptAt (root.set (.file content) names) q := by
  rw [Entry.KeptAt, Entry.shape?_set _ hparent]
  split
  · next hwithin =>
    obtain ⟨rest, rfl⟩ := hwithin
    have hrest : rest ≠ [] := by simpa using hq
    have hnone : root.shape? (names ++ rest) = none := by
      rw [Entry.shape?, Entry.get?_append]
      cases hget : root.get? names with
      | none => rfl
      | some e =>
        obtain ⟨k, rest, rfl⟩ := List.exists_cons_of_ne_nil hrest
        cases e with
        | dir es => exact absurd ⟨es, hget⟩ hnodir
        | file content => rfl
        | link target => rfl
    rw [hnone, List.drop_left, Entry.shape?_file, if_neg hrest]
    exact .inl rfl
  · exact .inl rfl

theorem Replaced.target_of_ok (h : Replaced d path content a) (hok : a.fault? = none) :
    let made := (d.makeDirs (Path.parent path)).disk
    ∃ names, made.LeadsTo path false names ∧ a.disk.root.get? names = some (.file content) ∧
      (∀ q, q ≠ names → d.root.KeptAt a.disk.root q) ∧
      ((∀ target, made.root.get? names ≠ some (.link target)) →
        a.disk.contentOf path = .ok content) := by
  intro made
  obtain ⟨e, rfl⟩ | ⟨names, hplace, rfl⟩ := h
  · cases hok
  · obtain ⟨hleads, hnodir, hslash, -⟩ := placeFor_eq_ok_iff.1 hplace
    have hparent := isDirAt_dropLast_of_placeFor hplace
    refine ⟨names, hleads, ?_, ?_, ?_⟩
    · obtain ⟨es, hes⟩ := hparent
      exact Entry.get?_set_self _ (.inr ⟨_, hes⟩)
    · intro q hq
      exact (keptAt_makeDirs d _ q).trans (keptAt_set_file content hparent hnodir hq)
    · intro hnolink
      have hlocate : made.locate path false = .ok ⟨names, made.root.get? names⟩ :=
        locate_eq_ok_iff.2 ⟨hleads, rfl, by simp [hslash]⟩
      refine contentOf_of_entryAt?_file
        (entryAt?_eq_some_iff.2 ⟨_, locate_set_file hlocate hslash ?_ hnolink⟩)
      exact fun es hes => hnodir ⟨es, hes⟩

theorem Replaced.kept_of_fault (h : Replaced d path content a) (hfails : a.fault? ≠ none) :
    (∀ q, d.root.KeptAt a.disk.root q) ∧
    (∀ other t, d.contentOf other = .ok t → a.disk.contentOf other = .ok t) ∧
    (Path.clean path = path → d.entryAt? path = none → a.disk.entryAt? path = none) := by
  obtain ⟨e, rfl⟩ | ⟨names, hplace, rfl⟩ := h
  · exact ⟨keptAt_makeDirs d _, fun other t => contentOf_makeDirs _, entryAt?_makeDirs_of_none⟩
  · exact absurd rfl hfails

/-- A disk on which nothing can be written any more. -/
def fullDisk : Disk :=
  { root := .dir [("bl.json", .file "old")]
    refuses := fun step _ => if step = .write then some (.system "no space left on device") else none }

theorem wellFormed_fullDisk : fullDisk.root.WellFormed := by
  refine .dir ?_ (List.pairwise_singleton ..) ?_
  · intro x hx
    rw [List.mem_singleton.1 hx]
    decide
  · intro x hx
    rw [List.mem_singleton.1 hx]
    exact .file _

end LiteralAudit.Disk
