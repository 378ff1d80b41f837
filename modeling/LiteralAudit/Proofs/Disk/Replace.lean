import LiteralAudit.Proofs.Disk.Walk

/-!
# Replacing a file

`Disk.replace` puts a file in the place of another in one step, after it has made the directories that
the file needs. `entryAt?_replace`: whether the replacement succeeds or fails at any of its steps, the
path leads to the new content or to what was there before, never to anything else. Directories that are
made leave every file where it is (`entryAt?_makeDirs_of_file`).
-/

namespace LiteralAudit.Disk

/-- What is at a path, a link at its end not followed. -/
def entryAt? (d : Disk) (path : Text) : Option Entry := (d.lstat path).toOption

theorem entryAt?_eq_some_iff {d : Disk} {path : Text} {e : Entry} :
    d.entryAt? path = some e ↔ ∃ names, d.locate path false = .ok ⟨names, some e⟩ := by
  unfold entryAt? lstat lookAt
  split
  · next names x h => simp [h, Except.toOption]
  · next h => simp [h, Except.toOption]
  · next h => simp [h, Except.toOption]

/-! ## Files -/

theorem entryAt?_eq_file_iff {d : Disk} {path content : Text} :
    d.entryAt? path = some (.file content) ↔ asksForDir path = false ∧
      ∃ names, d.LeadsTo path false names ∧ d.root.get? names = some (.file content) := by
  rw [entryAt?_eq_some_iff]
  constructor
  · rintro ⟨names, h⟩
    obtain ⟨hleads, hget, hdir⟩ := locate_eq_ok_iff.1 h
    refine ⟨?_, names, hleads, hget⟩
    rw [Bool.eq_false_iff]
    intro hslash
    cases hdir hslash _ rfl
  · rintro ⟨hslash, names, hleads, hget⟩
    refine ⟨names, locate_eq_ok_iff.2 ⟨hleads, hget, ?_⟩⟩
    simp [hslash]

theorem contentOf_of_entryAt?_file {d : Disk} {path content : Text}
    (h : d.entryAt? path = some (.file content)) : d.contentOf path = .ok content := by
  obtain ⟨hslash, names, ⟨hempty, hnul, hleads⟩, hget⟩ := entryAt?_eq_file_iff.1 h
  have hfollow : d.LeadsTo path true names := by
    refine ⟨hempty, hnul, ?_⟩
    rw [hslash] at hleads ⊢
    exact hleads.follow_end (by simp [hget])
  have hlocate : d.locate path true = .ok ⟨names, some (.file content)⟩ :=
    locate_eq_ok_iff.2 ⟨hfollow, hget, by simp [hslash]⟩
  rw [contentOf, lookAt, hlocate]

/-- Where there is nothing, nothing can be read. -/
theorem contentOf_of_entryAt?_none {d : Disk} {path : Text} (h : d.entryAt? path = none) :
    ∃ e, d.contentOf path = .error e := by
  have hlocate : ∀ names e, d.locate path true ≠ .ok ⟨names, some e⟩ := by
    intro names e htrue
    obtain ⟨⟨hempty, hnul, hleads⟩, hget, hdir⟩ := locate_eq_ok_iff.1 htrue
    suffices hsome : ∃ names e, d.locate path false = .ok ⟨names, some e⟩ by
      obtain ⟨names', e', hfalse⟩ := hsome
      rw [entryAt?_eq_some_iff.2 ⟨names', hfalse⟩] at h
      cases h
    cases hslash : asksForDir path with
    | true =>
      rw [hslash] at hleads
      refine ⟨names, e, locate_eq_ok_iff.2 ⟨⟨hempty, hnul, ?_⟩, hget, hdir⟩⟩
      rwa [hslash]
    | false =>
      rw [hslash] at hleads
      obtain ⟨names', e', hleads', hget'⟩ := hleads.exists_unfollowed hget
      refine ⟨names', e', locate_eq_ok_iff.2 ⟨⟨hempty, hnul, ?_⟩, hget', by simp [hslash]⟩⟩
      rwa [hslash]
  rw [contentOf, lookAt]
  cases hplace : d.locate path true with
  | error r => exact ⟨_, rfl⟩
  | ok place =>
    obtain ⟨names, e?⟩ := place
    cases e? with
    | none => exact ⟨_, rfl⟩
    | some e => exact absurd hplace (hlocate names e)

/-! ## Making directories -/

/-- What each new directory keeps is kept when a directory is made with all that is above it, also when not
all of them can be made. -/
theorem makeDirsFrom_keeps {P : Disk → Prop} {d : Disk}
    (hstep : ∀ {d made : Disk} {other : Text}, P d → d.mkdir other = .ok made → P made) (h : P d)
    (path : Text) (depth : Nat) : P (d.makeDirsFrom path depth).disk := by
  induction depth generalizing path with
  | zero => exact h
  | succ depth ih =>
    rw [makeDirsFrom]
    split
    · exact h
    · have habove : P (if (writtenParent path).isEmpty then ⟨none, d⟩
          else d.makeDirsFrom (writtenParent path) depth : Attempt DiskError).disk := by
        split
        · exact h
        · exact ih _
      dsimp only
      split
      · exact habove
      · split
        · next hmade => exact hstep habove hmade
        · split <;> exact habove

theorem makeDirs_keeps {P : Disk → Prop} {d : Disk}
    (hstep : ∀ {d made : Disk} {other : Text}, P d → d.mkdir other = .ok made → P made) (h : P d)
    (path : Text) : P (d.makeDirs path).disk :=
  makeDirsFrom_keeps hstep h path _

/-- A new directory leaves every file where it is. -/
theorem locate_mkdir_of_file {d made : Disk} {path other content : Text} {follow : Bool}
    {names : List Text} (hmade : d.mkdir other = .ok made)
    (h : d.locate path follow = .ok ⟨names, some (.file content)⟩) :
    made.locate path follow = .ok ⟨names, some (.file content)⟩ := by
  obtain ⟨⟨hempty, hnul, hleads⟩, hget, hslash⟩ := locate_eq_ok_iff.1 h
  unfold mkdir at hmade
  split at hmade
  · cases hmade
  · cases hmade
  · next place hplace =>
    split at hmade
    · cases hmade
    · cases hmade
      obtain ⟨hother, hnone, -⟩ := locate_eq_ok_iff.1 hplace
      have hparent := hother.isDirAt_dropLast
      have hnodir : ¬ d.root.IsDirAt place := Entry.not_isDirAt hnone (by simp)
      have hkept : ∀ {q x}, d.root.get? q = some x → (∀ es, x ≠ .dir es) →
          (d.root.set (.dir []) place).get? q = some x := by
        intro q x hq hx
        refine Entry.get?_set_of_not_dir _ hnodir hq hx ?_ hparent
        rintro rfl
        rw [hnone] at hq
        cases hq
      have hfile := hkept hget (by simp)
      refine locate_eq_ok_iff.2 ⟨⟨hempty, hnul, ?_⟩, hfile, hslash⟩
      refine hleads.of_kept ?_ ?_ ?_ ?_
      · rintro q ⟨es, hq⟩
        exact Entry.get?_set_dir _ hnodir hq
      · exact fun q target hq => hkept hq (by simp)
      · exact fun _ => Entry.not_isDirAt hfile (by simp)
      · simp [hfile]

/-- Directories that are made leave every file where it is, also when not all of them can be made. -/
theorem locate_makeDirs_of_file {d : Disk} {path content : Text} {follow : Bool} {names : List Text}
    (other : Text) (h : d.locate path follow = .ok ⟨names, some (.file content)⟩) :
    (d.makeDirs other).disk.locate path follow = .ok ⟨names, some (.file content)⟩ :=
  makeDirs_keeps (P := fun d => d.locate path follow = .ok ⟨names, some (.file content)⟩)
    (fun h hmade => locate_mkdir_of_file hmade h) h other

theorem entryAt?_makeDirs_of_file {d : Disk} {path content : Text} (other : Text)
    (h : d.entryAt? path = some (.file content)) :
    (d.makeDirs other).disk.entryAt? path = some (.file content) := by
  obtain ⟨names, hplace⟩ := entryAt?_eq_some_iff.1 h
  exact entryAt?_eq_some_iff.2 ⟨names, locate_makeDirs_of_file other hplace⟩

/-! ## Putting the file in its place -/

/-- What `moveInto` can do: it fails and changes nothing, or it sets the file at the place of the path. -/
theorem moveInto_cases (d : Disk) (path content : Text) :
    (∃ e, d.moveInto path content = ⟨some e, d⟩) ∨
    ∃ names e?, d.locate path false = .ok ⟨names, e?⟩ ∧ (∀ es, e? ≠ some (.dir es)) ∧
      asksForDir path = false ∧
      d.moveInto path content = ⟨none, { d with root := d.root.set (.file content) names }⟩ := by
  unfold moveInto
  dsimp only
  split
  · exact .inl ⟨_, rfl⟩
  · exact .inl ⟨_, rfl⟩
  · next names e? hnodir hplace =>
    split
    · exact .inl ⟨_, rfl⟩
    · next hslash =>
      split
      · exact .inl ⟨_, rfl⟩
      · exact .inr ⟨names, e?, hplace, hnodir, Bool.eq_false_iff.2 hslash, rfl⟩

/-- A file that was put in its place is found under its path. There must not be a directory or a link at
the place: the path may have led through it. -/
theorem locate_set_file {d : Disk} {path content : Text} {follow : Bool} {names : List Text}
    {e? : Option Entry} (hplace : d.locate path follow = .ok ⟨names, e?⟩) (hslash : asksForDir path = false)
    (hnodir : ∀ es, e? ≠ some (.dir es)) (hnolink : ∀ target, e? ≠ some (.link target)) :
    ({ d with root := d.root.set (.file content) names } : Disk).locate path follow =
      .ok ⟨names, some (.file content)⟩ := by
  obtain ⟨⟨hempty, hnul, hleads⟩, hget, -⟩ := locate_eq_ok_iff.1 hplace
  have hparent := hleads.isDirAt_dropLast (.inl rfl)
  have hnodir : ¬ d.root.IsDirAt names := Entry.not_isDirAt hget hnodir
  have hself : (d.root.set (.file content) names).get? names = some (.file content) := by
    refine Entry.get?_set_self _ (hparent.imp id ?_)
    rintro ⟨es, hes⟩
    exact ⟨_, hes⟩
  refine locate_eq_ok_iff.2 ⟨⟨hempty, hnul, ?_⟩, hself, by simp [hslash]⟩
  refine hleads.of_kept ?_ ?_ ?_ ?_
  · rintro q ⟨es, hq⟩
    exact Entry.get?_set_dir _ hnodir hq
  · intro q target hq
    refine Entry.get?_set_of_not_dir _ hnodir hq (by simp) ?_ hparent
    rintro rfl
    exact hnolink target (hget.symm.trans hq)
  · exact fun _ => Entry.not_isDirAt hself (by simp)
  · simp [hself]

theorem entryAt?_moveInto {d : Disk} {path content : Text}
    (hnolink : ∀ target, d.entryAt? path ≠ some (.link target)) :
    (d.moveInto path content).disk.entryAt? path =
      if (d.moveInto path content).fault?.isNone then some (.file content)
      else d.entryAt? path := by
  obtain ⟨e, h⟩ | ⟨names, e?, hplace, hnodir, hslash, h⟩ := d.moveInto_cases path content
  · rw [h]
    rfl
  · rw [h]
    refine entryAt?_eq_some_iff.2 ⟨names, locate_set_file hplace hslash hnodir ?_⟩
    rintro target rfl
    exact hnolink target (entryAt?_eq_some_iff.2 ⟨names, hplace⟩)

/-- What `replace` can do once the directories are made: it fails before the new content is complete, or
all depends on the last step. -/
theorem replace_cases (d : Disk) (path content : Text) :
    (∃ e, d.replace path content = ⟨some e, (d.makeDirs (Path.parent path)).disk⟩) ∨
    d.replace path content = (d.makeDirs (Path.parent path)).disk.moveInto path content := by
  unfold replace
  dsimp only
  split
  · exact .inl ⟨_, rfl⟩
  · split
    · exact .inl ⟨_, rfl⟩
    · exact .inr rfl

/-- A replacement that succeeds leaves the new content under the path, one that fails leaves what was
there once its directories were made. -/
theorem entryAt?_replace {d : Disk} {path content : Text}
    (hnolink : ∀ target, (d.makeDirs (Path.parent path)).disk.entryAt? path ≠ some (.link target)) :
    (d.replace path content).disk.entryAt? path =
      if (d.replace path content).fault?.isNone then some (.file content)
      else (d.makeDirs (Path.parent path)).disk.entryAt? path := by
  obtain ⟨e, h⟩ | h := d.replace_cases path content
  · rw [h]
    rfl
  · rw [h]
    exact entryAt?_moveInto hnolink

end LiteralAudit.Disk

/-!
## Writing a file

`Disk.writeFile` creates a file or empties the one that is there, and then fills it. Once it was written the
path leads to it (`locate_of_writeFile`), so that it is read as it was written
(`contentOf_of_writeFile`) and can be written again (`exists_writeFile`).
-/

namespace LiteralAudit.Disk

variable {d written : Disk} {path content : Text}

/-- What writing a file has found and done. -/
theorem writeFile_eq_ok (h : d.writeFile path content = .ok written) : ∃ names e?,
    d.locate path true = .ok ⟨names, e?⟩ ∧ (∀ e, e? = some e → e.isFile = true) ∧
      asksForDir path = false ∧ d.refuses .create path = none ∧
      written = { d with root := d.root.set (.file content) names } := by
  unfold writeFile at h
  cases hplace : d.locate path true with
  | error r =>
    rw [hplace] at h
    cases h
  | ok place =>
    obtain ⟨names, e?⟩ := place
    rw [hplace] at h
    cases e? with
    | none =>
      dsimp only at h
      split at h
      · cases h
      · next hslash =>
        split at h
        · cases h
        · next hallowed =>
          cases h
          exact ⟨names, none, rfl, by simp, Bool.eq_false_iff.2 hslash, hallowed, rfl⟩
    | some e =>
      dsimp only at h
      split at h
      · cases h
      · next hnot =>
        have hisFile : e.isFile = true := by simpa using hnot
        split at h
        · cases h
        · next hallowed =>
          cases h
          refine ⟨names, some e, rfl, by simpa using hisFile, ?_, hallowed, rfl⟩
          rw [Bool.eq_false_iff]
          intro hslash
          have hdir := (locate_eq_ok_iff.1 hplace).2.2 hslash e rfl
          cases e <;> simp [Entry.isFile, Entry.isDir] at hisFile hdir

theorem locate_of_writeFile (h : d.writeFile path content = .ok written) :
    ∃ names, written.locate path true = .ok ⟨names, some (.file content)⟩ := by
  obtain ⟨names, e?, hplace, hfile, hslash, -, rfl⟩ := writeFile_eq_ok h
  exact ⟨names, locate_set_file hplace hslash (fun es hes => by cases hfile _ hes)
    fun target htarget => by cases hfile _ htarget⟩

theorem contentOf_of_writeFile (h : d.writeFile path content = .ok written) :
    written.contentOf path = .ok content := by
  obtain ⟨names, hplace⟩ := locate_of_writeFile h
  rw [contentOf, lookAt, hplace]

/-- A file that was written can be written again. -/
theorem exists_writeFile (h : d.writeFile path content = .ok written) (other : Text) :
    ∃ again, written.writeFile path other = .ok again := by
  obtain ⟨names, hplace⟩ := locate_of_writeFile h
  have hallowed : written.refuses .create path = none := by
    obtain ⟨-, -, -, -, -, hallowed, rfl⟩ := writeFile_eq_ok h
    exact hallowed
  refine ⟨{ written with root := written.root.set (.file other) names }, ?_⟩
  unfold writeFile
  rw [hplace]
  simp only [Entry.isFile, Bool.not_true, Bool.false_eq_true, if_false, hallowed]

end LiteralAudit.Disk
