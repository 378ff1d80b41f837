import LiteralAudit.Proofs.Disk.Listing
import LiteralAudit.Proofs.Disk.WellFormed

/-!
# What making directories leaves alone

A directory is made with all directories above it, and some of them stay when one cannot be made. Whatever
there was is there still, and what is new is directories (`keptAt_makeDirs`). A file is read as before under
every path (`contentOf_makeDirs`). A path that led nowhere can lead somewhere once directories are made, but
not a cleaned one for which its own directory is made (`entryAt?_makeDirs_of_none`).
-/

namespace LiteralAudit

/-- What lies at a place is kept: it is there, or there was nothing and now there is a directory. -/
def Entry.KeptAt (before after : Entry) (q : List Text) : Prop :=
  after.shape? q = before.shape? q ∨ before.shape? q = none ∧ after.shape? q = some (.dir [])

namespace Entry.KeptAt

variable {a b c : Entry} {q : List Text}

theorem refl (a : Entry) (q : List Text) : KeptAt a a q := .inl rfl

theorem trans (hab : KeptAt a b q) (hbc : KeptAt b c q) : KeptAt a c q := by
  obtain hab | ⟨hnone, hdir⟩ := hab
  · obtain hbc | ⟨hnone, hdir⟩ := hbc
    · exact .inl (hbc.trans hab)
    · exact .inr ⟨hab.symm.trans hnone, hdir⟩
  · obtain hbc | ⟨hnone', -⟩ := hbc
    · exact .inr ⟨hnone, hbc.trans hdir⟩
    · cases hnone'.symm.trans hdir

end Entry.KeptAt

namespace Disk

variable {d made : Disk} {path content : Text}

theorem keptAt_mkdir (hmade : d.mkdir path = .ok made) (q : List Text) : d.root.KeptAt made.root q := by
  obtain ⟨names, hplace, rfl⟩ := mkdir_eq_ok hmade
  obtain ⟨hleads, hnone, -⟩ := locate_eq_ok_iff.1 hplace
  have hparent : d.root.IsDirAt names.dropLast := by
    obtain rfl | hparent := hleads.isDirAt_dropLast
    · cases hnone
    · exact hparent
  have hset : ({ d with root := d.root.set (.dir []) names } : Disk).root.shape? q =
    if names <+: q then (Entry.dir []).shape? (q.drop names.length) else d.root.shape? q :=
      Entry.shape?_set _ hparent q
  rw [Entry.KeptAt, hset]
  split
  · next hq =>
    obtain ⟨rest, rfl⟩ := hq
    have hfree : d.root.shape? (names ++ rest) = none := by
      rw [Entry.shape?, Entry.get?_append, hnone]
      rfl
    rw [List.drop_left, hfree]
    cases rest with
    | nil => exact .inr ⟨rfl, rfl⟩
    | cons k rest => exact .inl rfl
  · exact .inl rfl

/-- Whatever there was is there still once directories are made, and all that is new is directories. -/
theorem keptAt_makeDirs (d : Disk) (path : Text) (q : List Text) :
    d.root.KeptAt (d.makeDirs path).disk.root q :=
  makeDirs_keeps (P := fun d' => d.root.KeptAt d'.root q)
    (fun hkept hmade => hkept.trans (keptAt_mkdir hmade q)) (.refl _ _) path

/-- A file that can be read is read as before once directories are made. -/
theorem contentOf_makeDirs (other : Text) (h : d.contentOf path = .ok content) :
    (d.makeDirs other).disk.contentOf path = .ok content := by
  obtain ⟨names, hplace⟩ := lookAt_eq_ok_iff.1 (lookAt_of_contentOf h)
  have hkept := locate_makeDirs_of_file other hplace
  rw [contentOf, lookAt, hkept]

/-- A directory that was made, or was there, is there. -/
theorem exists_stat_makeDirs (h : (d.makeDirs path).fault? = none) :
    ∃ es, (d.makeDirs path).disk.stat path = .ok (.dir es) := by
  cases hstat : d.stat path with
  | ok e =>
    rw [makeDirs, makeDirsFrom, hstat] at h ⊢
    cases e with
    | dir es => exact ⟨es, hstat⟩
    | file content => cases h
    | link target => cases h
  | error e =>
    obtain ⟨above, -, hmade | ⟨hsame, es, hthere⟩⟩ := makeDirsFrom_of_missing hstat h
    · exact ⟨[], stat_mkdir hmade⟩
    · exact ⟨es, hsame ▸ stat_of_lstat hthere (by simp)⟩

section Spelled

variable {rooted : Bool} {ks : List Text} {name : Text}

/-- Below a directory that is empty or not there at all, there is nothing. -/
theorem lstat_below_new (hks : Path.Normal rooted ks) (hne : ks ≠ []) (hname : Path.Plain name)
    (hnew : d.stat (Path.spell rooted ks) = .ok (.dir []) ∨ ∃ e, d.stat (Path.spell rooted ks) = .error e)
    (e : Entry) : d.lstat (Path.spell rooted (ks ++ [name])) ≠ .ok e := by
  obtain hempty | ⟨r, hmissing⟩ := hnew
  · exact lstat_below_empty hks hne hname hempty e
  · intro hthere
    obtain ⟨names, hplace⟩ := lookAt_eq_ok_iff.1 hthere
    obtain ⟨hleads, -, -⟩ := locate_eq_ok_iff.1 hplace
    obtain ⟨-, -, dir, hdir, es, hes⟩ := leadsTo_above hks hne hname hleads
    cases (stat_eq_dir_iff.2 ⟨dir, hdir, hes⟩).symm.trans hmissing

/-- The root and the working directory are never made. -/
theorem mkdir_start_ne_ok (rooted : Bool) : d.mkdir (Path.spell rooted []) ≠ .ok made := by
  intro h
  obtain ⟨names, hplace, -⟩ := mkdir_eq_ok h
  obtain ⟨⟨-, -, hleads⟩, hnone, -⟩ := locate_eq_ok_iff.1 hplace
  cases rooted with
  | true =>
    have hroot : names = [] := by
      cases hleads
      rfl
    subst hroot
    cases hnone
  | false =>
    have hdot : ¬ IsName (Text.ofString ".") := fun hname => hname.1 (by decide)
    obtain ⟨es, hes⟩ := Leads.isDirAt_of_dots hdot hleads
    cases hnone.symm.trans hes

/-- The disk that is left when a directory that is missing is to be made: the one with what is above it, with
or without the directory itself. -/
theorem makeDirsFrom_disk_cases {path : Text} {e : DiskError} (hmissing : d.stat path = .error e)
    (depth : Nat) :
    let above : Attempt DiskError := if (writtenParent path).isEmpty then ⟨none, d⟩
      else d.makeDirsFrom (writtenParent path) depth
    let left := (d.makeDirsFrom path (depth + 1)).disk
    left = above.disk ∨ ∃ made, above.disk.mkdir path = .ok made ∧ left = made := by
  intro above left
  have hleft : left = (d.makeDirsFrom path (depth + 1)).disk := rfl
  rw [makeDirsFrom, hmissing] at hleft
  have habove : (if (writtenParent path).isEmpty then ⟨none, d⟩
      else d.makeDirsFrom (writtenParent path) depth : Attempt DiskError) = above := rfl
  dsimp only at hleft
  rw [habove] at hleft
  cases hfault : above.fault? with
  | some e =>
    rw [hfault] at hleft
    exact .inl hleft
  | none =>
    rw [hfault] at hleft
    dsimp only at hleft
    cases hmade : above.disk.mkdir path with
    | ok made =>
      rw [hmade] at hleft
      exact .inr ⟨made, rfl, hleft⟩
    | error e =>
      rw [hmade] at hleft
      dsimp only at hleft
      left
      rw [hleft]
      split <;> rfl

/-- What making the directory that is spelled leaves, whether it can be made or not: the disk as it was, or
one on which the directory is empty or is not there. -/
theorem makeDirsFrom_leaves (hks : Path.Normal rooted ks) (depth : Nat) :
    let left := (d.makeDirsFrom (Path.spell rooted ks) depth).disk
    left = d ∨ ks ≠ [] ∧ (∀ above, ks ≠ above ++ [Text.ofString ".."]) ∧
      (left.stat (Path.spell rooted ks) = .ok (.dir []) ∨
        ∃ e, left.stat (Path.spell rooted ks) = .error e) := by
  induction depth generalizing ks with
  | zero => exact .inl rfl
  | succ depth ih =>
    intro left
    cases hstat : d.stat (Path.spell rooted ks) with
    | ok e =>
      refine .inl ?_
      show (d.makeDirsFrom (Path.spell rooted ks) (depth + 1)).disk = d
      rw [makeDirsFrom, hstat]
    | error e =>
      have hcases := makeDirsFrom_disk_cases hstat depth
      obtain rfl | ⟨front, last, rfl⟩ := List.eq_nil_or_concat' ks
      · have hparent : (writtenParent (Path.spell rooted [])).isEmpty = true := by
          cases rooted <;> decide
        rw [if_pos hparent] at hcases
        obtain hleft | ⟨made, hmade, -⟩ := hcases
        · exact .inl hleft
        · exact absurd hmade (mkdir_start_ne_ok rooted)
      · have hfront : Path.Normal rooted front := by simpa using hks.dropLast
        rw [writtenParent_spell_concat (hks.isPart last (by simp))] at hcases
        -- What is left above: the disk as it was, or one on which nothing lies below `front`.
        obtain ⟨above, habove, hleft⟩ : ∃ above : Disk, (above = d ∨ front ≠ [] ∧
            (∀ ups, front ≠ ups ++ [Text.ofString ".."]) ∧
            (above.stat (Path.spell rooted front) = .ok (.dir []) ∨
              ∃ e, above.stat (Path.spell rooted front) = .error e)) ∧
            (left = above ∨ ∃ made, above.mkdir (Path.spell rooted (front ++ [last])) = .ok made ∧
              left = made) := by
          refine ⟨_, ?_, hcases⟩
          by_cases hnil : front = []
          · exact .inl (by rw [if_pos hnil]; rfl)
          · have hfull : (Path.spell rooted front).isEmpty = false := by
              simpa using Path.spell_ne_nil hfront
            rw [if_neg hnil, hfull, if_neg Bool.false_ne_true]
            exact ih hfront
        obtain hleft | ⟨made, hmade, hleft⟩ := hleft
        · obtain hsame | ⟨hne, hup, hnew⟩ := habove
          · exact .inl (hleft.trans hsame)
          · have hplain : Path.Plain last := hks.plain_of_not_up hne hup
            refine .inr ⟨by simp, ?_, .inr ?_⟩
            · intro ups hups
              exact hplain.ne_up (by simpa using (List.append_inj' hups rfl).2)
            · rw [hleft]
              cases hthere : above.stat (Path.spell rooted (front ++ [last])) with
              | error r => exact ⟨r, rfl⟩
              | ok x =>
                obtain hthere | ⟨target, hthere⟩ := lstat_of_stat hthere
                · exact absurd hthere (lstat_below_new hfront hne hplain hnew x)
                · exact absurd hthere (lstat_below_new hfront hne hplain hnew _)
        · rw [hleft]
          refine .inr ⟨by simp, ?_, .inl (stat_mkdir hmade)⟩
          intro ups hups
          rw [hups] at hks hmade
          exact mkdir_up_ne_ok hks hmade

end Spelled

/-- Where there is nothing under a cleaned path, there is nothing once its directory is made. -/
theorem entryAt?_makeDirs_of_none (hclean : Path.clean path = path) (hnone : d.entryAt? path = none) :
    (d.makeDirs (Path.parent path)).disk.entryAt? path = none := by
  have hnormal : Path.Normal (Path.isAbsolute path) (Path.kept path) := Path.normal_kept path
  have hpath : path = Path.spell (Path.isAbsolute path) (Path.kept path) := hclean.symm
  generalize Path.isAbsolute path = rooted at hnormal hpath
  generalize Path.kept path = ks at hnormal hpath
  subst hpath
  obtain rfl | ⟨front, last, rfl⟩ := List.eq_nil_or_concat' ks
  · have hparent : Path.parent (Path.spell rooted []) = Path.spell rooted [] := by
      cases rooted <;> decide
    obtain hsame | ⟨hne, -⟩ := makeDirsFrom_leaves (d := d) hnormal ((Path.spell rooted []).length + 1)
    · rw [hparent, makeDirs, hsame, hnone]
    · exact absurd rfl hne
  · have hfront : Path.Normal rooted front := by simpa using hnormal.dropLast
    rw [Path.parent_spell hfront (hnormal.isPart last (by simp)), makeDirs]
    obtain hsame | ⟨hne, hup, hnew⟩ :=
      makeDirsFrom_leaves (d := d) hfront ((Path.spell rooted front).length + 1)
    · rw [hsame, hnone]
    · rw [entryAt?]
      cases hthere : Disk.lstat _ (Path.spell rooted (front ++ [last])) with
      | error r => rfl
      | ok x => exact absurd hthere (lstat_below_new hfront hne (hnormal.plain_of_not_up hne hup) hnew x)

end Disk

end LiteralAudit
