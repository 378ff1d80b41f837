import LiteralAudit.Proofs.Disk.Walk
import LiteralAudit.Proofs.Disk.Replace
import LiteralAudit.Proofs.Path.Clean

/-!
# What a directory lists

A directory and a file in it are reached by paths that share their way: the path of the file goes on from
where that of the directory leads (`Leads.concat`, `Leads.exists_above`). So a change that is made under
the one path is seen under the other.

* `makeDirsFrom_cases`: making a directory changes nothing, or the directory is new and empty.
* `readDir_replace`: replacing a file in a directory sets one entry of it.
* `contentOf_of_lookup_file`, `contentOf_of_lookup_none`: what is read under the path of an entry.

Paths are taken as cleaned ones, spelled from their parts.
-/

namespace LiteralAudit

/-- The directory in which an entry is set lists it, and what it listed before. -/
theorem Entry.get?_set_concat {e : Entry} {dir : List Text} {es : List (Text × Entry)} (new : Entry)
    (name : Text) (h : e.get? dir = some (.dir es)) :
    (e.set new (dir ++ [name])).get? dir = some (.dir (insert name new es)) := by
  induction dir generalizing e with
  | nil =>
    cases h
    rfl
  | cons m dir ih =>
    obtain ⟨child, hchild, h⟩ := Option.bind_eq_some_iff.1 h
    obtain ⟨next, rest, hrest⟩ : ∃ next rest, dir ++ [name] = next :: rest :=
      List.exists_cons_of_ne_nil (by simp)
    have ih := ih h
    rw [List.cons_append, hrest, set, hchild, get?_cons, entries, lookup_insert_self]
    rw [hrest] at ih
    exact ih

namespace Disk

/-! ## Ways that go on -/

namespace Leads

variable {root : Entry} {follow : Bool} {links : Nat} {here todo names : List Text} {part : Text}

/-- Each part on the way is a name, or one or two dots. -/
theorem isName_of_mem (h : Leads root follow links here todo names) (hpart : part ∈ todo)
    (hplain : Path.Plain part) : IsName part := by
  have hdot : ¬ (part == Text.ofString ".") = true := by simpa using hplain.ne_dot
  have hup : ¬ (part == Text.ofString "..") = true := by simpa using hplain.ne_up
  induction h with
  | stop => cases hpart
  | dot _ hisDot _ ih =>
    obtain rfl | hpart := List.mem_cons.1 hpart
    · exact absurd hisDot hdot
    · exact ih hpart
  | up _ _ hisUp _ ih =>
    obtain rfl | hpart := List.mem_cons.1 hpart
    · exact absurd hisUp hup
    · exact ih hpart
  | last _ hname _ _ =>
    rwa [List.mem_singleton.1 hpart]
  | enter _ hname _ _ ih =>
    obtain rfl | hpart := List.mem_cons.1 hpart
    · exact hname
    · exact ih hpart
  | link _ hname _ _ _ ih =>
    obtain rfl | hpart := List.mem_cons.1 hpart
    · exact hname
    · exact ih (List.mem_append_right _ hpart)

/-- A way to a directory goes on to an entry of it, which must be no link if that would be followed. -/
theorem concat (h : Leads root true links here todo names) (hdir : root.IsDirAt names)
    (hname : IsName part)
    (hnolink : follow = true → ∀ target, root.get? (names ++ [part]) ≠ some (.link target)) :
    Leads root follow links here (todo ++ [part]) (names ++ [part]) := by
  induction h with
  | @stop links here =>
    by_cases hinner : root.IsDirAt (here ++ [part])
    · exact .enter hdir hname hinner .stop
    · exact .last hdir hname hinner hnolink
  | dot hhere hdot _ ih => exact .dot hhere hdot (ih hdir hnolink)
  | up hhere hdot hup _ ih => exact .up hhere hdot hup (ih hdir hnolink)
  | last _ _ hlast _ => exact absurd hdir hlast
  | enter hhere hpart hnext _ ih => exact .enter hhere hpart hnext (ih hdir hnolink)
  | link hhere hpart hlink _ _ ih =>
    have hgo := ih hdir hnolink
    rw [List.append_assoc] at hgo
    exact .link hhere hpart hlink (by simp) hgo

/-- A way leads through a directory before its last part. -/
theorem exists_above {above : List Text} (h : Leads root follow links here (above ++ [part]) names) :
    ∃ dir, Leads root true links here above dir ∧ root.IsDirAt dir := by
  generalize htodo : above ++ [part] = todo at h
  induction h generalizing above with
  | stop => simp at htodo
  | dot hhere hdot hgo ih =>
    obtain ⟨rfl, -⟩ | ⟨above, rfl, hrest⟩ := List.append_eq_cons_iff.1 htodo
    · exact ⟨_, .stop, hhere⟩
    · obtain ⟨dir, hdir, hisDir⟩ := ih hrest.symm
      exact ⟨dir, .dot hhere hdot hdir, hisDir⟩
  | up hhere hdot hup hgo ih =>
    obtain ⟨rfl, -⟩ | ⟨above, rfl, hrest⟩ := List.append_eq_cons_iff.1 htodo
    · exact ⟨_, .stop, hhere⟩
    · obtain ⟨dir, hdir, hisDir⟩ := ih hrest.symm
      exact ⟨dir, .up hhere hdot hup hdir, hisDir⟩
  | last hhere hname hlast hlink =>
    obtain ⟨rfl, -⟩ | ⟨above, rfl, hrest⟩ := List.append_eq_cons_iff.1 htodo
    · exact ⟨_, .stop, hhere⟩
    · simp at hrest
  | enter hhere hname hnext hgo ih =>
    obtain ⟨rfl, -⟩ | ⟨above, rfl, hrest⟩ := List.append_eq_cons_iff.1 htodo
    · exact ⟨_, .stop, hhere⟩
    · obtain ⟨dir, hdir, hisDir⟩ := ih hrest.symm
      exact ⟨dir, .enter hhere hname hnext hdir, hisDir⟩
  | link hhere hname hlink hmore hgo ih =>
    obtain ⟨rfl, -⟩ | ⟨above, rfl, rfl⟩ := List.append_eq_cons_iff.1 htodo
    · exact ⟨_, .stop, hhere⟩
    · obtain ⟨dir, hdir, hisDir⟩ := ih (List.append_assoc ..)
      exact ⟨dir, .link hhere hname hlink (by simp) hdir, hisDir⟩

/-- One or two dots at the end lead to a directory that is there. -/
theorem isDirAt_of_dots {above : List Text} (hdots : ¬ IsName part)
    (h : Leads root follow links here (above ++ [part]) names) : root.IsDirAt names := by
  generalize htodo : above ++ [part] = todo at h
  induction h generalizing above with
  | stop => simp at htodo
  | @dot links here _ rest names hhere hdot hgo ih =>
    obtain ⟨rfl, heq⟩ | ⟨above, rfl, hrest⟩ := List.append_eq_cons_iff.1 htodo
    · obtain ⟨rfl, rfl⟩ := List.cons.inj heq
      cases hgo
      exact hhere
    · exact ih hrest.symm
  | @up links here _ rest names hhere hdot hup hgo ih =>
    obtain ⟨rfl, heq⟩ | ⟨above, rfl, hrest⟩ := List.append_eq_cons_iff.1 htodo
    · obtain ⟨rfl, rfl⟩ := List.cons.inj heq
      cases hgo
      by_cases hroot : here = []
      · subst hroot
        exact hhere
      · obtain ⟨es, hes⟩ := hhere
        refine Entry.exists_dir_above hes (List.dropLast_prefix here) fun hsame => hroot ?_
        have hlen := congrArg List.length hsame
        rw [List.length_dropLast] at hlen
        exact List.eq_nil_of_length_eq_zero (by omega)
    · exact ih hrest.symm
  | last hhere hpart hlast hlink =>
    obtain ⟨rfl, heq⟩ | ⟨above, rfl, hrest⟩ := List.append_eq_cons_iff.1 htodo
    · obtain ⟨rfl, -⟩ := List.cons.inj heq
      exact absurd hpart hdots
    · simp at hrest
  | enter hhere hpart hnext hgo ih =>
    obtain ⟨rfl, heq⟩ | ⟨above, rfl, hrest⟩ := List.append_eq_cons_iff.1 htodo
    · obtain ⟨rfl, -⟩ := List.cons.inj heq
      exact absurd hpart hdots
    · exact ih hrest.symm
  | link hhere hpart hlink hmore hgo ih =>
    obtain ⟨rfl, heq⟩ | ⟨above, rfl, rfl⟩ := List.append_eq_cons_iff.1 htodo
    · obtain ⟨rfl, -⟩ := List.cons.inj heq
      exact absurd hpart hdots
    · exact ih (List.append_assoc ..)

/-- A way to a place where a directory was made leads to it. -/
theorem of_made {root' : Entry} (h : Leads root follow links here todo names)
    (hdirs : ∀ q, root.IsDirAt q → root'.IsDirAt q)
    (hlinks : ∀ q target, root.get? q = some (.link target) → root'.get? q = some (.link target))
    (hmade : root'.IsDirAt names) : Leads root' true links here todo names := by
  induction h with
  | stop => exact .stop
  | dot hdir hdot _ ih => exact .dot (hdirs _ hdir) hdot (ih hmade)
  | up hdir hdot hup _ ih => exact .up (hdirs _ hdir) hdot hup (ih hmade)
  | last hdir hname _ _ => exact .enter (hdirs _ hdir) hname hmade .stop
  | enter hdir hname hnext _ ih => exact .enter (hdirs _ hdir) hname (hdirs _ hnext) (ih hmade)
  | link hdir hname hlink _ _ ih =>
    exact .link (hdirs _ hdir) hname (hlinks _ _ hlink) (by simp) (ih hmade)

end Leads

/-! ## Paths of entries -/

theorem noNul_spell_concat {rooted : Bool} {ks : List Text} (hne : ks ≠ []) (name : Text) :
    (Path.spell rooted (ks ++ [name])).contains 0 =
      ((Path.spell rooted ks).contains 0 || name.contains 0) := by
  have hslash : ((0 : UInt8) == ('/' : UInt8)) = false := rfl
  rw [Path.spell_concat, if_neg hne, List.contains_append, List.contains_cons, hslash, Bool.false_or]

section Spelled

variable {d : Disk} {rooted : Bool} {ks : List Text} {name : Text} (hks : Path.Normal rooted ks)
  (hne : ks ≠ [])

include hks hne

theorem partsFromRoot_spell :
    d.partsFromRoot (Path.spell rooted ks) = (if rooted then [] else Path.parts d.cwd) ++ ks := by
  rw [partsFromRoot, Path.isAbsolute_spell hks, Path.parts_spell hks]
  simp [hne]

theorem asksForDir_spell : asksForDir (Path.spell rooted ks) = false := by
  obtain ⟨front, last, rfl⟩ : ∃ front last, ks = front ++ [last] :=
    ⟨_, _, (List.dropLast_append_getLast hne).symm⟩
  obtain ⟨hnil, hslash⟩ := hks.isPart last (by simp)
  have hend : ∀ p : Text, asksForDir (p ++ last) = false := by
    intro p
    rw [asksForDir, List.getLast?_append_of_ne_nil p hnil, beq_eq_false_iff_ne]
    exact fun h => hslash (List.mem_of_getLast? h)
  rw [Path.spell_concat]
  split
  · split
    · exact hend [('/' : UInt8)]
    · exact hend []
  · rw [List.append_cons]
    exact hend _

variable (hname : Path.Plain name)

include hname

/-- The path of an entry goes on where that of its directory leads. -/
theorem leadsTo_concat (follow : Bool) {dir : List Text} (hshort : IsName name)
    (hnul : name.contains 0 = false) (h : d.LeadsTo (Path.spell rooted ks) true dir)
    (hdir : d.root.IsDirAt dir) (hnolink : ∀ target, d.root.get? (dir ++ [name]) ≠ some (.link target)) :
    d.LeadsTo (Path.spell rooted (ks ++ [name])) follow (dir ++ [name]) := by
  have hnormal := hks.concat hname
  refine ⟨by simpa using Path.spell_ne_nil hnormal, ?_, ?_⟩
  · rw [noNul_spell_concat hne, h.noNul, hnul]
    rfl
  · have hleads := h.leads
    rw [partsFromRoot_spell hks hne, asksForDir_spell hks hne, Bool.or_false] at hleads
    rw [partsFromRoot_spell hnormal (by simp), asksForDir_spell hnormal (by simp), Bool.or_false,
      ← List.append_assoc]
    exact hleads.concat hdir hshort fun _ => hnolink

/-- Where the path of an entry leads, that of its directory leads to a directory, and the entry has a name
that is not too long. -/
theorem leadsTo_above {follow : Bool} {names : List Text}
    (h : d.LeadsTo (Path.spell rooted (ks ++ [name])) follow names) :
    IsName name ∧ name.contains 0 = false ∧
      ∃ dir, d.LeadsTo (Path.spell rooted ks) true dir ∧ d.root.IsDirAt dir := by
  have hnormal := hks.concat hname
  have hleads := h.leads
  have hnul := h.noNul
  rw [noNul_spell_concat hne, Bool.or_eq_false_iff] at hnul
  rw [partsFromRoot_spell hnormal (by simp), ← List.append_assoc] at hleads
  obtain ⟨dir, hdir, hisDir⟩ := hleads.exists_above
  have hempty : (Path.spell rooted ks).isEmpty = false := by simpa using Path.spell_ne_nil hks
  refine ⟨hleads.isName_of_mem (by simp) hname, hnul.2, dir, ⟨hempty, hnul.1, ?_⟩, hisDir⟩
  rwa [partsFromRoot_spell hks hne, asksForDir_spell hks hne, Bool.or_false]

end Spelled

/-! ## Directories that list their entries -/

section Directories

variable {d made : Disk} {path : Text} {es : List (Text × Entry)}

theorem stat_eq_dir_iff : d.stat path = .ok (.dir es) ↔
    ∃ names, d.LeadsTo path true names ∧ d.root.get? names = some (.dir es) := by
  rw [stat, lookAt_eq_ok_iff]
  constructor
  · rintro ⟨names, h⟩
    obtain ⟨hleads, hget, -⟩ := locate_eq_ok_iff.1 h
    exact ⟨names, hleads, hget⟩
  · rintro ⟨names, hleads, hget⟩
    exact ⟨names, locate_eq_ok_iff.2 ⟨hleads, hget, by rintro - _ ⟨⟩; rfl⟩⟩

theorem readDir_eq_ok_iff : d.readDir path = .ok es ↔ d.stat path = .ok (.dir es) := by
  rw [stat, lookAt_eq_ok_iff, ← @lookAt_eq_ok_iff d "open"]
  unfold readDir
  split
  · next h => simp [h]
  · next hnodir h =>
    rw [h]
    simp only [reduceCtorEq, Except.ok.injEq, false_iff]
    exact fun heq => hnodir es heq
  · next h => simp [h]

theorem lookAt_of_contentOf {content : Text} (h : d.contentOf path = .ok content) :
    d.lookAt "open" path true = .ok (.file content) := by
  unfold contentOf at h
  split at h
  · next hfile =>
    cases h
    exact hfile
  · cases h
  · cases h

/-! ## Directories that are made -/

theorem mkdir_eq_ok (h : d.mkdir path = .ok made) : ∃ names, d.locate path false = .ok ⟨names, none⟩ ∧
    made = { d with root := d.root.set (.dir []) names } := by
  unfold mkdir at h
  split at h
  · cases h
  · cases h
  · next names hplace =>
    split at h
    · cases h
    · cases h
      exact ⟨names, hplace, rfl⟩

/-- A directory that was made is there, and empty. -/
theorem stat_mkdir (h : d.mkdir path = .ok made) : made.stat path = .ok (.dir []) := by
  obtain ⟨names, hplace, rfl⟩ := mkdir_eq_ok h
  obtain ⟨⟨hempty, hnul, hleads⟩, hnone, -⟩ := locate_eq_ok_iff.1 hplace
  have hparent := hleads.isDirAt_dropLast (.inl rfl)
  have hnodir : ¬ d.root.IsDirAt names := Entry.not_isDirAt hnone (by simp)
  have hself : (d.root.set (.dir []) names).get? names = some (.dir []) := by
    refine Entry.get?_set_self _ (hparent.imp id ?_)
    rintro ⟨es, hes⟩
    exact ⟨_, hes⟩
  refine stat_eq_dir_iff.2 ⟨names, ⟨hempty, hnul, ?_⟩, hself⟩
  rw [Bool.true_or]
  refine hleads.of_made ?_ ?_ ⟨[], hself⟩
  · rintro q ⟨es, hq⟩
    exact Entry.get?_set_dir _ hnodir hq
  · intro q target hq
    refine Entry.get?_set_of_not_dir _ hnodir hq (by simp) ?_ hparent
    rintro rfl
    cases hnone.symm.trans hq

/-- How a directory that is missing is made: what is above it first, and then it is made itself, unless it
is there by now. -/
theorem makeDirsFrom_of_missing {e : DiskError} {depth : Nat} (hmissing : d.stat path = .error e)
    (h : (d.makeDirsFrom path (depth + 1)).fault? = none) : ∃ above,
      (if (writtenParent path).isEmpty then ⟨none, d⟩
        else d.makeDirsFrom (writtenParent path) depth) = (⟨none, above⟩ : Attempt DiskError) ∧
      (above.mkdir path = .ok (d.makeDirsFrom path (depth + 1)).disk ∨
        (d.makeDirsFrom path (depth + 1)).disk = above ∧ ∃ es, above.lstat path = .ok (.dir es)) := by
  rw [makeDirsFrom, hmissing] at h ⊢
  dsimp only at h ⊢
  generalize (if (writtenParent path).isEmpty then ⟨none, d⟩
    else d.makeDirsFrom (writtenParent path) depth : Attempt DiskError) = a at h ⊢
  obtain ⟨fault?, above⟩ := a
  cases fault? with
  | some e => cases h
  | none =>
    refine ⟨above, rfl, ?_⟩
    dsimp only at h ⊢
    cases hmade : above.mkdir path with
    | ok made => exact .inl rfl
    | error e =>
      rw [hmade] at h
      dsimp only at h
      split at h
      · next es hdir => exact .inr ⟨rfl, es, hdir⟩
      · cases h

theorem makeDirs_of_dir (h : d.stat path = .ok (.dir es)) : d.makeDirs path = ⟨none, d⟩ := by
  rw [makeDirs, makeDirsFrom, h]
  rfl

end Directories

/-- A path without its last part, as it is written. -/
theorem writtenParent_spell_concat {rooted : Bool} {ks : List Text} {name : Text}
    (hname : Path.IsPart name) :
    writtenParent (Path.spell rooted (ks ++ [name])) = if ks = [] then [] else Path.spell rooted ks := by
  obtain ⟨hnil, hslash⟩ := hname
  have hname : ∀ b ∈ name.reverse, (b != ('/' : UInt8)) = true := by
    intro b hb
    rw [bne_iff_ne]
    rintro rfl
    exact hslash (List.mem_reverse.1 hb)
  have htrim : ∀ p : Text, Text.trimEnd (· == '/') (p ++ name) = p ++ name := by
    intro p
    obtain ⟨b, rest, hrest⟩ := List.exists_cons_of_ne_nil (List.reverse_ne_nil_iff.2 hnil)
    have hb : (b == ('/' : UInt8)) = false := by
      simpa using hname b (by rw [hrest]; exact List.mem_cons_self)
    rw [Text.trimEnd, List.reverse_append, hrest, List.cons_append, List.dropWhile_cons, hb,
      if_neg Bool.false_ne_true, ← List.cons_append, ← hrest, ← List.reverse_append,
      List.reverse_reverse]
  have hcut : ∀ front : Text, writtenParent (front ++ ('/' : UInt8) :: name) = front := by
    intro front
    rw [writtenParent, List.append_cons, htrim, List.reverse_append,
      List.dropWhile_append_of_pos hname]
    simp
  rw [Path.spell_concat]
  split
  · split
    · exact hcut []
    · have hwhole := htrim []
      rw [List.nil_append] at hwhole
      rw [writtenParent, hwhole, List.dropWhile_eq_nil_iff.2 hname]
      rfl
  · exact hcut _

theorem LeadsTo.unique {d : Disk} {path : Text} {follow : Bool} {names names' : List Text}
    (h : d.LeadsTo path follow names) (h' : d.LeadsTo path follow names') : names = names' := by
  have hwalk := (walk_of_leads h.leads).symm.trans (walk_of_leads h'.leads)
  simp only [Except.ok.injEq, Place.mk.injEq] at hwalk
  exact hwalk.1

section MakeDirs

variable {d : Disk} {rooted : Bool} {ks : List Text}

/-- Two dots are never made. -/
theorem mkdir_up_ne_ok {made : Disk} (hks : Path.Normal rooted (ks ++ [Text.ofString ".."])) :
    d.mkdir (Path.spell rooted (ks ++ [Text.ofString ".."])) ≠ .ok made := by
  intro h
  obtain ⟨names, hplace, -⟩ := mkdir_eq_ok h
  obtain ⟨⟨-, -, hleads⟩, hnone, -⟩ := locate_eq_ok_iff.1 hplace
  rw [partsFromRoot_spell hks (by simp), ← List.append_assoc] at hleads
  obtain ⟨es, hes⟩ := hleads.isDirAt_of_dots fun hname => hname.2.1 (by decide)
  cases hnone.symm.trans hes

/-- Below a directory that is empty there is nothing. -/
theorem lstat_below_empty {name : Text} (hks : Path.Normal rooted ks) (hne : ks ≠ [])
    (hname : Path.Plain name) (h : d.stat (Path.spell rooted ks) = .ok (.dir [])) (e : Entry) :
    d.lstat (Path.spell rooted (ks ++ [name])) ≠ .ok e := by
  intro hentry
  obtain ⟨names, hplace⟩ := lookAt_eq_ok_iff.1 hentry
  obtain ⟨hleads, hget, -⟩ := locate_eq_ok_iff.1 hplace
  obtain ⟨hshort, hnul, -⟩ := leadsTo_above hks hne hname hleads
  obtain ⟨dir, hdir, hempty⟩ := stat_eq_dir_iff.1 h
  have hnone : d.root.get? (dir ++ [name]) = none := Entry.get?_concat hempty name
  have hto := leadsTo_concat hks hne hname false hshort hnul hdir ⟨[], hempty⟩
    (by simp [hnone])
  rw [hleads.unique hto, hnone] at hget
  cases hget

/-- What comes of making the directory that is spelled, and all above it: nothing was changed, as it was
there, or it is new and empty. -/
theorem makeDirsFrom_cases (hks : Path.Normal rooted ks) (hne : ks ≠ []) (depth : Nat)
    (h : (d.makeDirsFrom (Path.spell rooted ks) depth).fault? = none) :
    ((d.makeDirsFrom (Path.spell rooted ks) depth).disk = d ∧
      ∃ es, d.stat (Path.spell rooted ks) = .ok (.dir es)) ∨
    ((∀ above, ks ≠ above ++ [Text.ofString ".."]) ∧
      (∃ e, d.stat (Path.spell rooted ks) = .error e) ∧
      (d.makeDirsFrom (Path.spell rooted ks) depth).disk.stat (Path.spell rooted ks) = .ok (.dir [])) := by
  induction depth generalizing ks with
  | zero => cases h
  | succ depth ih =>
    cases hstat : d.stat (Path.spell rooted ks) with
    | ok e =>
      rw [makeDirsFrom, hstat] at h ⊢
      cases e with
      | dir es => exact .inl ⟨rfl, es, rfl⟩
      | file content => cases h
      | link target => cases h
    | error e =>
      obtain ⟨front, last, rfl⟩ : ∃ front last, ks = front ++ [last] :=
        ⟨_, _, (List.dropLast_append_getLast hne).symm⟩
      obtain ⟨above, habove, hmade⟩ := makeDirsFrom_of_missing hstat h
      rw [writtenParent_spell_concat (hks.isPart last (by simp))] at habove
      right
      obtain hmade | ⟨-, es, hthere⟩ := hmade
      · refine ⟨?_, ⟨e, rfl⟩, stat_mkdir hmade⟩
        intro ups hups
        rw [hups] at hks hmade
        exact mkdir_up_ne_ok hks hmade
      · -- It would have been there before, or lie in a directory that is new.
        exfalso
        have hunchanged : above ≠ d := by
          rintro rfl
          rw [stat_of_lstat hthere (by simp)] at hstat
          cases hstat
        by_cases hfront : front = []
        · rw [if_pos hfront] at habove
          exact hunchanged (congrArg Attempt.disk habove).symm
        · have hnormal : Path.Normal rooted front := by
            simpa using hks.dropLast
          have hparent : (Path.spell rooted front).isEmpty = false := by
            simpa using Path.spell_ne_nil hnormal
          rw [if_neg hfront, hparent, if_neg Bool.false_ne_true] at habove
          have hok : (d.makeDirsFrom (Path.spell rooted front) depth).fault? = none := by rw [habove]
          obtain ⟨hsame, -⟩ | ⟨hup, -, hempty⟩ := ih hnormal hfront hok
          · rw [habove] at hsame
            exact hunchanged hsame
          · rw [habove] at hempty
            exact lstat_below_empty hnormal hfront (hks.plain_of_not_up hfront hup) hempty _ hthere

/-- The entries that are listed at a path: those of a directory, or none where nothing is there yet. -/
def Lists (d : Disk) (path : Text) (es : List (Text × Entry)) : Prop :=
  d.readDir path = .ok es ∨ es = [] ∧ ∃ e, d.readDir path = .error e ∧ e.isMissing = true

/-- A directory that was made lists what was listed before. -/
theorem readDir_makeDirs {es : List (Text × Entry)} (hks : Path.Normal rooted ks) (hne : ks ≠ [])
    (hlists : d.Lists (Path.spell rooted ks) es)
    (hok : (d.makeDirs (Path.spell rooted ks)).fault? = none) :
    (d.makeDirs (Path.spell rooted ks)).disk.readDir (Path.spell rooted ks) = .ok es := by
  obtain ⟨hsame, es', hthere⟩ | ⟨-, ⟨e, hmissing⟩, hnew⟩ := makeDirsFrom_cases hks hne _ hok
  · rw [← readDir_eq_ok_iff] at hthere
    obtain hread | ⟨-, e, hread, -⟩ := hlists
    · rw [makeDirs, hsame, hread]
    · cases hthere.symm.trans hread
  · rw [← readDir_eq_ok_iff] at hnew
    obtain hread | ⟨rfl, -⟩ := hlists
    · rw [readDir_eq_ok_iff, hmissing] at hread
      cases hread
    · exact hnew

end MakeDirs

/-! ## Files in a directory -/

section Files

variable {d : Disk} {rooted : Bool} {ks : List Text} {name content : Text} {es : List (Text × Entry)}
  (hks : Path.Normal rooted ks) (hne : ks ≠ []) (hname : Path.Plain name)

include hks hne hname

/-- A file that is replaced in a directory is set among its entries. -/
theorem readDir_replace (hread : d.readDir (Path.spell rooted ks) = .ok es)
    (hnolink : ∀ target, es.lookup name ≠ some (.link target))
    (hok : (d.replace (Path.spell rooted (ks ++ [name])) content).fault? = none) :
    (d.replace (Path.spell rooted (ks ++ [name])) content).disk.readDir (Path.spell rooted ks) =
      .ok (Entry.insert name (.file content) es) := by
  rw [readDir_eq_ok_iff] at hread ⊢
  have hmade : d.makeDirs (Path.parent (Path.spell rooted (ks ++ [name]))) = ⟨none, d⟩ := by
    rw [Path.parent_spell hks hname.isPart, makeDirs_of_dir hread]
  obtain ⟨dir, hdir, hget⟩ := stat_eq_dir_iff.1 hread
  obtain ⟨e, hfailed⟩ | hmoved := d.replace_cases (Path.spell rooted (ks ++ [name])) content
  · rw [hfailed] at hok
    cases hok
  · rw [hmoved, hmade] at hok ⊢
    obtain ⟨e, hfailed⟩ | ⟨names, e?, hplace, hnodir, -, hset⟩ :=
      d.moveInto_cases (Path.spell rooted (ks ++ [name])) content
    · rw [hfailed] at hok
      cases hok
    · obtain ⟨hleads, hentry, -⟩ := locate_eq_ok_iff.1 hplace
      obtain ⟨hshort, hnul, -⟩ := leadsTo_above hks hne hname hleads
      have hlookup : d.root.get? (dir ++ [name]) = es.lookup name := Entry.get?_concat hget name
      have hto := leadsTo_concat hks hne hname false hshort hnul hdir ⟨es, hget⟩
        (by rwa [hlookup])
      obtain rfl := hleads.unique hto
      have hnodir : ¬ d.root.IsDirAt (dir ++ [name]) := Entry.not_isDirAt hentry hnodir
      have hafter := Entry.get?_set_concat (.file content) name hget
      rw [hset]
      refine stat_eq_dir_iff.2 ⟨dir, ⟨hdir.nonempty, hdir.noNul, ?_⟩, hafter⟩
      refine hdir.leads.of_kept ?_ ?_ ?_ ?_
      · rintro q ⟨es', hq⟩
        exact Entry.get?_set_dir _ hnodir hq
      · intro q target hq
        refine Entry.get?_set_of_not_dir _ hnodir hq (by simp) ?_ (.inr ?_)
        · rintro rfl
          exact hnolink target (hlookup.symm.trans hq)
        · rw [List.dropLast_concat]
          exact ⟨es, hget⟩
      · exact fun h => absurd ⟨es, hget⟩ h
      · simp [hafter]

/-- Where nothing is refused, a file can be put in the place of a file of the directory, or beside its
entries. -/
theorem replace_of_dir {dir : List Text} (hdir : d.LeadsTo (Path.spell rooted ks) true dir)
    (hget : d.root.get? dir = some (.dir es)) (hshort : name.length + 5 ≤ nameLimit)
    (hnul : name.contains 0 = false) (hfree : ∀ e ∈ es.lookup name, e.isFile = true)
    (hallowed : ∀ step path, d.refuses step path = none) (content : Text) :
    d.replace (Path.spell rooted (ks ++ [name])) content =
      ⟨none, { d with root := d.root.set (.file content) (dir ++ [name]) }⟩ := by
  have hthere : d.stat (Path.spell rooted ks) = .ok (.dir es) := stat_eq_dir_iff.2 ⟨dir, hdir, hget⟩
  have hslash := asksForDir_spell (hks.concat hname) (by simp)
  have hplain : IsName name := ⟨by simpa using hname.ne_dot, by simpa using hname.ne_up, by omega⟩
  have hentry : d.root.get? (dir ++ [name]) = es.lookup name := Entry.get?_concat hget name
  have hnolink : ∀ target, d.root.get? (dir ++ [name]) ≠ some (.link target) := by
    intro target hlink
    cases hfree _ (hentry.symm.trans hlink)
  have hplace : d.locate (Path.spell rooted (ks ++ [name])) false = .ok ⟨dir ++ [name], es.lookup name⟩ :=
    locate_eq_ok_iff.2 ⟨leadsTo_concat hks hne hname false hplain hnul hdir ⟨es, hget⟩ hnolink, hentry,
      by simp [hslash]⟩
  have hstaged : d.stagingFault? (Path.spell rooted (ks ++ [name])) = none := by
    have hnoslash : name.contains '/' = false := by simpa using hname.isPart.2
    rw [stagingFault?, Path.base_spell hks hname, hnoslash, if_neg (by simp), if_neg (by omega),
      List.findSome?_eq_none_iff]
    simp [hallowed]
  have hmoved : d.moveInto (Path.spell rooted (ks ++ [name])) content =
      ⟨none, { d with root := d.root.set (.file content) (dir ++ [name]) }⟩ := by
    rw [asksForDir] at hslash
    unfold moveInto
    rw [hplace]
    cases hlookup : es.lookup name with
    | none => simp only [hslash, hallowed, Bool.false_eq_true, if_false]
    | some e =>
      cases e with
      | file old => simp only [hslash, hallowed, Bool.false_eq_true, if_false]
      | dir es' => cases hfree _ hlookup
      | link target => cases hfree _ hlookup
  rw [replace, Path.parent_spell hks hname.isPart, makeDirs_of_dir hthere]
  simp only [hstaged, hmoved]

theorem contentOf_of_lookup_file (hshort : IsName name) (hnul : name.contains 0 = false)
    (hread : d.readDir (Path.spell rooted ks) = .ok es) (hlookup : es.lookup name = some (.file content)) :
    d.contentOf (Path.spell rooted (ks ++ [name])) = .ok content := by
  obtain ⟨dir, hdir, hget⟩ := stat_eq_dir_iff.1 (readDir_eq_ok_iff.1 hread)
  have hentry : d.root.get? (dir ++ [name]) = some (.file content) := by
    rw [Entry.get?_concat hget, hlookup]
  have hto := leadsTo_concat hks hne hname true hshort hnul hdir ⟨es, hget⟩ (by simp [hentry])
  have hplace : d.locate (Path.spell rooted (ks ++ [name])) true =
      .ok ⟨dir ++ [name], some (.file content)⟩ := by
    refine locate_eq_ok_iff.2 ⟨hto, hentry, ?_⟩
    simp [asksForDir_spell (hks.concat hname)]
  rw [contentOf, lookAt, hplace]

/-- Where nothing is listed under a name, nothing is read. -/
theorem contentOf_of_lookup_none (hlists : d.Lists (Path.spell rooted ks) es)
    (hlookup : es.lookup name = none) :
    ∃ e, d.contentOf (Path.spell rooted (ks ++ [name])) = .error e := by
  cases hcontent : d.contentOf (Path.spell rooted (ks ++ [name])) with
  | error e => exact ⟨e, rfl⟩
  | ok content =>
    exfalso
    obtain ⟨names, hplace⟩ := lookAt_eq_ok_iff.1 (lookAt_of_contentOf hcontent)
    obtain ⟨hleads, hentry, -⟩ := locate_eq_ok_iff.1 hplace
    obtain ⟨hshort, hnul, dir, hdir, es', hget⟩ := leadsTo_above hks hne hname hleads
    have hread := readDir_eq_ok_iff.2 (stat_eq_dir_iff.2 ⟨dir, hdir, hget⟩)
    obtain hread' | ⟨-, e, hread', -⟩ := hlists
    · obtain rfl : es' = es := Except.ok.inj (hread.symm.trans hread')
      have hnone : d.root.get? (dir ++ [name]) = none := by rw [Entry.get?_concat hget, hlookup]
      have hto := leadsTo_concat hks hne hname true hshort hnul hdir ⟨es', hget⟩ (by simp [hnone])
      rw [hleads.unique hto, hnone] at hentry
      cases hentry
    · cases hread.symm.trans hread'

end Files

/-! ## A root directory of files -/

section Root

variable {es : List (Text × Entry)} {name : Text} (hname : Path.Plain name)
  (hshort : name.length ≤ nameLimit) (hnul : name.contains 0 = false)
  (hfiles : ∀ x ∈ es, x.2.isFile = true)

include hname hshort hnul hfiles

/-- In a directory of files a name leads to the file. -/
theorem locate_root (follow : Bool) :
    ({ root := .dir es } : Disk).locate name follow = .ok ⟨[name], es.lookup name⟩ := by
  have hnormal : Path.Normal false ([] ++ [name]) := (Path.normal_kept []).concat hname
  have hspell : Path.spell false ([] ++ [name]) = name := Path.spell_concat ..
  have hslash := asksForDir_spell hnormal (by simp)
  have hget : (Entry.dir es).get? ([] ++ [name]) = es.lookup name := Entry.get?_concat (e := .dir es) rfl name
  have hfile : ∀ e, es.lookup name = some e → e.isFile = true := by
    intro e he
    obtain ⟨front, back, rfl, -⟩ := List.lookup_eq_some_iff.1 he
    exact hfiles (name, e) (by simp)
  rw [hspell] at hslash
  refine locate_eq_ok_iff.2 ⟨⟨by simpa using hname.isPart.1, hnul, ?_⟩, hget, by simp [hslash]⟩
  have hstart : ({ root := .dir es } : Disk).partsFromRoot name = [name] := by
    unfold partsFromRoot
    rw [Path.isAbsolute_of_isPart hname.isPart, Path.parts_of_isPart hname.isPart]
    rfl
  rw [hstart]
  refine .last ⟨es, rfl⟩ ⟨by simpa using hname.ne_dot, by simpa using hname.ne_up, by omega⟩ ?_ ?_
  · rintro ⟨entries, hdir⟩
    cases hfile _ (hget.symm.trans hdir)
  · intro _ target hlink
    cases hfile _ (hget.symm.trans hlink)

theorem entryAt?_root : ({ root := .dir es } : Disk).entryAt? name = es.lookup name := by
  unfold entryAt? lstat lookAt
  rw [locate_root hname hshort hnul hfiles]
  cases es.lookup name <;> rfl

end Root

end Disk

end LiteralAudit
