import LiteralAudit.Proofs.Scan.Discovery
import LiteralAudit.Proofs.Watch.Operation

/-!
# Changes that a watch does not notice

A watch judges an event by its path, and by whether there is a directory when something was created there.
`Watches` is what it knows of the tree: registered are the root and the directories that a scan goes into,
and no others. Each operation keeps that (`Watches.handleAll`), so that of each operation the watch is told
what happens where a scan looks, and only that (`Watches.noticed_iff`).

What the watch cannot tell is that a path which is gone was a directory. `unnoticed_iff` says for every
operation that changes what a scan finds whether one of its events matters.
-/

namespace LiteralAudit

theorem Path.below_injective {root : Text} {a b : List Text} (ha : ∀ k ∈ a, Path.Plain k)
    (hb : ∀ k ∈ b, Path.Plain k) (h : Path.below root a = Path.below root b) : a = b := by
  by_cases hanil : a = []
  · by_contra hne
    have hbne : b ≠ [] := fun hbnil => hne (hanil.trans hbnil.symm)
    rw [hanil] at h
    exact Path.below_ne_root hb hbne h.symm
  · by_cases hbnil : b = []
    · rw [hbnil] at h
      exact absurd h (Path.below_ne_root ha hanil)
    · rw [Path.below_eq_spell ha hanil, Path.below_eq_spell hb hbnil] at h
      have hkept := Path.spell_injective (Path.normal_kept_append ha root)
        (Path.normal_kept_append hb root) h
      exact List.append_cancel_left hkept

/-! ## Where a scan looks -/

namespace Selection

/-- A scan goes into every directory on the way to a place, and into the one at the place. -/
def Opens (s : Selection) (names : List Text) : Prop :=
  ∀ above, above <+: names → above ≠ [] → s.goesInto above = true

variable {s : Selection} {names rest : List Text}

theorem opens_nil (s : Selection) : s.Opens [] := fun _ h hne => absurd (List.prefix_nil.1 h) hne

theorem Opens.above (h : s.Opens names) {above : List Text} (habove : above <+: names) :
    s.Opens above := fun p hp hne => h p (hp.trans habove) hne

theorem opens_iff_reaches (hne : names ≠ []) :
    s.Opens names ↔ s.goesInto names = true ∧ s.Reaches names := by
  constructor
  · intro h
    exact ⟨h names List.prefix_rfl hne, fun above habove hnil _ => h above habove hnil⟩
  · rintro ⟨hgoes, hreaches⟩ above habove hnil
    by_cases heq : above = names
    · rwa [heq]
    · exact hreaches above habove hnil heq

theorem reaches_iff_opens (hne : names ≠ []) : s.Reaches names ↔ s.Opens names.dropLast := by
  obtain ⟨above, name, rfl⟩ := (List.eq_nil_or_concat' names).resolve_left hne
  rw [List.dropLast_concat, reaches_concat_iff]
  by_cases hnil : above = []
  · simp [hnil, opens_nil]
  · rw [opens_iff_reaches hnil]
    simp [hnil, goesInto]

/-- A place below a directory is looked at only if a scan goes into the directory. -/
theorem Reaches.opens (h : s.Reaches (names ++ rest)) (hrest : rest ≠ []) : s.Opens names := by
  intro above habove hne
  refine h above (habove.trans (List.prefix_append ..)) hne ?_
  rintro rfl
  have hlength := habove.length_le
  have hpos := List.length_pos_iff.2 hrest
  rw [List.length_append] at hlength
  omega

theorem Reaches.above {q : List Text} (h : s.Reaches q) (hq : names <+: q) : s.Reaches names := by
  intro above habove hne hproper
  refine h above (habove.trans hq) hne ?_
  rintro rfl
  exact hproper (habove.eq_of_length (le_antisymm habove.length_le hq.length_le))

theorem opens_append_iff (hne : names ≠ []) (hreaches : s.Reaches names) :
    s.Opens (names ++ rest) ↔ ∀ r, r <+: rest → s.goesInto (names ++ r) = true := by
  constructor
  · intro h r hr
    exact h _ ((List.prefix_append_right_inj names).2 hr) (by simp [hne])
  · intro h above habove hnil
    obtain habove' | ⟨r, rfl⟩ :=
      List.prefix_or_prefix_of_prefix habove (List.prefix_append names rest)
    · by_cases heq : above = names
      · simpa [heq] using h [] List.nil_prefix
      · exact hreaches above habove' hnil heq
    · exact h r ((List.prefix_append_right_inj names).1 habove)

end Selection

/-! ## What a watch does with an event -/

namespace Watch

mutual

/-- Which directories a watch registers depends on which it goes into only. -/
theorem directories_congr {w w' : Watch} (h : w'.enters = w.enters) :
    ∀ (path : Text) (e : Entry), w'.directories path e = w.directories path e
  | path, .dir es => by rw [directories, directories, h, directoriesIn_congr h path es]
  | path, .file _ => by rw [directories, directories] <;> simp
  | path, .link _ => by rw [directories, directories] <;> simp

theorem directoriesIn_congr {w w' : Watch} (h : w'.enters = w.enters) :
    ∀ (above : Text) (es : List (Text × Entry)), w'.directoriesIn above es = w.directoriesIn above es
  | _, [] => rfl
  | above, (name, e) :: rest => by
    rw [directoriesIn, directoriesIn, directories_congr h _ e, directoriesIn_congr h above rest]

end

/-- The directories that a watch registers for an event. -/
def news (w : Watch) (d : Disk) (ev : FileEvent) : List Text :=
  ({ w with registered := [] }.handle d ev).2.registered

/-- What is registered plays no part in how an event is judged. -/
theorem handle_eq (w : Watch) (registered : List Text) (d : Disk) (ev : FileEvent) :
    { w with registered }.handle d ev =
      ((w.handle d ev).1, { w with registered := registered ++ w.news d ev }) := by
  have hdirs (r : List Text) (e : Entry) :
      { w with registered := r }.directories ev.path e = w.directories ev.path e :=
    @directories_congr w { w with registered := r } rfl _ _
  unfold news handle
  dsimp only
  cases FileEvent.isChmod ev with
  | true => simp
  | false =>
    cases Path.relative? w.root ev.path with
    | none => simp
    | some rel =>
      dsimp only [Bool.false_eq_true, if_false]
      generalize (ev.changes.contains .create && (d.stat ev.path).toOption.any (·.isDir)) = isDir
      cases isDir && w.isRelevant rel isDir with
      | false => simp
      | true =>
        unfold register
        cases d.lstat ev.path with
        | error err => simp
        | ok e => simp [hdirs]

theorem handleAll_eq (w : Watch) (d : Disk) (evs : List FileEvent) :
    w.handleAll d evs = (evs.any fun ev => (w.handle d ev).1,
      { w with registered := w.registered ++ evs.flatMap (w.news d) }) := by
  suffices h : ∀ registered, { w with registered }.handleAll d evs =
      (evs.any fun ev => (w.handle d ev).1,
        { w with registered := registered ++ evs.flatMap (w.news d) }) from h w.registered
  induction evs with
  | nil => simp [handleAll]
  | cons ev evs ih =>
    intro registered
    rw [handleAll, handle_eq]
    dsimp only
    rw [ih, List.any_cons, List.flatMap_cons, List.append_assoc]

/-- The directories at a place and below that a watch registers. -/
theorem mem_directories_iff {w : Watch} {es : List (Text × Entry)} {names : List Text} {p : Text}
    (hes : (Entry.dir es).WellFormed) (hnames : ∀ k ∈ names, Path.Plain k) (hne : names ≠ []) :
    p ∈ w.directories (Path.below w.root names) (.dir es) ↔
      ∃ rest, (Entry.dir es).IsDirAt rest ∧ (∀ r, r <+: rest → w.goesInto (names ++ r) = true) ∧
        p = Path.below w.root (names ++ rest) := by
  rw [directories, enters_below hnames hne]
  constructor
  · intro hp
    split at hp
    · next hgoes =>
      obtain rfl | hp := List.mem_cons.1 hp
      · refine ⟨[], ⟨es, rfl⟩, ?_, by rw [List.append_nil]⟩
        intro r hr
        rwa [List.prefix_nil.1 hr, List.append_nil]
      · rw [directoriesIn_eq_looks hes hnames] at hp
        obtain ⟨⟨q, x⟩, hmem, rfl⟩ := List.mem_map.1 hp
        obtain ⟨hmem, hdir⟩ := List.mem_filter.1 hmem
        obtain ⟨hdir, hlast⟩ := Bool.and_eq_true_iff.1 hdir
        obtain ⟨rest, -, rfl, hget, hthrough⟩ := (Entry.mem_looks_iff hes).1 (by exact hmem)
        refine ⟨rest, ?_, ?_, rfl⟩
        · cases x with
          | dir es' => exact ⟨es', hget⟩
          | file content => cases hdir
          | link target => cases hdir
        · rintro r ⟨more, rfl⟩
          by_cases hr : r = []
          · rwa [hr, List.append_nil]
          · by_cases hmore : more = []
            · rwa [hmore, List.append_nil] at hlast
            · exact hthrough r more rfl hr hmore
    · cases hp
  · rintro ⟨rest, ⟨es', hget⟩, hgoes, rfl⟩
    have hfirst := hgoes [] List.nil_prefix
    rw [List.append_nil] at hfirst
    rw [if_pos hfirst, directoriesIn_eq_looks hes hnames]
    by_cases hrest : rest = []
    · rw [hrest, List.append_nil]
      exact List.mem_cons_self
    · have hlooked : (names ++ rest, Entry.dir es') ∈ (Entry.dir es).looks w.goesInto names :=
        (Entry.mem_looks_iff hes).2
          ⟨rest, hrest, rfl, hget, fun p q hsplit _ _ => hgoes p ⟨q, hsplit.symm⟩⟩
      have hlast := hgoes rest List.prefix_rfl
      exact List.mem_cons_of_mem _
        (List.mem_map.2 ⟨_, List.mem_filter.2 ⟨hlooked, by simpa [Entry.isDir] using hlast⟩, rfl⟩)

end Watch

/-! ## What a watch is told -/

theorem Watch.start_eq_ok {d : Disk} {root : Text} {isRelevant : Text → Bool → Bool} {w : Watch}
    (h : Watch.start d root isRelevant = .ok w) : w.root = root ∧ w.isRelevant = isRelevant := by
  unfold start at h
  split at h
  · cases h
  · split at h
    · obtain rfl := Except.ok.inj h
      unfold register
      split <;> exact ⟨rfl, rfl⟩
    · cases h

theorem Watch.mem_notified {w : Watch} {hs : List (List Text × FileChange)}
    {h : List Text × FileChange} (hh : h ∈ hs)
    (hcontains : w.registered.contains (Path.below w.root h.1.dropLast) = true) :
    ⟨Path.below w.root h.1, [h.2]⟩ ∈ w.notified hs :=
  List.mem_map.2 ⟨h, List.mem_filter.2 ⟨hh, hcontains⟩, rfl⟩

/-- The path of a directory leads to a tree, as it is written and when it is cleaned. -/
structure Disk.Shows (d : Disk) (root : Text) (e : Entry) : Prop where
  lstat_root : d.lstat root = .ok e
  lstat_clean : d.lstat (Path.clean root) = .ok e

/-- Something was created, and it is a directory. -/
def Operation.isNewDir (e' : Entry) (h : List Text × FileChange) : Bool :=
  h.2 == .create && (e'.get? h.1).any (·.isDir)

theorem Operation.isNewDir_eq_true_iff {e' : Entry} {h : List Text × FileChange} :
    isNewDir e' h = true ↔ h.2 = .create ∧ ∃ es, e'.get? h.1 = some (.dir es) := by
  rw [isNewDir, Bool.and_eq_true, beq_iff_eq]
  refine and_congr_right fun _ => ?_
  cases e'.get? h.1 with
  | none => simp
  | some x => cases x <;> simp [Entry.isDir]

/-- A watch of a tree knows the rule of the scan and the directories that a scan goes into, and no
others. -/
structure Watches (s : Selection) (root : Text) (w : Watch) (e : Entry) : Prop where
  root_eq : w.root = root
  rule_eq : w.isRelevant = s.isRelevant
  wellFormed : e.WellFormed
  isDirAt : e.IsDirAt []
  registers : ∀ names, e.IsDirAt names → s.Opens names → Path.below root names ∈ w.registered
  opens : ∀ p ∈ w.registered, ∃ names, (∀ k ∈ names, Path.Plain k) ∧ s.Opens names ∧
    p = Path.below root names

namespace Watch

section Telling

open Operation (Telling isNewDir isNewDir_eq_true_iff)

variable {s : Selection} {root : Text} {w : Watch} {e e' : Entry} {d : Disk}
  {h : List Text × FileChange}

variable (hroot : w.root = root) (hrule : w.isRelevant = s.isRelevant) (hd : d.Shows root e')
  (ht : Telling e e' h)

include hroot hrule hd ht

/-- How a watch judges what it is told. -/
theorem handle_telling : w.handle d ⟨Path.below w.root h.1, [h.2]⟩ =
    (s.isRelevant (Text.join "/" h.1) (isNewDir e' h),
      if isNewDir e' h && s.isRelevant (Text.join "/" h.1) (isNewDir e' h)
        then w.register d (Path.below w.root h.1) else w) := by
  have hchmod : Watch.FileEvent.isChmod ⟨Path.below w.root h.1, [h.2]⟩ = false := by
    simpa [Watch.FileEvent.isChmod] using ht.not_chmod
  have hdir : ([h.2].contains .create &&
      (d.stat (Path.below w.root h.1)).toOption.any (·.isDir)) = isNewDir e' h := by
    by_cases hcreate : h.2 = .create
    · obtain ⟨hnameable, x, hx, -, hlink⟩ := ht.created hcreate
      have hstat := Disk.stat_of_lstat
        (Disk.lstat_below hd.lstat_clean hnameable ht.ne_nil hx) hlink
      rw [hroot, hstat, isNewDir, hcreate, hx]
      rfl
    · simp [isNewDir, hcreate, Ne.symm hcreate]
  unfold Watch.handle
  rw [hchmod, Path.relative?_below ht.plain ht.ne_nil]
  dsimp only
  rw [hdir, hrule]
  rfl

/-- Of a new directory that it can see, a watch registers those in it that a scan goes into. -/
theorem mem_news_iff (hreaches : s.Reaches h.1) {p : Text} :
    p ∈ w.news d ⟨Path.below w.root h.1, [h.2]⟩ ↔ ∃ x rest, h.2 = .create ∧
      e'.get? h.1 = some x ∧ x.IsDirAt rest ∧ s.Opens (h.1 ++ rest) ∧
      p = Path.below root (h.1 ++ rest) := by
  have hblank := @handle_telling s root { w with registered := [] } e e' d h hroot hrule hd ht
  have hdirs {es : List (Text × Entry)} (hes : (Entry.dir es).WellFormed) :=
    @mem_directories_iff { w with registered := [] } es h.1 p hes ht.plain ht.ne_nil
  have hgoes (names : List Text) : goesInto { w with registered := [] } names = s.goesInto names := by
    rw [goesInto, hrule]
    rfl
  have hregister {es : List (Text × Entry)} (hcreate : h.2 = .create)
      (hget : e'.get? h.1 = some (.dir es)) :
      (register { w with registered := [] } d (Path.below w.root h.1)).registered =
        directories { w with registered := [] } (Path.below w.root h.1) (.dir es) := by
    have hlstat := Disk.lstat_below hd.lstat_clean (ht.created hcreate).1 ht.ne_nil hget
    rw [register, hroot, hlstat]
    simp
  rw [Watch.news, hblank]
  constructor
  · intro hp
    split at hp
    · next hnew =>
      obtain ⟨hnew, -⟩ := Bool.and_eq_true_iff.1 hnew
      obtain ⟨hcreate, es, hget⟩ := isNewDir_eq_true_iff.1 hnew
      obtain ⟨-, x, hx, hes, -⟩ := ht.created hcreate
      obtain rfl := Option.some.inj (hget.symm.trans hx)
      rw [hregister hcreate hget, hdirs hes] at hp
      obtain ⟨rest, hdir, hopens, rfl⟩ := hp
      simp only [hgoes] at hopens
      exact ⟨_, rest, hcreate, hget, hdir, (Selection.opens_append_iff ht.ne_nil hreaches).2 hopens,
        by rw [hroot]⟩
    · cases hp
  · rintro ⟨x, rest, hcreate, hget, hdir, hopens, rfl⟩
    obtain ⟨-, y, hy, hes, -⟩ := ht.created hcreate
    obtain rfl := Option.some.inj (hget.symm.trans hy)
    obtain ⟨es, rfl⟩ := hdir.exists_eq_dir
    have hnew : isNewDir e' h = true := isNewDir_eq_true_iff.2 ⟨hcreate, es, hget⟩
    have hbelow := (Selection.opens_append_iff ht.ne_nil hreaches).1 hopens
    have hrelevant : s.isRelevant (Text.join "/" h.1) true = true := by
      simpa [Selection.goesInto] using hbelow [] List.nil_prefix
    rw [hnew, hrelevant, Bool.and_true, if_pos rfl, hregister hcreate hget, hdirs hes]
    exact ⟨rest, hdir, fun r hr => by rw [hgoes, hbelow r hr], by rw [hroot]⟩

end Telling

end Watch

namespace Watches

open Operation (Telling isNewDir)

variable {s : Selection} {root : Text} {w : Watch} {e e' : Entry} {d : Disk}
  {h : List Text × FileChange}

theorem start {es : List (Text × Entry)} (hd : d.Shows root (.dir es))
    (hes : (Entry.dir es).WellFormed) (hw : Watch.start d root s.isRelevant = .ok w) :
    Watches s root w (.dir es) := by
  obtain ⟨w', hw', hregistered⟩ := Watch.registered_start (s := s) hd.lstat_root hes
  obtain rfl : w = w' := Except.ok.inj (hw.symm.trans hw')
  have hmem (p : Text) : p ∈ w.registered ↔
      ∃ names, (Entry.dir es).IsDirAt names ∧ s.Opens names ∧ p = Path.below root names := by
    rw [hregistered, List.mem_cons, List.mem_map]
    constructor
    · rintro (rfl | ⟨names, hnames, rfl⟩)
      · exact ⟨[], ⟨es, rfl⟩, s.opens_nil, rfl⟩
      · obtain ⟨hne, hdir, hrelevant, hreaches⟩ := (Selection.mem_descended_iff hes).1 hnames
        exact ⟨names, hdir, (Selection.opens_iff_reaches hne).2 ⟨hrelevant, hreaches⟩, rfl⟩
    · rintro ⟨names, hdir, hopens, rfl⟩
      by_cases hne : names = []
      · exact .inl (by rw [hne, Path.below_nil])
      · obtain ⟨hrelevant, hreaches⟩ := (Selection.opens_iff_reaches hne).1 hopens
        exact .inr ⟨names, (Selection.mem_descended_iff hes).2 ⟨hne, hdir, hrelevant, hreaches⟩, rfl⟩
  obtain ⟨hroot, hrule⟩ := Watch.start_eq_ok hw
  refine ⟨hroot, hrule, hes, ⟨es, rfl⟩, fun names hdir hopens => (hmem _).2 ⟨names, hdir, hopens, rfl⟩, ?_⟩
  intro p hp
  obtain ⟨names, ⟨es', hget⟩, hopens, rfl⟩ := (hmem p).1 hp
  exact ⟨names, hes.plain_of_get? hget, hopens, rfl⟩

/-- A watch is told of what happens where a scan looks. -/
theorem contains_iff_reaches (hw : Watches s root w e) (ht : Telling e e' h) :
    w.registered.contains (Path.below w.root h.1.dropLast) = true ↔ s.Reaches h.1 := by
  rw [List.contains_iff_mem, hw.root_eq, Selection.reaches_iff_opens ht.ne_nil]
  constructor
  · intro hp
    obtain ⟨names, hplain, hopens, heq⟩ := hw.opens _ hp
    rwa [Path.below_injective (fun k hk => ht.plain k (List.mem_of_mem_dropLast hk)) hplain heq]
  · exact hw.registers _ ht.above

/-- Of what happens, those events matter that lie where a scan looks and are relevant. -/
theorem noticed_iff (hw : Watches s root w e) (hd : d.Shows root e')
    {hs : List (List Text × FileChange)} (ht : ∀ h ∈ hs, Telling e e' h) :
    (w.handleAll d (w.notified hs)).1 = true ↔
      ∃ h ∈ hs, s.Reaches h.1 ∧ s.isRelevant (Text.join "/" h.1) (isNewDir e' h) = true := by
  rw [Watch.handleAll_eq, Watch.notified, List.any_map, List.any_filter, List.any_eq_true]
  refine exists_congr fun h => and_congr_right fun hh => ?_
  rw [Bool.and_eq_true, hw.contains_iff_reaches (ht h hh), Function.comp_apply,
    Watch.handle_telling hw.root_eq hw.rule_eq hd (ht h hh)]

/-- A watch that is told of an operation knows the tree behind it. -/
theorem handleAll (hw : Watches s root w e) {o : Operation} (ho : o.Possible e)
    (hd : d.Shows root (o.apply e)) :
    Watches s root (w.handleAll d (w.notified (o.happenings e))).2 (o.apply e) := by
  have ht := ho.telling hw.wellFormed
  have hwf := ho.wellFormed_apply hw.wellFormed
  rw [Watch.handleAll_eq]
  refine ⟨hw.root_eq, hw.rule_eq, hwf, ho.isDirAt_nil hw.wellFormed hw.isDirAt, ?_, ?_⟩
  · intro names hdir hopens
    obtain hold | ⟨new, hnew, rest, rfl⟩ := ho.isDirAt_apply hdir
    · exact List.mem_append_left _ (hw.registers names hold hopens)
    · obtain ⟨-, x, hx, -, -⟩ := (ht _ hnew).created rfl
      have hreaches : s.Reaches new := by
        have hne := (ht _ hnew).ne_nil
        exact ((Selection.opens_iff_reaches hne).1 (hopens.above (List.prefix_append ..))).2
      have hrest : x.IsDirAt rest := by
        obtain ⟨es, hes⟩ := hdir
        rw [Entry.get?_append, hx] at hes
        exact ⟨es, hes⟩
      have htold := Watch.mem_notified hnew ((hw.contains_iff_reaches (ht _ hnew)).2 hreaches)
      have hregistered := (Watch.mem_news_iff hw.root_eq hw.rule_eq hd (ht _ hnew) hreaches).2
        ⟨x, rest, rfl, hx, hrest, hopens, rfl⟩
      exact List.mem_append_right _ (List.mem_flatMap.2 ⟨_, htold, hregistered⟩)
  · intro p hp
    obtain hp | hp := List.mem_append.1 hp
    · exact hw.opens p hp
    · obtain ⟨ev, hev, hp⟩ := List.mem_flatMap.1 hp
      obtain ⟨h, hh, rfl⟩ := List.mem_map.1 hev
      obtain ⟨hh, hcontains⟩ := List.mem_filter.1 hh
      have hreaches := (hw.contains_iff_reaches (ht h hh)).1 hcontains
      obtain ⟨x, rest, -, hx, ⟨es, hes⟩, hopens, rfl⟩ :=
        (Watch.mem_news_iff hw.root_eq hw.rule_eq hd (ht h hh) hreaches).1 hp
      refine ⟨h.1 ++ rest, hwf.plain_of_get? (x := .dir es) ?_, hopens, rfl⟩
      rw [Entry.get?_append, hx]
      exact hes

end Watches

/-- A watch of a tree, and what it has become by operations of which it was told. -/
inductive Watched (s : Selection) (root : Text) : Watch → Disk → Entry → Prop where
  | start {w : Watch} {d : Disk} {es : List (Text × Entry)} : d.Shows root (.dir es) →
      (Entry.dir es).WellFormed → Watch.start d root s.isRelevant = .ok w → Watched s root w d (.dir es)
  | next {w : Watch} {d d' : Disk} {e : Entry} (o : Operation) : Watched s root w d e → o.Possible e →
      d'.Shows root (o.apply e) →
      Watched s root (w.handleAll d' (w.notified (o.happenings e))).2 d' (o.apply e)

theorem Watched.watches {s : Selection} {root : Text} {w : Watch} {d : Disk} {e : Entry}
    (h : Watched s root w d e) : Watches s root w e ∧ d.Shows root e := by
  induction h with
  | start hd hes hw => exact ⟨.start hd hes hw, hd⟩
  | next o _ ho hd' ih => exact ⟨ih.1.handleAll ho hd', hd'⟩

/-! ## What a scan finds behind an operation -/

/-- What a scan finds depends on the files where it looks. -/
theorem Scanner.exists_of_filesOf_ne {s : Selection} {e e' : Entry} (he : e.WellFormed)
    (he' : e'.WellFormed) (hne : filesOf s e' ≠ filesOf s e) :
    ∃ q content, s.isRelevant (Text.join "/" q) false = true ∧ s.Reaches q ∧
      ¬(e'.shape? q = some (.file content) ↔ e.shape? q = some (.file content)) := by
  by_contra hsame
  have hmem : ∀ file, file ∈ filesOf s e' ↔ file ∈ filesOf s e := by
    rintro ⟨path, content⟩
    rw [mem_filesOf_iff he', mem_filesOf_iff he]
    refine exists_congr fun q => and_congr_right fun _ => and_congr_right fun hpath => ?_
    rw [← Entry.shape?_eq_file_iff, ← Entry.shape?_eq_file_iff]
    refine and_congr_left fun ⟨hrelevant, hreaches⟩ => ?_
    by_contra hdiffers
    rw [hpath] at hrelevant
    exact hsame ⟨q, content, hrelevant, hreaches, hdiffers⟩
  have hnodup := (nodup_filesOf (s := s) he).of_map _
  have hnodup' := (nodup_filesOf (s := s) he').of_map _
  have hperm := (List.perm_ext_iff_of_nodup hnodup' hnodup).2 hmem
  refine hne (hperm.eq_of_pairwise ?_ (List.pairwise_map.1 (pairwise_filesOf he'))
    (List.pairwise_map.1 (pairwise_filesOf he)))
  intro a b _ _ hab hba
  exact absurd hba (Path.before_asymm hab)

namespace Operation

variable {s : Selection} {e e' x : Entry} {names rest : List Text} {content : Text}

/-- When something that was put at a place changes what a scan finds, the scan looks at the place. -/
theorem HasRoom.looked_at (h : HasRoom e names x) (hx : e'.get? names = some x)
    (hrelevant : s.isRelevant (Text.join "/" (names ++ rest)) false = true)
    (hreaches : s.Reaches (names ++ rest))
    (hdiffers : ¬(e'.shape? (names ++ rest) = some (.file content) ↔
      e.shape? (names ++ rest) = some (.file content))) :
    s.Reaches names ∧ s.isRelevant (Text.join "/" names) x.isDir = true := by
  rw [Entry.shape?_append hx, Entry.shape?_eq_file_iff, Entry.shape?_eq_file_iff] at hdiffers
  cases x with
  | file content' =>
    have hnil : rest = [] := by
      by_contra hne
      have hnone : (Entry.file content').get? rest = none := by
        obtain ⟨name, rest, rfl⟩ := List.exists_cons_of_ne_nil hne
        rfl
      have hold : e.get? (names ++ rest) = some (.file content) := by
        simpa [hnone] using hdiffers
      obtain ⟨es, hes⟩ := Entry.exists_dir_above hold (List.prefix_append ..) (by simpa using hne)
      simpa [Entry.isDir] using h.replaces _ hes
    rw [hnil, List.append_nil] at hrelevant hreaches
    exact ⟨hreaches, hrelevant⟩
  | dir es =>
    have hne : rest ≠ [] := by
      rintro rfl
      rw [List.append_nil] at hdiffers
      have hold : e.get? names = some (.file content) := by simpa [Entry.get?] using hdiffers
      simpa [Entry.isDir] using h.replaces _ hold
    exact ((Selection.opens_iff_reaches h.ne_nil).1 (hreaches.opens hne)).symm
  | link target => exact absurd rfl (h.not_link target)

/-- An operation moves a directory away from a path that would not be relevant as the path of a file, and
not to where the scan goes into it. -/
def Unnoticed (s : Selection) (e : Entry) : Operation → Prop
  | moveOut names => e.IsDirAt names ∧ s.isRelevant (Text.join "/" names) false = false
  | rename old new =>
    e.IsDirAt old ∧ s.isRelevant (Text.join "/" old) false = false ∧ ¬s.Opens new
  | _ => False

/-- Something happens where a scan looks, and is relevant. -/
def Noticed (s : Selection) (e : Entry) (o : Operation) : Prop :=
  ∃ h ∈ o.happenings e,
    s.Reaches h.1 ∧ s.isRelevant (Text.join "/" h.1) (isNewDir (o.apply e) h) = true

theorem isNewDir_of_ne {change : FileChange} (h : change ≠ .create) :
    isNewDir e' (names, change) = false := by
  simp [isNewDir, h]

theorem isNewDir_created (h : e'.get? names = some x) :
    isNewDir e' (names, .create) = x.isDir := by
  simp [isNewDir, h]

/-- What a scan does not find any more was at or below the place that was left. -/
theorem gone_of_erase {q : List Text} (hne : names ≠ []) (hx : e.get? names = some x)
    (hdiffers : ¬((e.erase names).shape? q = some (.file content) ↔
      e.shape? q = some (.file content))) : names <+: q ∧ e.get? q = some (.file content) := by
  rw [shape?_erase_of_get? ⟨hne, x, hx⟩] at hdiffers
  split at hdiffers
  · next hwithin =>
    refine ⟨hwithin, Entry.shape?_eq_file_iff.1 ?_⟩
    simpa using hdiffers
  · exact absurd Iff.rfl hdiffers

section Changes

variable {q : List Text} (he : e.WellFormed) (hrelevant : s.isRelevant (Text.join "/" q) false = true)
  (hreaches : s.Reaches q)

include hrelevant hreaches

theorem noticed_create (ho : Possible e (create names x))
    (hdiffers : ¬(((create names x).apply e).shape? q = some (.file content) ↔
      e.shape? q = some (.file content))) : Noticed s e (create names x) := by
  have hwithin : names <+: q := by
    by_contra hnot
    rw [apply, Entry.shape?_set x ho.2.above, if_neg hnot] at hdiffers
    exact hdiffers Iff.rfl
  obtain ⟨rest, rfl⟩ := hwithin
  obtain ⟨hlooked, hdir⟩ := ho.2.looked_at (get?_create ho) hrelevant hreaches hdiffers
  exact ⟨_, List.mem_singleton_self _, hlooked, by rwa [isNewDir_created (get?_create ho)]⟩

theorem noticed_write {new : Text} (ho : Possible e (write names new))
    (hdiffers : ¬(((write names new).apply e).shape? q = some (.file content) ↔
      e.shape? q = some (.file content))) : Noticed s e (write names new) := by
  obtain ⟨hne, old, hold⟩ := ho
  rw [apply, Entry.shape?_set _ (isDirAt_dropLast hne hold)] at hdiffers
  have hq : q = names := by
    by_contra hq
    split at hdiffers
    · next hwithin =>
      obtain ⟨rest, rfl⟩ := hwithin
      obtain ⟨name, rest, rfl⟩ := List.exists_cons_of_ne_nil (l := rest) (by simpa using hq)
      rw [List.drop_left, Entry.shape?_append hold] at hdiffers
      exact hdiffers Iff.rfl
    · exact hdiffers Iff.rfl
  rw [hq] at hrelevant hreaches
  exact ⟨_, List.mem_singleton_self _, hreaches, hrelevant⟩

include he in
theorem noticed_remove (ho : Possible e (remove names))
    (hdiffers : ¬(((remove names).apply e).shape? q = some (.file content) ↔
      e.shape? q = some (.file content))) : Noticed s e (remove names) := by
  obtain ⟨hne, x, hx⟩ := ho
  obtain ⟨hwithin, hgone⟩ := gone_of_erase hne hx hdiffers
  have hplace : q ∈ placesAt e names := (mem_placesAt_iff he).2 ⟨hwithin, _, hgone⟩
  exact ⟨_, List.mem_map_of_mem hplace, hreaches, hrelevant⟩

/-- A place that a file left with which it was found is where a scan looks. It is the place of the file, or
a directory is there. -/
theorem reaches_left (hwithin : names <+: q) (hgone : e.get? q = some (.file content)) :
    s.Reaches names ∧ (s.isRelevant (Text.join "/" names) false = true ∨ e.IsDirAt names) := by
  refine ⟨hreaches.above hwithin, ?_⟩
  by_cases heq : names = q
  · exact .inl (heq ▸ hrelevant)
  · exact .inr (Entry.exists_dir_above hgone hwithin heq)

theorem noticed_moveOut_iff (ho : Possible e (moveOut names))
    (hdiffers : ¬(((moveOut names).apply e).shape? q = some (.file content) ↔
      e.shape? q = some (.file content))) :
    Noticed s e (moveOut names) ↔ ¬Unnoticed s e (moveOut names) := by
  obtain ⟨hne, x, hx⟩ := ho
  obtain ⟨hwithin, hgone⟩ := gone_of_erase hne hx hdiffers
  obtain ⟨hlooked, hfile⟩ := reaches_left hrelevant hreaches hwithin hgone
  simp only [Noticed, happenings, isNewDir, Unnoticed, List.mem_singleton, exists_eq_left, hlooked,
    true_and, not_and, Bool.not_eq_false]
  exact ⟨fun h _ => h, fun h => hfile.elim id h⟩

theorem noticed_rename_iff {old new : List Text} (ho : Possible e (rename old new))
    (hdiffers : ¬(((rename old new).apply e).shape? q = some (.file content) ↔
      e.shape? q = some (.file content))) :
    Noticed s e (rename old new) ↔ ¬Unnoticed s e (rename old new) := by
  obtain ⟨hne, hbelow, x, hx, hroom⟩ := id ho
  have hnoticed : Noticed s e (rename old new) ↔
      (s.Reaches old ∧ s.isRelevant (Text.join "/" old) false = true) ∨
        s.Reaches new ∧ s.isRelevant (Text.join "/" new) x.isDir = true := by
    simp [Noticed, happenings, isNewDir_created (get?_rename ho hx), isNewDir_of_ne]
  have hopens : x.isDir = true →
      (s.Opens new ↔ s.Reaches new ∧ s.isRelevant (Text.join "/" new) x.isDir = true) := by
    intro hdir
    rw [hdir, Selection.opens_iff_reaches hroom.ne_nil, and_comm, Selection.goesInto]
  have hdirAt : e.IsDirAt old ↔ x.isDir = true := by
    rw [Entry.IsDirAt, hx]
    cases x <;> simp [Entry.isDir]
  rw [hnoticed, Unnoticed, hdirAt]
  by_cases hwithin : new <+: q
  · obtain ⟨rest, rfl⟩ := hwithin
    have hlooked := hroom.looked_at (get?_rename ho hx) hrelevant hreaches hdiffers
    exact iff_of_true (.inr hlooked) fun h => h.2.2 ((hopens h.1).2 hlooked)
  · rw [shape?_rename ho hx, if_neg hwithin, ← Entry.shape?_erase hne (isDirAt_dropLast hne hx)]
      at hdiffers
    obtain ⟨hleft, hgone⟩ := gone_of_erase hne hx hdiffers
    obtain ⟨hlooked, hfile⟩ := reaches_left hrelevant hreaches hleft hgone
    rw [hdirAt] at hfile
    cases hdir : x.isDir with
    | true =>
      have hopens := hopens hdir
      rw [hdir] at hopens
      rw [← hopens]
      simp [hlooked, imp_iff_not_or]
    | false =>
      have hfile : s.isRelevant (Text.join "/" old) false = true := by simpa [hdir] using hfile
      exact iff_of_true (.inl ⟨hlooked, hfile⟩) (by simp)

end Changes

theorem noticed_iff {q : List Text} {o : Operation} (he : e.WellFormed) (ho : o.Possible e)
    (hrelevant : s.isRelevant (Text.join "/" q) false = true) (hreaches : s.Reaches q)
    (hdiffers : ¬((o.apply e).shape? q = some (.file content) ↔
      e.shape? q = some (.file content))) : Noticed s e o ↔ ¬Unnoticed s e o := by
  cases o with
  | create names x => exact iff_of_true (noticed_create hrelevant hreaches ho hdiffers) id
  | write names new => exact iff_of_true (noticed_write hrelevant hreaches ho hdiffers) id
  | remove names => exact iff_of_true (noticed_remove he hrelevant hreaches ho hdiffers) id
  | moveOut names => exact noticed_moveOut_iff hrelevant hreaches ho hdiffers
  | rename old new => exact noticed_rename_iff hrelevant hreaches ho hdiffers

end Operation

/-- For every watch that knows its tree, and every operation on a file or a directory in the tree that is
told of: the scans before and behind it come to an end, and when they find different files, no event of the
operation matters exactly when it moves a directory away whose path would not be that of a relevant file,
and not to a place that a scan goes into. -/
theorem Watch.unnoticed_iff {s : Scanner} {root : Text} {w : Watch} {d d' : Disk} {e : Entry}
    {o : Operation} (hw : Watched s.selection root w d e) (ho : o.Possible e)
    (hd' : d'.Shows root (o.apply e)) :
    ∃ found found', s.discovery d none root = .ok found ∧ s.discovery d' none root = .ok found' ∧
      (found'.files ≠ found.files →
        ((w.handleAll d' (w.notified (o.happenings e))).1 = false ↔ o.Unnoticed s.selection e)) := by
  obtain ⟨hwatches, hd⟩ := hw.watches
  have hwf' := ho.wellFormed_apply hwatches.wellFormed
  obtain ⟨es, hes⟩ := hwatches.isDirAt
  obtain ⟨es', hes'⟩ := ho.isDirAt_nil hwatches.wellFormed hwatches.isDirAt
  obtain rfl := Option.some.inj hes
  have hes' := Option.some.inj hes'
  refine ⟨_, _, Scanner.discovery_eq_filesOf hd.lstat_root hwatches.wellFormed,
    Scanner.discovery_eq_filesOf (hes' ▸ hd'.lstat_root) (hes' ▸ hwf'), ?_⟩
  intro hne
  rw [← hes'] at hne
  obtain ⟨q, content, hrelevant, hreaches, hdiffers⟩ :=
    Scanner.exists_of_filesOf_ne hwatches.wellFormed hwf' hne
  have hnoticed := hwatches.noticed_iff hd' (ho.telling hwatches.wellFormed)
  rw [← Bool.not_eq_true, hnoticed]
  exact not_iff_comm.1 (Operation.noticed_iff hwatches.wellFormed ho hrelevant hreaches hdiffers).symm

/-! ### A directory that is moved away -/

namespace Watch

def packageTree : List (Text × Entry) :=
  [("b.py", .file "x"), ("sub", .dir [("a.py", .file "y")])]

/-- A disk with a tree in the working directory. -/
def diskWith (es : List (Text × Entry)) : Disk := { root := .dir [("t", .dir es)] }

/-- A scanner of the files of one language. -/
def pythonScanner : Scanner :=
  { library := ⟨[], [], []⟩, whitelist? := none
    selection := ⟨(Glob.compile ["*.py"]).toOption.getD [], []⟩
    workers_pos := Nat.one_pos }

theorem wellFormed_packageTree : (Entry.dir packageTree).WellFormed := by
  refine .dir (by decide) (by decide) ?_
  simp only [packageTree, List.forall_mem_cons]
  exact ⟨.file _, .dir (by decide) (by decide) (by simpa using .file _), by simp⟩

theorem shows_diskWith (es : List (Text × Entry)) : (diskWith es).Shows "t" (.dir es) where
  lstat_root := by cbv
  lstat_clean := by cbv

theorem discovery_diskWith {es : List (Text × Entry)} (h : (Entry.dir es).WellFormed) :
    pythonScanner.discovery (diskWith es) none "t" =
      .ok { files := Scanner.filesOf pythonScanner.selection (.dir es) } :=
  Scanner.discovery_eq_filesOf (shows_diskWith es).lstat_root h

theorem discovery_packageTree : pythonScanner.discovery (diskWith packageTree) none "t" =
    .ok { files := [("b.py", "x"), ("sub/a.py", "y")] } := by
  have hfiles : Scanner.filesOf pythonScanner.selection (.dir packageTree) =
      ([("b.py", "x"), ("sub/a.py", "y")] : List (Text × Text)) := by decide +kernel
  rw [discovery_diskWith wellFormed_packageTree, hfiles]

/-- A directory that is renamed in its tree is noticed by its new path. -/
theorem renamed_directory_noticed :
    ∃ w, Watch.start (diskWith packageTree) "t" pythonScanner.selection.isRelevant = .ok w ∧
      (w.handleAll (diskWith [("b.py", .file "x"), ("lib", .dir [("a.py", .file "y")])])
        (w.notified ((Operation.rename ["sub"] ["lib"]).happenings (.dir packageTree)))).1 = true := by
  obtain ⟨w, hw, -⟩ := registered_start (s := pythonScanner.selection)
    (shows_diskWith packageTree).lstat_root wellFormed_packageTree
  have hroom : Operation.HasRoom (.dir packageTree) ["lib"] (.dir [("a.py", .file "y")]) := by
    refine ⟨by simp, ?_, ⟨packageTree, rfl⟩, by simp, ?_⟩
    · simp only [List.forall_mem_singleton]
      exact ⟨by decide, by decide, by decide⟩
    · intro y hy
      have hnone : (Entry.dir packageTree).get? ["lib"] = none := by decide
      rw [hnone] at hy
      cases hy
  have hpossible : (Operation.rename ["sub"] ["lib"]).Possible (.dir packageTree) :=
    ⟨by simp, by decide, _, by cbv, hroom⟩
  have happly : (Operation.rename ["sub"] ["lib"]).apply (.dir packageTree) =
      .dir [("b.py", .file "x"), ("lib", .dir [("a.py", .file "y")])] := by cbv
  have hafter : (diskWith [("b.py", .file "x"), ("lib", .dir [("a.py", .file "y")])]).Shows "t"
      ((Operation.rename ["sub"] ["lib"]).apply (.dir packageTree)) := happly ▸ shows_diskWith _
  obtain ⟨found, found', hfound, hfound', hunnoticed⟩ := unnoticed_iff
    (.start (shows_diskWith packageTree) wellFormed_packageTree hw) hpossible hafter
  have hscan' := discovery_diskWith (happly ▸ hpossible.wellFormed_apply wellFormed_packageTree)
  obtain rfl := Except.ok.inj (hfound.symm.trans discovery_packageTree)
  obtain rfl := Except.ok.inj (hfound'.symm.trans hscan')
  have hopens : pythonScanner.selection.Opens ["lib"] :=
    (Selection.opens_iff_reaches (by simp)).2 ⟨by decide, Selection.reaches_singleton _ "lib"⟩
  refine ⟨w, hw, ?_⟩
  rw [← Bool.not_eq_false, hunnoticed (by decide +kernel)]
  exact fun h => h.2.2 hopens

/-- A directory that is moved out of the tree is not noticed, though a scan does not find its file any
more. -/
theorem moved_directory_unnoticed :
    ∃ w, Watched pythonScanner.selection "t" w (diskWith packageTree) (.dir packageTree) ∧
      (Operation.moveOut ["sub"]).Possible (.dir packageTree) ∧
      (diskWith [("b.py", .file "x")]).Shows "t"
        ((Operation.moveOut ["sub"]).apply (.dir packageTree)) ∧
      pythonScanner.discovery (diskWith packageTree) none "t" =
        .ok { files := [("b.py", "x"), ("sub/a.py", "y")] } ∧
      pythonScanner.discovery (diskWith [("b.py", .file "x")]) none "t" =
        .ok { files := [("b.py", "x")] } ∧
      (w.handleAll (diskWith [("b.py", .file "x")])
        (w.notified ((Operation.moveOut ["sub"]).happenings (.dir packageTree)))).1 = false := by
  obtain ⟨w, hw, -⟩ := registered_start (s := pythonScanner.selection)
    (shows_diskWith packageTree).lstat_root wellFormed_packageTree
  have hwatched := Watched.start (shows_diskWith packageTree) wellFormed_packageTree hw
  have hpossible : (Operation.moveOut ["sub"]).Possible (.dir packageTree) := ⟨by simp, _, by cbv⟩
  have happly : (Operation.moveOut ["sub"]).apply (.dir packageTree) = .dir [("b.py", .file "x")] := by cbv
  have hafter : (diskWith [("b.py", .file "x")]).Shows "t"
      ((Operation.moveOut ["sub"]).apply (.dir packageTree)) := happly ▸ shows_diskWith _
  have hfiles : Scanner.filesOf pythonScanner.selection (.dir [("b.py", .file "x")]) =
      ([("b.py", "x")] : List (Text × Text)) := by decide +kernel
  have hscan := discovery_diskWith (happly ▸ hpossible.wellFormed_apply wellFormed_packageTree)
  rw [hfiles] at hscan
  refine ⟨w, hwatched, hpossible, hafter, discovery_packageTree, hscan, ?_⟩
  rw [← Bool.not_eq_true, hwatched.watches.1.noticed_iff hafter
    (hpossible.telling wellFormed_packageTree)]
  rintro ⟨h, hh, -, hrelevant⟩
  obtain rfl := List.mem_singleton.1 hh
  have hnot : pythonScanner.selection.isRelevant (Text.join "/" ["sub"]) false = false := by
    decide +kernel
  exact Bool.false_ne_true (hnot.symm.trans hrelevant)

end Watch

end LiteralAudit
