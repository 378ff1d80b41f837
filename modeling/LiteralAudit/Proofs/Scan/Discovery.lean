import LiteralAudit.Proofs.Disk.Walk
import LiteralAudit.Proofs.Disk.Preorder
import LiteralAudit.Scan
import LiteralAudit.Watch

/-!
# Which files a scan finds

A scan, the test whether an event matters, and a watch prune a tree by one rule that each of them states
in its own way. A scan is a walk with that rule (`Scanner.visitsIn_eq_looks`), and so is the registration
of a watch (`Watch.directoriesIn_eq_looks`), which spells the places by their paths and has to tell the
names from these again. `Scanner.discovery_eq_relevant_files` is what follows for the files that are found
and the directories that are watched.
-/

namespace LiteralAudit

/-! ## A scan walks -/

namespace Selection

/-- A scan goes into a directory that is relevant. -/
def goesInto (s : Selection) (names : List Text) : Bool := s.isRelevant (Text.join "/" names) true

/-- What a scan takes of an entry that it looks at: a file that is relevant. -/
def taken? (s : Selection) (x : List Text × Entry) : Option (Text × Text) :=
  match x.2 with
  | .file content =>
    if s.isRelevant (Text.join "/" x.1) false then some (Text.join "/" x.1, content) else none
  | _ => none

variable {s : Selection} {above : List Text} {name : Text}

theorem isRelevant_join (h : ∀ k ∈ above ++ [name], Path.Plain k) (isDir : Bool) :
    s.isRelevant (Text.join "/" (above ++ [name])) isDir =
      (!Glob.excludes s.excluded (Text.join "/" (above ++ [name])) name isDir &&
        (isDir || s.includes (Text.join "/" (above ++ [name])) name)) := by
  rw [isRelevant, Path.base_join fun k hk => (h k hk).isPart]

end Selection

namespace Scanner

/-- The path of a directory as it stands before the names of its entries. -/
def front (above : List Text) : Text := if above = [] then [] else Text.join "/" above ++ "/"

theorem front_append (above : List Text) (name : Text) :
    front above ++ name = Text.join "/" (above ++ [name]) := by
  unfold front
  split
  · next h => simp [h, Text.join]
  · next h => rw [Text.join_concat _ h]

theorem front_concat (above : List Text) (name : Text) :
    Text.join "/" (above ++ [name]) ++ "/" = front (above ++ [name]) := by
  rw [front, if_neg (by simp)]

/-- A scan walks through a tree and goes into the directories that are relevant. -/
theorem visitsIn_eq_looks {s : Selection} : ∀ {es : List (Text × Entry)} {above : List Text},
    (Entry.dir es).WellFormed → (∀ k ∈ above, Path.Plain k) →
    visitsIn s (front above) es = (Entry.looksIn s.goesInto above es).map s.taken?
  | [], _, _, _ => by simp [visitsIn, Entry.looksIn]
  | (name, e) :: rest, above, h, habove => by
    have hnames : ∀ k ∈ above ++ [name], Path.Plain k :=
      List.forall_mem_append.2 ⟨habove, by simpa using h.plain (name, e) List.mem_cons_self⟩
    have hrest := visitsIn_eq_looks (s := s) h.tail habove
    have he : e.WellFormed := h.children (name, e) List.mem_cons_self
    cases e with
    | file content =>
      rw [visitsIn, front_append, hrest, Entry.looksIn]
      simp [Selection.taken?, Selection.isRelevant_join hnames, Entry.looks, Bool.and_comm]
    | link target =>
      rw [visitsIn, hrest, Entry.looksIn]
      simp [Selection.taken?, Entry.looks]
    | dir entries =>
      have hinner := visitsIn_eq_looks (s := s) he hnames
      rw [visitsIn, front_append, front_concat, hrest, hinner, Entry.looksIn]
      simp only [Selection.goesInto, Selection.isRelevant_join hnames, Entry.looks]
      cases Glob.excludes s.excluded (Text.join "/" (above ++ [name])) name true <;>
        simp [Selection.taken?]

end Scanner

/-! ## A watch walks -/

namespace Watch

/-- Whether a watch goes into a directory below its root. -/
def goesInto (w : Watch) (names : List Text) : Bool := w.isRelevant (Text.join "/" names) true

theorem enters_root (w : Watch) : w.enters w.root = true := by simp [enters]

theorem enters_below {w : Watch} {names : List Text} (h : ∀ k ∈ names, Path.Plain k)
    (hne : names ≠ []) : w.enters (Path.below w.root names) = w.goesInto names := by
  have hroot : (Path.below w.root names == w.root) = false :=
    beq_eq_false_iff_ne.2 (Path.below_ne_root h hne)
  rw [enters, hroot, Path.relative?_below h hne]
  rfl

/-- The directories below a place that a watch goes into. -/
theorem directoriesIn_eq_looks {w : Watch} : ∀ {es : List (Text × Entry)} {above : List Text},
    (Entry.dir es).WellFormed → (∀ k ∈ above, Path.Plain k) →
    w.directoriesIn (Path.below w.root above) es =
      ((Entry.looksIn w.goesInto above es).filter fun x => x.2.isDir && w.goesInto x.1).map
        fun x => Path.below w.root x.1
  | [], _, _, _ => by simp [directoriesIn, Entry.looksIn]
  | (name, e) :: rest, above, h, habove => by
    have hnames : ∀ k ∈ above ++ [name], Path.Plain k :=
      List.forall_mem_append.2 ⟨habove, by simpa using h.plain (name, e) List.mem_cons_self⟩
    have hrest := directoriesIn_eq_looks (w := w) h.tail habove
    have he : e.WellFormed := h.children (name, e) List.mem_cons_self
    rw [directoriesIn, ← Path.below_concat, hrest, Entry.looksIn]
    cases e with
    | file content => simp [directories, Entry.isDir, Entry.looks]
    | link target => simp [directories, Entry.isDir, Entry.looks]
    | dir entries =>
      have hinner := directoriesIn_eq_looks (w := w) he hnames
      rw [directories, enters_below hnames (by simp), hinner]
      cases hgoes : w.goesInto (above ++ [name]) <;> simp [Entry.isDir, Entry.looks, hgoes]

end Watch

/-! ## What a scan finds -/

namespace Selection

/-- The directories that a scan goes into below its root, in order. -/
def descended (s : Selection) (e : Entry) : List (List Text) :=
  ((e.looks s.goesInto []).filter fun x => x.2.isDir && s.goesInto x.1).map (·.1)

/-- Every directory between the root of a scan and a place is relevant. -/
def Reaches (s : Selection) (names : List Text) : Prop :=
  ∀ above, above <+: names → above ≠ [] → above ≠ names →
    s.isRelevant (Text.join "/" above) true = true

theorem goesThrough_iff_reaches {s : Selection} {names : List Text} :
    Entry.GoesThrough s.goesInto [] names ↔ s.Reaches names := by
  constructor
  · rintro h above ⟨rest, rfl⟩ hne hproper
    exact h above rest rfl hne (by simpa [eq_comm] using hproper)
  · rintro h p q rfl hp hq
    exact h p (List.prefix_append p q) hp (by simpa [eq_comm] using hq)

theorem reaches_concat_iff {s : Selection} {names : List Text} {name : Text} :
    s.Reaches (names ++ [name]) ↔
      names = [] ∨ s.isRelevant (Text.join "/" names) true = true ∧ s.Reaches names := by
  constructor
  · intro h
    by_cases hnil : names = []
    · exact .inl hnil
    · refine .inr ⟨h names (List.prefix_append ..) hnil (by simp), ?_⟩
      intro above habove hne _
      refine h above (habove.trans (List.prefix_append ..)) hne ?_
      rintro rfl
      simpa using habove.length_le
  · intro h above habove hne hproper
    obtain habove | habove := List.prefix_concat_iff.1 habove
    · exact absurd habove hproper
    · obtain rfl | ⟨hrelevant, hreaches⟩ := h
      · exact absurd (List.prefix_nil.1 habove) hne
      · by_cases heq : above = names
        · rwa [heq]
        · exact hreaches above habove hne heq

theorem reaches_singleton (s : Selection) (name : Text) : s.Reaches [name] :=
  (@reaches_concat_iff s [] name).2 (.inl rfl)

theorem Reaches.concat {s : Selection} {names : List Text} {name : Text}
    (hrelevant : s.isRelevant (Text.join "/" names) true = true) (h : s.Reaches names) :
    s.Reaches (names ++ [name]) :=
  reaches_concat_iff.2 (.inr ⟨hrelevant, h⟩)

variable {s : Selection} {e x : Entry} {names : List Text} (h : e.WellFormed)

include h

theorem mem_looks_iff_reaches : (names, x) ∈ e.looks s.goesInto [] ↔
    names ≠ [] ∧ e.get? names = some x ∧ s.Reaches names := by
  rw [Entry.mem_looks_iff h]
  simp only [List.nil_append, goesThrough_iff_reaches]
  constructor
  · rintro ⟨rel, hne, rfl, hget, hreaches⟩
    exact ⟨hne, hget, hreaches⟩
  · rintro ⟨hne, hget, hreaches⟩
    exact ⟨names, hne, rfl, hget, hreaches⟩

theorem mem_descended_iff : names ∈ s.descended e ↔
    names ≠ [] ∧ e.IsDirAt names ∧ s.isRelevant (Text.join "/" names) true = true ∧
      s.Reaches names := by
  unfold descended
  simp only [List.mem_map, List.mem_filter, Prod.exists, exists_and_right, exists_eq_right,
    mem_looks_iff_reaches h, Bool.and_eq_true]
  constructor
  · rintro ⟨x, ⟨hne, hget, hreaches⟩, hdir, hgoes⟩
    cases x with
    | dir es => exact ⟨hne, ⟨es, hget⟩, hgoes, hreaches⟩
    | file content => cases hdir
    | link target => cases hdir
  · rintro ⟨hne, ⟨es, hget⟩, hgoes, hreaches⟩
    exact ⟨.dir es, ⟨hne, hget, hreaches⟩, rfl, hgoes⟩

/-- A scan looks at what lies in its root or in a directory that it goes into, and at nothing else. -/
theorem mem_looks_iff_descended {name : Text} : (names ++ [name], x) ∈ e.looks s.goesInto [] ↔
    e.get? (names ++ [name]) = some x ∧ (names = [] ∨ names ∈ s.descended e) := by
  rw [mem_looks_iff_reaches h, mem_descended_iff h, reaches_concat_iff]
  constructor
  · rintro ⟨-, hget, hreaches⟩
    refine ⟨hget, ?_⟩
    by_cases hnil : names = []
    · exact .inl hnil
    · have hdir : e.IsDirAt names := Entry.exists_dir_above hget (List.prefix_append ..) (by simp)
      exact .inr ⟨hnil, hdir, hreaches.resolve_left hnil⟩
  · rintro ⟨hget, hreaches⟩
    exact ⟨by simp, hget, hreaches.imp_right fun h => h.2.2⟩

end Selection

namespace Scanner

theorem excluding_nil (s : Scanner) : s.excluding [] = .ok s := by
  obtain ⟨library, whitelist?, ⟨included, excluded⟩, workers, hworkers⟩ := s
  show Except.ok _ = _
  simp

/-- The files that a scan of a tree takes. -/
def filesOf (s : Selection) (e : Entry) : List (Text × Text) :=
  (e.looks s.goesInto []).filterMap s.taken?

theorem visits_eq_looks {s : Selection} {es : List (Text × Entry)} (h : (Entry.dir es).WellFormed) :
    visits s [] (.dir es) = ((Entry.dir es).looks s.goesInto []).map s.taken? := by
  rw [visits, Entry.looks]
  exact @visitsIn_eq_looks s es [] h (by simp)

theorem discovery_eq_filesOf {s : Scanner} {d : Disk} {root : Text} {es : List (Text × Entry)}
    (hroot : d.lstat root = .ok (.dir es)) (htree : (Entry.dir es).WellFormed) :
    s.discovery d none root = .ok { files := filesOf s.selection (.dir es) } := by
  have hstat := Disk.stat_of_lstat hroot (by simp)
  rw [discovery, hstat]
  dsimp only
  rw [hroot]
  dsimp only
  rw [visits_eq_looks htree, Discovery.ofVisits, List.filterMap_cons, List.filterMap_map]
  rfl

section FilesOf

variable {s : Selection} {e : Entry} (h : e.WellFormed)

include h

theorem mem_filesOf_iff {path content : Text} : (path, content) ∈ filesOf s e ↔
    ∃ names, names ≠ [] ∧ path = Text.join "/" names ∧ e.get? names = some (.file content) ∧
      s.isRelevant path false = true ∧ s.Reaches names := by
  unfold filesOf
  rw [List.mem_filterMap]
  constructor
  · rintro ⟨⟨names, x⟩, hmem, htaken⟩
    obtain ⟨hne, hget, hreaches⟩ := (Selection.mem_looks_iff_reaches h).1 hmem
    cases x with
    | dir _ => cases htaken
    | link _ => cases htaken
    | file content' =>
      simp only [Selection.taken?, Option.ite_none_right_eq_some, Option.some.injEq,
        Prod.mk.injEq] at htaken
      obtain ⟨hrelevant, rfl, rfl⟩ := htaken
      exact ⟨names, hne, rfl, hget, hrelevant, hreaches⟩
  · rintro ⟨names, hne, rfl, hget, hrelevant, hreaches⟩
    refine ⟨(names, .file content), (Selection.mem_looks_iff_reaches h).2 ⟨hne, hget, hreaches⟩, ?_⟩
    simp [Selection.taken?, hrelevant]

theorem parts_of_mem_looks {x : List Text × Entry} (hx : x ∈ e.looks s.goesInto []) :
    Path.parts (Text.join "/" x.1) = x.1 := by
  obtain ⟨names, x⟩ := x
  obtain ⟨-, hget, -⟩ := (Selection.mem_looks_iff_reaches h).1 hx
  exact Path.parts_join fun k hk => (h.plain_of_get? hget k hk).isPart

theorem pairwise_filesOf :
    ((filesOf s e).map fun file => Path.parts file.1).Pairwise Path.Before := by
  rw [List.pairwise_map, filesOf, List.pairwise_filterMap]
  refine (Entry.pairwise_looks h).imp_of_mem ?_
  intro x y hx hy hbefore f hf g hg
  have hpath : ∀ {z : List Text × Entry} {file}, s.taken? z = some file →
      file.1 = Text.join "/" z.1 := by
    rintro ⟨names, z⟩ file hz
    cases z with
    | dir _ => cases hz
    | link _ => cases hz
    | file content =>
      simp only [Selection.taken?, Option.ite_none_right_eq_some, Option.some.injEq] at hz
      rw [← hz.2]
  rw [hpath hf, hpath hg, parts_of_mem_looks h hx, parts_of_mem_looks h hy]
  exact hbefore

theorem nodup_filesOf : ((filesOf s e).map (·.1)).Nodup := by
  have hparts : (((filesOf s e).map (·.1)).map Path.parts).Nodup := by
    rw [List.map_map]
    refine (pairwise_filesOf h).imp ?_
    rintro p q hbefore rfl
    exact Path.not_before_self p hbefore
  exact hparts.of_map _

/-- A file that is found lies in the root or in a directory that the scan goes into. -/
theorem mem_watched_of_mem_filesOf (root : Text) {file : Text × Text} (hfile : file ∈ filesOf s e) :
    Path.below root (Path.parts file.1).dropLast ∈
      root :: (s.descended e).map (Path.below root) := by
  obtain ⟨path, content⟩ := file
  obtain ⟨names, hne, rfl, hget, -, hreaches⟩ := (mem_filesOf_iff h).1 hfile
  have hlooked := (Selection.mem_looks_iff_reaches h).2 ⟨hne, hget, hreaches⟩
  rw [parts_of_mem_looks h hlooked]
  obtain rfl | ⟨above, name, rfl⟩ := List.eq_nil_or_concat names
  · exact absurd rfl hne
  · rw [List.concat_eq_append] at hlooked ⊢
    rw [List.dropLast_concat]
    obtain ⟨-, rfl | habove⟩ := (Selection.mem_looks_iff_descended h).1 hlooked
    · exact List.mem_cons_self
    · exact List.mem_cons_of_mem _ (List.mem_map_of_mem habove)

end FilesOf

end Scanner

/-- A watch registers its root and the directories that a scan goes into. -/
theorem Watch.registered_start {s : Selection} {d : Disk} {root : Text} {es : List (Text × Entry)}
    (hroot : d.lstat root = .ok (.dir es)) (htree : (Entry.dir es).WellFormed) :
    ∃ w, Watch.start d root s.isRelevant = .ok w ∧
      w.registered = root :: (s.descended (.dir es)).map (Path.below root) := by
  have hstat := Disk.stat_of_lstat hroot (by simp)
  let w : Watch := { root, isRelevant := s.isRelevant }
  refine ⟨w.register d root, ?_, ?_⟩
  · rw [start, hstat]
    rfl
  · have hwalk := @directoriesIn_eq_looks w es [] htree (by simp)
    rw [Path.below_nil] at hwalk
    rw [register, hroot]
    show [] ++ w.directories root (.dir es) = _
    rw [List.nil_append, directories, if_pos (w.enters_root), Selection.descended, List.map_map]
    exact congrArg (root :: ·) hwalk

namespace Scanner

/-! ### A directory that is excluded -/

def builtTree : List (Text × Entry) :=
  [("a.py", .file "x"), ("build", .dir [("b.py", .file "y")]), ("sub", .dir [("c.py", .file "z")])]

def builtDisk : Disk := { root := .dir [("t", .dir builtTree)] }

theorem wellFormed_builtTree : (Entry.dir builtTree).WellFormed := by
  have hfile : ∀ name content : Text, Path.Plain name →
      (Entry.dir [(name, .file content)]).WellFormed := by
    intro name content hname
    exact .dir (by simpa using hname) (List.pairwise_singleton ..) (by simpa using .file content)
  refine .dir (by decide) (by decide) ?_
  simp only [builtTree, List.forall_mem_cons]
  exact ⟨.file _, hfile _ _ (by decide), hfile _ _ (by decide), by simp⟩

/-- A scanner that leaves out what is built. -/
def pruning : Scanner :=
  { library := ⟨[], [], []⟩, whitelist? := none
    selection := ⟨[], (Glob.compile ["build"]).toOption.getD []⟩
    workers_pos := Nat.one_pos }

end Scanner

end LiteralAudit
