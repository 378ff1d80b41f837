import LiteralAudit.Proofs.Disk.Below
import LiteralAudit.Proofs.Disk.Preorder
import LiteralAudit.Watch

/-!
# Operations on a tree that is watched

An `Operation` is what somebody does to a file or a directory below the root of a watch: it is made, written,
removed or renamed, also from outside or to there. `Operation.apply` is the tree behind it, and
`Operation.happenings` is what the directories could tell of it, of which those tell that are registered
(`Watch.notified`). A directory that is renamed tells nothing of what is in it.

`Operation.Possible` says what the system lets happen. Of a possible operation, every directory that was not
there before lies at or below a place of which it is told that something was created there
(`Operation.Possible.isDirAt_apply`).
-/

namespace LiteralAudit

/-- What is done to an entry below a directory. The names lead on from there. -/
inductive Operation where
  /-- An entry is made, or comes from outside with all that is in it. -/
  | create (names : List Text) (x : Entry)
  /-- A file is written that was there before. -/
  | write (names : List Text) (content : Text)
  /-- An entry is removed with all that is in it. -/
  | remove (names : List Text)
  /-- An entry is renamed to a place outside. -/
  | moveOut (names : List Text)
  /-- An entry is renamed to another place, where it may replace one. -/
  | rename (old new : List Text)

namespace Operation

/-- The tree behind an operation. -/
def apply (e : Entry) : Operation → Entry
  | create names x => e.set x names
  | write names content => e.set (.file content) names
  | remove names => e.erase names
  | moveOut names => e.erase names
  | rename old new =>
    match e.get? old with
    | some x => (e.erase old).set x new
    | none => e

/-- A file or a directory can be put at a place. A directory replaces an empty one only, and a file
anything but a directory. -/
structure HasRoom (e : Entry) (names : List Text) (x : Entry) : Prop where
  ne_nil : names ≠ []
  nameable : ∀ k ∈ names, Path.Nameable k
  above : e.IsDirAt names.dropLast
  not_link : ∀ target, x ≠ .link target
  replaces : ∀ y, e.get? names = some y → if x.isDir then y = .dir [] else y.isDir = false

/-- The system lets an operation happen. -/
def Possible (e : Entry) : Operation → Prop
  | create names x => x.WellFormed ∧ HasRoom e names x
  | write names _ => names ≠ [] ∧ ∃ content, e.get? names = some (.file content)
  | remove names => names ≠ [] ∧ ∃ x, e.get? names = some x
  | moveOut names => names ≠ [] ∧ ∃ x, e.get? names = some x
  | rename old new => old ≠ [] ∧ ¬old <+: new ∧ ∃ x, e.get? old = some x ∧ HasRoom e new x

/-- The places in a tree at and below some names; what lies in a directory comes before it. -/
def placesAt (e : Entry) (names : List Text) : List (List Text) :=
  match e.get? names with
  | some x => ((x.looks (fun _ => true) names).map (·.1)).reverse ++ [names]
  | none => []

/-- What happens at which places, as far as the directories of the places could tell. -/
def happenings (e : Entry) : Operation → List (List Text × FileChange)
  | create names _ => [(names, .create)]
  | write names _ => [(names, .write)]
  | remove names => (placesAt e names).map (·, .remove)
  | moveOut names => [(names, .rename)]
  | rename old new => [(old, .rename), (new, .create)]

end Operation

namespace Watch

/-- The events of what happens in directories that are registered. -/
def notified (w : Watch) (hs : List (List Text × FileChange)) : List FileEvent :=
  (hs.filter fun h => w.registered.contains (Path.below w.root h.1.dropLast)).map fun h =>
    ⟨Path.below w.root h.1, [h.2]⟩

/-- Whether one of some events matters, and the watch behind them. -/
def handleAll (w : Watch) (d : Disk) : List FileEvent → Bool × Watch
  | [] => (false, w)
  | ev :: rest =>
    let (first, w) := w.handle d ev
    let (later, w) := handleAll w d rest
    (first || later, w)

end Watch

namespace Operation

variable {e x : Entry} {names q : List Text} {o : Operation}

/-! ## Trees behind operations -/

theorem isDirAt_dropLast (hne : names ≠ []) (hget : e.get? names = some x) :
    e.IsDirAt names.dropLast := by
  refine Entry.exists_dir_above hget (List.dropLast_prefix _) ?_
  intro heq
  have hlength := congrArg List.length heq
  have hpos := List.length_pos_iff.2 hne
  rw [List.length_dropLast] at hlength
  omega

theorem get?_create (ho : Possible e (create names x)) :
    ((create names x).apply e).get? names = some x := by
  obtain ⟨es, hes⟩ := ho.2.above
  exact Entry.get?_set_self x (.inr ⟨_, hes⟩)

section Rename

variable {old new : List Text} (ho : Possible e (rename old new)) (hget : e.get? old = some x)

include ho hget

/-- The directory to which an entry is renamed stays when the entry leaves its place. -/
theorem isDirAt_erase : (e.erase old).IsDirAt new.dropLast := by
  obtain ⟨hne, hnew, y, hy, hroom⟩ := ho
  rw [← Entry.shape?_eq_dir_iff, Entry.shape?_erase hne (isDirAt_dropLast hne hget), if_neg]
  · exact Entry.shape?_eq_dir_iff.2 hroom.above
  · exact fun h => hnew (h.trans (List.dropLast_prefix _))

theorem shape?_rename (q : List Text) : ((rename old new).apply e).shape? q =
    if new <+: q then x.shape? (q.drop new.length) else if old <+: q then none else e.shape? q := by
  have habove := isDirAt_erase ho hget
  rw [apply, hget]
  dsimp only
  rw [Entry.shape?_set x habove, Entry.shape?_erase ho.1 (isDirAt_dropLast ho.1 hget)]

theorem get?_rename : ((rename old new).apply e).get? new = some x := by
  obtain ⟨es, hes⟩ := isDirAt_erase ho hget
  rw [apply, hget]
  exact Entry.get?_set_self x (.inr ⟨_, hes⟩)

end Rename

theorem Possible.wellFormed_apply (he : e.WellFormed) (ho : o.Possible e) : (o.apply e).WellFormed := by
  cases o with
  | create names x => exact he.set ho.1 fun k hk => (ho.2.nameable k hk).toPlain
  | write names content =>
    obtain ⟨-, old, hold⟩ := ho
    exact he.set (.file content) (he.plain_of_get? hold)
  | remove names => exact he.erase names
  | moveOut names => exact he.erase names
  | rename old new =>
    obtain ⟨-, -, x, hx, hroom⟩ := ho
    rw [apply, hx]
    exact (he.erase old).set (he.of_get? hx) fun k hk => (hroom.nameable k hk).toPlain

theorem shape?_erase_of_get? (h : names ≠ [] ∧ ∃ x, e.get? names = some x) (q : List Text) :
    (e.erase names).shape? q = if names <+: q then none else e.shape? q := by
  obtain ⟨hne, x, hx⟩ := h
  exact Entry.shape?_erase hne (isDirAt_dropLast hne hx) q

/-- An operation changes what is at and below the places at which it happens, and makes directories only
where something was created. -/
theorem Possible.shape?_apply (ho : o.Possible e) (q : List Text) :
    (o.apply e).shape? q = e.shape? q ∨
      ∃ h ∈ o.happenings e, h.1 <+: q ∧ ((o.apply e).IsDirAt q → h.2 = .create) := by
  simp only [← Entry.shape?_eq_dir_iff]
  cases o with
  | create names x =>
    rw [apply, Entry.shape?_set x ho.2.above]
    split
    · next hwithin => exact .inr ⟨_, List.mem_singleton_self _, hwithin, fun _ => rfl⟩
    · exact .inl rfl
  | write names content =>
    obtain ⟨hne, old, hold⟩ := ho
    rw [apply, Entry.shape?_set _ (isDirAt_dropLast hne hold)]
    split
    · next hwithin =>
      refine .inr ⟨_, List.mem_singleton_self _, hwithin, fun hdir => ?_⟩
      obtain ⟨es, hes⟩ := (Entry.shape?_eq_dir_iff.1 hdir).exists_eq_dir
      cases hes
    · exact .inl rfl
  | remove names =>
    obtain ⟨-, x, hx⟩ := id ho
    rw [apply, shape?_erase_of_get? ho]
    split
    · next hwithin =>
      have hplace : names ∈ placesAt e names := by simp [placesAt, hx]
      exact .inr ⟨_, List.mem_map_of_mem hplace, hwithin, by simp⟩
    · exact .inl rfl
  | moveOut names =>
    rw [apply, shape?_erase_of_get? ho]
    split
    · next hwithin => exact .inr ⟨_, List.mem_singleton_self _, hwithin, by simp⟩
    · exact .inl rfl
  | rename old new =>
    obtain ⟨-, -, x, hx, -⟩ := id ho
    rw [shape?_rename ho hx]
    split
    · next hwithin =>
      exact .inr ⟨_, List.mem_cons_of_mem _ (List.mem_singleton_self _), hwithin, fun _ => rfl⟩
    · split
      · next hwithin => exact .inr ⟨_, List.mem_cons_self, hwithin, by simp⟩
      · exact .inl rfl

/-- A directory behind an operation was one before, or lies at or below a place where something was
created. -/
theorem Possible.isDirAt_apply (ho : o.Possible e) (hq : (o.apply e).IsDirAt q) :
    e.IsDirAt q ∨ ∃ names, (names, .create) ∈ o.happenings e ∧ names <+: q := by
  obtain hsame | ⟨⟨names, change⟩, hmem, hwithin, hcreate⟩ := ho.shape?_apply q
  · rw [← Entry.shape?_eq_dir_iff] at hq ⊢
    exact .inl (hsame.symm.trans hq)
  · obtain rfl : change = .create := hcreate hq
    exact .inr ⟨names, hmem, hwithin⟩

/-! ## What is told of an operation -/

theorem mem_placesAt_iff (he : e.WellFormed) {p : List Text} :
    p ∈ placesAt e names ↔ names <+: p ∧ ∃ x, e.get? p = some x := by
  unfold placesAt
  split
  · next x hx =>
    simp only [List.mem_append, List.mem_reverse, List.mem_map, Prod.exists, exists_and_right,
      exists_eq_right, List.mem_singleton, Entry.mem_looks_iff (he.of_get? hx)]
    constructor
    · rintro (⟨y, rel, -, rfl, hget, -⟩ | rfl)
      · refine ⟨List.prefix_append .., y, ?_⟩
        rwa [Entry.get?_append, hx, Option.bind_some]
      · exact ⟨List.prefix_rfl, x, hx⟩
    · rintro ⟨⟨rel, rfl⟩, y, hget⟩
      rw [Entry.get?_append, hx, Option.bind_some] at hget
      by_cases hrel : rel = []
      · exact .inr (by rw [hrel, List.append_nil])
      · exact .inl ⟨y, rel, hrel, rfl, hget, fun _ _ _ _ _ => rfl⟩
  · next hnone =>
    simp only [List.not_mem_nil, false_iff]
    rintro ⟨⟨rel, rfl⟩, y, hget⟩
    rw [Entry.get?_append, hnone] at hget
    cases hget

/-- What a happening of an operation is told of: an entry of a directory, and one that is there behind the
operation when it is told that it was created. -/
structure Telling (e e' : Entry) (h : List Text × FileChange) : Prop where
  ne_nil : h.1 ≠ []
  plain : ∀ k ∈ h.1, Path.Plain k
  above : e.IsDirAt h.1.dropLast
  not_chmod : h.2 ≠ .chmod
  created : h.2 = .create → (∀ k ∈ h.1, Path.Nameable k) ∧
    ∃ x, e'.get? h.1 = some x ∧ x.WellFormed ∧ ∀ target, x ≠ .link target

theorem telling_of_get? {e' : Entry} {change : FileChange} (he : e.WellFormed) (hne : names ≠ [])
    (hget : e.get? names = some x) (hchmod : change ≠ .chmod) (hcreate : change ≠ .create) :
    Telling e e' (names, change) :=
  ⟨hne, he.plain_of_get? hget, isDirAt_dropLast hne hget, hchmod, fun h => absurd h hcreate⟩

theorem HasRoom.telling {e' : Entry} (h : HasRoom e names x) (hx : x.WellFormed)
    (hget : e'.get? names = some x) : Telling e e' (names, .create) :=
  ⟨h.ne_nil, fun k hk => (h.nameable k hk).toPlain, h.above, by simp,
    fun _ => ⟨h.nameable, x, hget, hx, h.not_link⟩⟩

theorem Possible.telling (he : e.WellFormed) (ho : o.Possible e) :
    ∀ h ∈ o.happenings e, Telling e (o.apply e) h := by
  cases o with
  | create names x =>
    simpa [happenings] using ho.2.telling ho.1 (get?_create ho)
  | write names content =>
    obtain ⟨hne, old, hold⟩ := ho
    simpa [happenings] using telling_of_get? he hne hold (by simp) (by simp)
  | remove names =>
    obtain ⟨hne, x, hx⟩ := ho
    intro h hh
    obtain ⟨p, hp, rfl⟩ := List.mem_map.1 hh
    obtain ⟨hwithin, y, hy⟩ := (mem_placesAt_iff he).1 hp
    refine telling_of_get? he ?_ hy (by simp) (by simp)
    rintro rfl
    exact hne (List.prefix_nil.1 hwithin)
  | moveOut names =>
    obtain ⟨hne, x, hx⟩ := ho
    simpa [happenings] using telling_of_get? he hne hx (by simp) (by simp)
  | rename old new =>
    obtain ⟨hne, -, x, hx, hroom⟩ := id ho
    simpa [happenings] using ⟨telling_of_get? he hne hx (by simp) (by simp),
      hroom.telling (he.of_get? hx) (get?_rename ho hx)⟩

/-- The directory itself stays. -/
theorem Possible.isDirAt_nil (ho : o.Possible e) (hwf : e.WellFormed) (he : e.IsDirAt []) :
    (o.apply e).IsDirAt [] := by
  obtain hsame | ⟨h, hmem, hwithin, -⟩ := ho.shape?_apply []
  · rw [← Entry.shape?_eq_dir_iff] at he ⊢
    exact hsame.trans he
  · exact absurd (List.prefix_nil.1 hwithin) (ho.telling hwf h hmem).ne_nil

end Operation

end LiteralAudit
