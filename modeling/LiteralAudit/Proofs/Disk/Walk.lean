import LiteralAudit.Disk.Basic
import Mathlib

/-!
# Trees, and where paths lead in them

`Entry.get?` follows names through directories, `Entry.set` puts an entry where names lead to. What is
found afterwards depends on how the two lists of names lie to each other: at the place itself there is
the new entry (`get?_set_self`), above it directories stay directories (`get?_set_dir`), and beside it
nothing changes (`get?_set_beside`).

`Disk.walk` follows a path through directories and links. `Leads` is the relation between such a walk
and the place where it ends, with a constructor for each thing that can be done with the next part, and
`walk_eq_ok_iff` ties the two together. A walk depends on the directories and links on its way only
(`Leads.of_kept`), so that it ends at the same place after a file was put there: this is how a file that
was replaced is found again under its path.
-/

namespace LiteralAudit

theorem Text.cmp_eq_eq_iff (a b : Text) : Text.cmp a b = .eq ↔ a = b := by
  induction a generalizing b with
  | nil => cases b <;> simp [Text.cmp]
  | cons x a ih =>
    cases b with
    | nil => simp [Text.cmp]
    | cons y b =>
      rw [Text.cmp]
      split
      · next h =>
        simp only [reduceCtorEq, false_iff, List.cons.injEq, not_and]
        rintro rfl
        exact absurd h (UInt8.lt_irrefl x)
      · split
        · next h =>
          simp only [reduceCtorEq, false_iff, List.cons.injEq, not_and]
          rintro rfl
          exact absurd h (UInt8.lt_irrefl x)
        · next h₁ h₂ =>
          have hxy : x = y := UInt8.le_antisymm (UInt8.not_lt.1 h₂) (UInt8.not_lt.1 h₁)
          rw [ih, hxy]
          simp

namespace Entry

/-! ## Directories as tables -/

theorem lookup_insert_self (name : Text) (e : Entry) (es : List (Text × Entry)) :
    (insert name e es).lookup name = some e := by
  induction es with
  | nil => simp [insert]
  | cons x es ih =>
    obtain ⟨n, old⟩ := x
    rw [insert]
    split
    · simp
    · next h => simp [(Text.cmp_eq_eq_iff name n).1 h]
    · next h =>
      have hne : (name == n) = false := by
        rw [beq_eq_false_iff_ne]
        rintro rfl
        rw [(Text.cmp_eq_eq_iff name name).2 rfl] at h
        cases h
      rw [List.lookup_cons, hne]
      exact ih

theorem lookup_insert_of_ne {name other : Text} (hne : other ≠ name) (e : Entry)
    (es : List (Text × Entry)) : (insert name e es).lookup other = es.lookup other := by
  have hother : (other == name) = false := beq_eq_false_iff_ne.2 hne
  induction es with
  | nil => rw [insert, List.lookup_cons, hother]
  | cons x es ih =>
    obtain ⟨n, old⟩ := x
    rw [insert]
    split
    · rw [List.lookup_cons, hother]
    · next h =>
      rw [← (Text.cmp_eq_eq_iff name n).1 h, List.lookup_cons, hother, List.lookup_cons, hother]
    · rw [List.lookup_cons, List.lookup_cons, ih]

/-! ## Places -/

theorem get?_cons (e : Entry) (name : Text) (rest : List Text) :
    e.get? (name :: rest) = (e.entries.lookup name).bind (·.get? rest) := rfl

theorem get?_append (e : Entry) (p q : List Text) :
    e.get? (p ++ q) = (e.get? p).bind (·.get? q) := by
  induction p generalizing e with
  | nil => rfl
  | cons name p ih =>
    rw [List.cons_append, get?_cons, get?_cons, Option.bind_assoc]
    exact Option.bind_congr fun child _ => ih child

theorem get?_concat {e : Entry} {p : List Text} {es : List (Text × Entry)}
    (h : e.get? p = some (.dir es)) (name : Text) : e.get? (p ++ [name]) = es.lookup name := by
  rw [get?_append, h, Option.bind_some, get?_cons]
  exact Option.bind_fun_some _

/-- What something lies in is a directory. -/
theorem exists_dir_above {e x : Entry} {p q : List Text} (h : e.get? q = some x) (hp : p <+: q)
    (hne : p ≠ q) : ∃ es, e.get? p = some (.dir es) := by
  obtain ⟨rest, rfl⟩ := hp
  cases rest with
  | nil => exact absurd (List.append_nil p).symm hne
  | cons name rest =>
    rw [get?_append] at h
    obtain ⟨y, hy, h⟩ := Option.bind_eq_some_iff.1 h
    cases y with
    | dir es => exact ⟨es, hy⟩
    | file c => cases h
    | link t => cases h

/-! ## Setting an entry -/

theorem get?_set_self {e : Entry} {names : List Text} (new : Entry)
    (h : names = [] ∨ ∃ x, e.get? names.dropLast = some x) :
    (e.set new names).get? names = some new := by
  fun_induction set e new names with
  | case1 => rfl
  | case2 e name => rw [get?_cons, entries, lookup_insert_self]; rfl
  | case3 e name next rest child hchild ih =>
    rw [get?_cons, entries, lookup_insert_self]
    refine ih (.inr ?_)
    obtain h | ⟨x, hx⟩ := h
    · cases h
    · rw [List.dropLast_cons_cons, get?_cons, hchild] at hx
      exact ⟨x, hx⟩
  | case4 e name next rest hnone =>
    obtain h | ⟨x, hx⟩ := h
    · cases h
    · rw [List.dropLast_cons_cons, get?_cons, hnone] at hx
      cases hx

/-- What lies beside the place stays as it is. -/
theorem get?_set_beside {e : Entry} {names q : List Text} (new : Entry)
    (hq : ¬ names <+: q) (hq' : ¬ q <+: names) : (e.set new names).get? q = e.get? q := by
  fun_induction set e new names generalizing q with
  | case1 => exact absurd List.nil_prefix hq
  | case2 e name =>
    cases q with
    | nil => exact absurd List.nil_prefix hq'
    | cons m q =>
      have hm : m ≠ name := by
        rintro rfl
        exact hq (List.cons_prefix_cons.2 ⟨rfl, List.nil_prefix⟩)
      rw [get?_cons, entries, lookup_insert_of_ne hm]
      rfl
  | case3 e name next rest child hchild ih =>
    cases q with
    | nil => exact absurd List.nil_prefix hq'
    | cons m q =>
      by_cases hm : m = name
      · subst hm
        rw [get?_cons, entries, lookup_insert_self, get?_cons, hchild]
        exact ih (fun h => hq (List.cons_prefix_cons.2 ⟨rfl, h⟩))
          (fun h => hq' (List.cons_prefix_cons.2 ⟨rfl, h⟩))
      · rw [get?_cons, entries, lookup_insert_of_ne hm]
        rfl
  | case4 => rfl

/-- A directory above the place stays a directory. -/
theorem get?_set_above {e : Entry} {names q : List Text} {es : List (Text × Entry)} (new : Entry)
    (hq : q <+: names) (hne : q ≠ names) (h : e.get? q = some (.dir es)) :
    ∃ es', (e.set new names).get? q = some (.dir es') := by
  fun_induction set e new names generalizing q es with
  | case1 => exact absurd (List.prefix_nil.1 hq) hne
  | case2 e name =>
    cases q with
    | nil => exact ⟨_, rfl⟩
    | cons m q =>
      obtain ⟨rfl, hnil⟩ := List.cons_prefix_cons.1 hq
      rw [List.prefix_nil.1 hnil] at hne
      exact absurd rfl hne
  | case3 e name next rest child hchild ih =>
    cases q with
    | nil => exact ⟨_, rfl⟩
    | cons m q =>
      obtain ⟨rfl, hrest⟩ := List.cons_prefix_cons.1 hq
      rw [get?_cons, hchild] at h
      rw [get?_cons, entries, lookup_insert_self]
      exact ih hrest (fun hqq => hne (by rw [hqq])) h
  | case4 => exact ⟨es, h⟩

section Nondirectory

variable {e : Entry} {names : List Text} (new : Entry)
  (hnames : ¬ ∃ es, e.get? names = some (.dir es))

include hnames

/-- A directory is still one after a file, or nothing, has given way to an entry. -/
theorem get?_set_dir {q : List Text} {es : List (Text × Entry)} (h : e.get? q = some (.dir es)) :
    ∃ es', (e.set new names).get? q = some (.dir es') := by
  have hne : q ≠ names := by
    rintro rfl
    exact hnames ⟨es, h⟩
  by_cases hq : q <+: names
  · exact get?_set_above new hq hne h
  · have hq' : ¬ names <+: q := fun hp => hnames (exists_dir_above h hp hne.symm)
    exact ⟨es, by rw [get?_set_beside new hq' hq]; exact h⟩

/-- What is neither a directory nor the entry that gave way is still there. -/
theorem get?_set_of_not_dir {q : List Text} {x : Entry} (h : e.get? q = some x)
    (hx : ∀ es, x ≠ .dir es) (hne : q ≠ names)
    (hparent : names = [] ∨ ∃ es, e.get? names.dropLast = some (.dir es)) :
    (e.set new names).get? q = some x := by
  have hq : ¬ q <+: names := by
    intro hp
    obtain rfl | ⟨es, hes⟩ := hparent
    · exact hne (List.prefix_nil.1 hp)
    · -- A part of the way to the place is a directory, which `x` is not.
      have hp' : q <+: names.dropLast := by
        obtain ⟨rest, rfl⟩ := hp
        have hrest : rest ≠ [] := by
          rintro rfl
          exact hne (List.append_nil q).symm
        rw [List.dropLast_append_of_ne_nil hrest]
        exact List.prefix_append q _
      by_cases hq : q = names.dropLast
      · rw [hq, hes] at h
        exact hx es (Option.some.inj h).symm
      · obtain ⟨es', hes'⟩ := exists_dir_above hes hp' hq
        rw [h] at hes'
        exact hx es' (Option.some.inj hes')
  have hq' : ¬ names <+: q := fun hp => hnames (exists_dir_above h hp hne.symm)
  rw [get?_set_beside new hq' hq]
  exact h

end Nondirectory

end Entry

/-! ## Steps of a walk -/

/-- There is a directory at a place. -/
def Entry.IsDirAt (root : Entry) (names : List Text) : Prop := ∃ es, root.get? names = some (.dir es)

theorem Entry.not_isDirAt {root : Entry} {names : List Text} {e? : Option Entry}
    (h : root.get? names = e?) (he : ∀ es, e? ≠ some (.dir es)) : ¬ root.IsDirAt names := by
  rintro ⟨es, hes⟩
  exact he es (h.symm.trans hes)

namespace Disk

/-- A part of a path that is the name of an entry. -/
def IsName (part : Text) : Prop :=
  ¬ (part == Text.ofString ".") = true ∧ ¬ (part == Text.ofString "..") = true ∧
    ¬ part.length > nameLimit

/-- The parts `todo` lead from the directory `here` to a place. At most `links` links are followed, one
at the end only when `follow` says so. The place need not hold anything. -/
inductive Leads (root : Entry) (follow : Bool) : Nat → List Text → List Text → List Text → Prop where
  | stop {links here} : Leads root follow links here [] here
  | dot {links here part rest names} : root.IsDirAt here → (part == Text.ofString ".") = true →
      Leads root follow links here rest names → Leads root follow links here (part :: rest) names
  | up {links here part rest names} : root.IsDirAt here → ¬ (part == Text.ofString ".") = true →
      (part == Text.ofString "..") = true → Leads root follow links here.dropLast rest names →
      Leads root follow links here (part :: rest) names
  | last {links here part} : root.IsDirAt here → IsName part → ¬ root.IsDirAt (here ++ [part]) →
      (follow = true → ∀ target, root.get? (here ++ [part]) ≠ some (.link target)) →
      Leads root follow links here [part] (here ++ [part])
  | enter {links here part rest names} : root.IsDirAt here → IsName part →
      root.IsDirAt (here ++ [part]) → Leads root follow links (here ++ [part]) rest names →
      Leads root follow links here (part :: rest) names
  | link {links here part rest target names} : root.IsDirAt here → IsName part →
      root.get? (here ++ [part]) = some (.link target) → ¬ (rest.isEmpty && !follow) = true →
      Leads root follow links (if Path.isAbsolute target then [] else here)
        (Path.parts target ++ rest) names →
      Leads root follow (links + 1) here (part :: rest) names

/-! ## Walks and where they lead -/

theorem leads_of_walk {root : Entry} {follow : Bool} {links : Nat} {here todo : List Text}
    {place : Place} (h : walk root follow links here todo = .ok place) :
    Leads root follow links here todo place.names ∧ root.get? place.names = place.entry? := by
  fun_induction walk root follow links here todo with
  | case1 links here =>
    cases h
    exact ⟨.stop, rfl⟩
  | case2 links here part rest es hdir hdot ih => exact ⟨.dot ⟨es, hdir⟩ hdot (ih h).1, (ih h).2⟩
  | case3 links here part rest es hdir hdot hup ih =>
    exact ⟨.up ⟨es, hdir⟩ hdot hup (ih h).1, (ih h).2⟩
  | case4 => cases h
  | case5 links here part rest es hdir hdot hup hlen hnone hrest =>
    cases h
    have hget : root.get? (here ++ [part]) = none := by rw [Entry.get?_concat hdir, hnone]
    rw [List.isEmpty_iff.1 hrest]
    refine ⟨.last ⟨es, hdir⟩ ⟨hdot, hup, hlen⟩ ?_ ?_, hget⟩
    · exact Entry.not_isDirAt hget (by simp)
    · simp [hget]
  | case6 => cases h
  | case7 links here part rest es hdir hdot hup hlen target hlink hrest =>
    cases h
    have hget : root.get? (here ++ [part]) = some (.link target) := by
      rw [Entry.get?_concat hdir, hlink]
    obtain ⟨hrest, hfollow⟩ := Bool.and_eq_true_iff.1 hrest
    rw [List.isEmpty_iff.1 hrest]
    refine ⟨.last ⟨es, hdir⟩ ⟨hdot, hup, hlen⟩ ?_ ?_, hget⟩
    · exact Entry.not_isDirAt hget (by simp)
    · intro htrue
      rw [htrue] at hfollow
      cases hfollow
  | case8 => cases h
  | case9 here part rest es hdir hdot hup hlen target hlink hrest links ih =>
    have hget : root.get? (here ++ [part]) = some (.link target) := by
      rw [Entry.get?_concat hdir, hlink]
    simp only [dite_eq_ite] at ih
    exact ⟨.link ⟨es, hdir⟩ ⟨hdot, hup, hlen⟩ hget hrest (ih h).1, (ih h).2⟩
  | case10 links here part rest es hdir hdot hup hlen content hfile hrest =>
    cases h
    have hget : root.get? (here ++ [part]) = some (.file content) := by
      rw [Entry.get?_concat hdir, hfile]
    rw [List.isEmpty_iff.1 hrest]
    refine ⟨.last ⟨es, hdir⟩ ⟨hdot, hup, hlen⟩ ?_ ?_, hget⟩
    · exact Entry.not_isDirAt hget (by simp)
    · simp [hget]
  | case11 => cases h
  | case12 links here part rest es hdir hdot hup hlen es' hdir' ih =>
    have hget : root.get? (here ++ [part]) = some (.dir es') := by
      rw [Entry.get?_concat hdir, hdir']
    exact ⟨.enter ⟨es, hdir⟩ ⟨hdot, hup, hlen⟩ ⟨es', hget⟩ (ih h).1, (ih h).2⟩
  | case13 => cases h
  | case14 => cases h

theorem walk_of_leads {root : Entry} {follow : Bool} {links : Nat} {here todo names : List Text}
    (h : Leads root follow links here todo names) :
    walk root follow links here todo = .ok ⟨names, root.get? names⟩ := by
  induction h with
  | stop => rw [walk]
  | @dot links here part rest names hdir hdot _ ih =>
    obtain ⟨es, hdir⟩ := hdir
    rw [walk, hdir]
    simp only [hdot, if_true]
    exact ih
  | @up links here part rest names hdir hdot hup _ ih =>
    obtain ⟨es, hdir⟩ := hdir
    rw [walk, hdir]
    simp only [hdot, hup, if_true]
    exact ih
  | @last links here part hdir hname hlast hlink =>
    obtain ⟨es, hdir⟩ := hdir
    obtain ⟨hdot, hup, hlen⟩ := hname
    rw [Entry.get?_concat hdir] at hlink ⊢
    rw [walk, hdir]
    simp only [hdot, hup, hlen, if_false, List.isEmpty_nil, if_true, Bool.true_and]
    cases hentry : es.lookup part with
    | none => rfl
    | some e =>
      cases e with
      | file content => rfl
      | dir es' => exact absurd ⟨es', by rw [Entry.get?_concat hdir, hentry]⟩ hlast
      | link target =>
        cases follow with
        | false => rfl
        | true => exact absurd hentry (hlink rfl target)
  | @enter links here part rest names hdir hname hnext _ ih =>
    obtain ⟨es, hdir⟩ := hdir
    obtain ⟨es', hnext⟩ := hnext
    obtain ⟨hdot, hup, hlen⟩ := hname
    rw [Entry.get?_concat hdir] at hnext
    rw [walk, hdir]
    simp only [hdot, hup, hlen, if_false, hnext]
    exact ih
  | @link links here part rest target names hdir hname hlink hrest _ ih =>
    obtain ⟨es, hdir⟩ := hdir
    obtain ⟨hdot, hup, hlen⟩ := hname
    rw [Entry.get?_concat hdir] at hlink
    rw [walk, hdir]
    simp only [hdot, hup, hlen, if_false, hlink, hrest]
    exact ih

theorem walk_eq_ok_iff {root : Entry} {follow : Bool} {links : Nat} {here todo names : List Text}
    {e? : Option Entry} : walk root follow links here todo = .ok ⟨names, e?⟩ ↔
      Leads root follow links here todo names ∧ root.get? names = e? := by
  constructor
  · exact leads_of_walk
  · rintro ⟨h, rfl⟩
    exact walk_of_leads h

namespace Leads

/-- A place that can be reached lies in a directory. -/
theorem isDirAt_dropLast {root : Entry} {follow : Bool} {links : Nat} {here todo names : List Text}
    (h : Leads root follow links here todo names) (hhere : here = [] ∨ root.IsDirAt here.dropLast) :
    names = [] ∨ root.IsDirAt names.dropLast := by
  induction h with
  | stop => exact hhere
  | dot _ _ _ ih => exact ih hhere
  | @up links here part rest names hdir hdot hup _ ih =>
    refine ih ?_
    by_cases hnil : here.dropLast = []
    · exact .inl hnil
    · obtain ⟨es, hdir⟩ := hdir
      refine .inr (Entry.exists_dir_above hdir ?_ ?_)
      · exact (List.dropLast_prefix _).trans (List.dropLast_prefix _)
      · intro heq
        have hlen := congrArg List.length heq
        rw [List.length_dropLast, List.length_dropLast] at hlen
        have hpos : 0 < here.dropLast.length := List.length_pos_iff.2 hnil
        rw [List.length_dropLast] at hpos
        omega
  | @last links here part hdir _ _ _ =>
    right
    rwa [List.dropLast_concat]
  | @enter links here part rest names hdir _ _ _ ih =>
    refine ih (.inr ?_)
    rwa [List.dropLast_concat]
  | @link links here part rest target names hdir _ _ _ _ ih =>
    refine ih ?_
    split
    · exact .inl rfl
    · exact hhere

/-- A walk depends on the directories and links on its way, and on the kind of what is at its end. -/
theorem of_kept {root root' : Entry} {follow : Bool} {links : Nat} {here todo names : List Text}
    (h : Leads root follow links here todo names)
    (hdirs : ∀ q, root.IsDirAt q → root'.IsDirAt q)
    (hlinks : ∀ q target, root.get? q = some (.link target) → root'.get? q = some (.link target))
    (hend : ¬ root.IsDirAt names → ¬ root'.IsDirAt names)
    (hlink : ∀ target, root'.get? names ≠ some (.link target)) :
    Leads root' follow links here todo names := by
  induction h with
  | stop => exact .stop
  | dot hdir hdot _ ih => exact .dot (hdirs _ hdir) hdot (ih hend hlink)
  | up hdir hdot hup _ ih => exact .up (hdirs _ hdir) hdot hup (ih hend hlink)
  | last hdir hname hlast _ => exact .last (hdirs _ hdir) hname (hend hlast) fun _ => hlink
  | enter hdir hname hnext _ ih =>
    exact .enter (hdirs _ hdir) hname (hdirs _ hnext) (ih hend hlink)
  | link hdir hname hget hrest _ ih =>
    exact .link (hdirs _ hdir) hname (hlinks _ _ hget) hrest (ih hend hlink)

/-- Whether a link at the end would be followed does not matter when there is none. -/
theorem follow_end {root : Entry} {links : Nat} {here todo names : List Text}
    (h : Leads root false links here todo names)
    (hlink : ∀ target, root.get? names ≠ some (.link target)) :
    Leads root true links here todo names := by
  induction h with
  | stop => exact .stop
  | dot hdir hdot _ ih => exact .dot hdir hdot (ih hlink)
  | up hdir hdot hup _ ih => exact .up hdir hdot hup (ih hlink)
  | last hdir hname hlast _ => exact .last hdir hname hlast fun _ => hlink
  | enter hdir hname hnext _ ih => exact .enter hdir hname hnext (ih hlink)
  | link hdir hname hget _ _ ih => exact .link hdir hname hget (by simp) (ih hlink)

/-- What is reached through a link at the end is reached, or the link is, when it is not followed. -/
theorem exists_unfollowed {root : Entry} {links : Nat} {here todo names : List Text} {e : Entry}
    (h : Leads root true links here todo names) (hget : root.get? names = some e) :
    ∃ names' e', Leads root false links here todo names' ∧ root.get? names' = some e' := by
  induction h with
  | stop => exact ⟨_, e, .stop, hget⟩
  | dot hdir hdot _ ih =>
    obtain ⟨names', e', h', hget'⟩ := ih hget
    exact ⟨names', e', .dot hdir hdot h', hget'⟩
  | up hdir hdot hup _ ih =>
    obtain ⟨names', e', h', hget'⟩ := ih hget
    exact ⟨names', e', .up hdir hdot hup h', hget'⟩
  | last hdir hname hlast _ => exact ⟨_, e, .last hdir hname hlast (by simp), hget⟩
  | enter hdir hname hnext _ ih =>
    obtain ⟨names', e', h', hget'⟩ := ih hget
    exact ⟨names', e', .enter hdir hname hnext h', hget'⟩
  | @link links here part rest target names hdir hname hlink _ _ ih =>
    cases rest with
    | nil =>
      have hlast : ¬ root.IsDirAt (here ++ [part]) := Entry.not_isDirAt hlink (by simp)
      exact ⟨_, _, .last hdir hname hlast (by simp), hlink⟩
    | cons next rest =>
      obtain ⟨names', e', h', hget'⟩ := ih hget
      exact ⟨names', e', .link hdir hname hlink (by simp) h', hget'⟩

end Leads

/-! ## Paths -/

/-- The parts of a path from the root. -/
def partsFromRoot (d : Disk) (path : Text) : List Text :=
  (if Path.isAbsolute path then [] else Path.parts d.cwd) ++ Path.parts path

/-- A slash at the end of a path asks for a directory. -/
def asksForDir (path : Text) : Bool := path.getLast? == some ('/' : UInt8)

/-- A path leads to a place. -/
structure LeadsTo (d : Disk) (path : Text) (follow : Bool) (names : List Text) : Prop where
  nonempty : path.isEmpty = false
  noNul : path.contains 0 = false
  leads : Leads d.root (follow || asksForDir path) linkLimit [] (d.partsFromRoot path) names

theorem LeadsTo.isDirAt_dropLast {d : Disk} {path : Text} {follow : Bool} {names : List Text}
    (h : d.LeadsTo path follow names) : names = [] ∨ d.root.IsDirAt names.dropLast :=
  h.leads.isDirAt_dropLast (.inl rfl)

theorem locate_eq_ok_iff {d : Disk} {path : Text} {follow : Bool} {names : List Text}
    {e? : Option Entry} : d.locate path follow = .ok ⟨names, e?⟩ ↔
      d.LeadsTo path follow names ∧ d.root.get? names = e? ∧
        (asksForDir path = true → ∀ e, e? = some e → e.isDir = true) := by
  unfold locate
  dsimp only
  constructor
  · intro h
    split at h
    · cases h
    · next hempty =>
      split at h
      · cases h
      · next hnul =>
        split at h
        · next names' e hwalk =>
          split at h
          · cases h
          · next hdir =>
            cases h
            obtain ⟨hleads, hget⟩ := walk_eq_ok_iff.1 hwalk
            refine ⟨⟨by simpa using hempty, by simpa using hnul, hleads⟩, hget, ?_⟩
            rintro hslash _ ⟨⟩
            unfold asksForDir at hslash
            simpa [hslash] using hdir
        · next hsome =>
          obtain ⟨hleads, hget⟩ := walk_eq_ok_iff.1 h
          refine ⟨⟨by simpa using hempty, by simpa using hnul, hleads⟩, hget, ?_⟩
          rintro - e rfl
          exact (hsome _ _ h).elim
  · rintro ⟨⟨hempty, hnul, hleads⟩, hget, hdir⟩
    have hwalk := walk_eq_ok_iff.2 ⟨hleads, hget⟩
    unfold partsFromRoot asksForDir at hwalk
    rw [hempty, hnul, hwalk]
    cases e? with
    | none => rfl
    | some e =>
      have hcond : ((path.getLast? == some ('/' : UInt8)) && !e.isDir) = false := by
        cases hslash : asksForDir path with
        | false => rw [← asksForDir, hslash, Bool.false_and]
        | true => simp [hdir hslash e rfl]
      simp [hcond]

end Disk

end LiteralAudit

/-!
## Looking through a link and at it

`Disk.stat` follows a link at the end of a path and `Disk.lstat` does not. They agree unless there is one:
`stat_of_lstat` and `lstat_of_stat`.
-/

namespace LiteralAudit.Disk

theorem lookAt_eq_ok_iff {d : Disk} {operation path : Text} {follow : Bool} {e : Entry} :
    d.lookAt operation path follow = .ok e ↔ ∃ names, d.locate path follow = .ok ⟨names, some e⟩ := by
  unfold lookAt
  split
  · next names x h => simp [h]
  · next h => simp [h]
  · next h => simp [h]

variable {d : Disk} {path : Text} {e : Entry}

/-- What is found without following a link is found when one would be followed. -/
theorem stat_of_lstat (h : d.lstat path = .ok e) (hlink : ∀ target, e ≠ .link target) :
    d.stat path = .ok e := by
  obtain ⟨names, hplace⟩ := lookAt_eq_ok_iff.1 h
  obtain ⟨⟨hempty, hnul, hleads⟩, hget, hdir⟩ := locate_eq_ok_iff.1 hplace
  refine lookAt_eq_ok_iff.2 ⟨names, locate_eq_ok_iff.2 ⟨⟨hempty, hnul, ?_⟩, hget, hdir⟩⟩
  cases hslash : asksForDir path with
  | true => rwa [hslash, Bool.or_true] at hleads
  | false =>
    rw [hslash] at hleads
    refine hleads.follow_end ?_
    intro target htarget
    rw [hget] at htarget
    exact hlink target (Option.some.inj htarget)

/-- What is found when links are followed is there without a link, or behind one. -/
theorem lstat_of_stat (h : d.stat path = .ok e) :
    d.lstat path = .ok e ∨ ∃ target, d.lstat path = .ok (.link target) := by
  obtain ⟨names, hplace⟩ := lookAt_eq_ok_iff.1 h
  obtain ⟨⟨hempty, hnul, hleads⟩, hget, hdir⟩ := locate_eq_ok_iff.1 hplace
  cases hslash : asksForDir path with
  | true =>
    left
    refine lookAt_eq_ok_iff.2 ⟨names, locate_eq_ok_iff.2 ⟨⟨hempty, hnul, ?_⟩, hget, hdir⟩⟩
    rwa [hslash, Bool.or_true] at hleads ⊢
  | false =>
    rw [hslash] at hleads
    obtain ⟨names', e', hleads', hget'⟩ := hleads.exists_unfollowed hget
    have hplace' : d.locate path false = .ok ⟨names', some e'⟩ := by
      refine locate_eq_ok_iff.2 ⟨⟨hempty, hnul, ?_⟩, hget', by simp [hslash]⟩
      rwa [hslash]
    by_cases hlink : ∃ target, e' = .link target
    · obtain ⟨target, rfl⟩ := hlink
      exact .inr ⟨target, lookAt_eq_ok_iff.2 ⟨names', hplace'⟩⟩
    · -- Without a link both walks are the same one.
      have hfollowed : Leads d.root true linkLimit [] (d.partsFromRoot path) names' := by
        refine hleads'.follow_end ?_
        intro target htarget
        rw [hget'] at htarget
        exact hlink ⟨target, Option.some.inj htarget⟩
      have hsame := (walk_of_leads hleads).symm.trans (walk_of_leads hfollowed)
      rw [hget, hget'] at hsame
      obtain ⟨rfl, rfl⟩ : names = names' ∧ e = e' := by simpa using hsame
      exact .inl (lookAt_eq_ok_iff.2 ⟨names, hplace'⟩)

end LiteralAudit.Disk
