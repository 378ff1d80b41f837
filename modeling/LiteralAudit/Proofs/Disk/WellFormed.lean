import LiteralAudit.Proofs.Disk.Replace
import LiteralAudit.Proofs.Path.Clean

/-!
# Trees as directories list them

A directory lists its entries by names of files and in byte order. A tree in which every directory does is
`Entry.WellFormed`. Setting an entry keeps it so (`WellFormed.set`), and since a path leads to names of
files only (`Disk.LeadsTo.plain`), so does every change of a disk: `Disk.wellFormed_mkdir`,
`wellFormed_writeFile`, `wellFormed_makeDirs`, `wellFormed_replace`.

`Entry.shape?` tells what kind of entry names lead to, with the content of a file but without the entries of
a directory. After an entry was set or erased it is the same everywhere but at and below that place
(`Entry.shape?_set`, `Entry.shape?_erase`), where `Entry.get?` differs for the directories above, too.
-/

namespace LiteralAudit

/-! ## The order of texts -/

theorem Text.cmp_self (t : Text) : Text.cmp t t = .eq := (Text.cmp_eq_eq_iff t t).2 rfl

theorem Text.cmp_swap (a b : Text) : (Text.cmp a b).swap = Text.cmp b a := by
  induction a generalizing b with
  | nil => cases b <;> rfl
  | cons x a ih =>
    cases b with
    | nil => rfl
    | cons y b =>
      rw [Text.cmp, Text.cmp]
      by_cases hxy : x < y
      · simp [hxy, UInt8.lt_asymm hxy]
      · by_cases hyx : y < x
        · simp [hxy, hyx]
        · simp [hxy, hyx, ih]

theorem Text.cmp_eq_lt_iff (a b : Text) : Text.cmp a b = .lt ↔ a < b := by
  induction a generalizing b with
  | nil => cases b <;> simp [Text.cmp]
  | cons x a ih =>
    cases b with
    | nil => simp [Text.cmp]
    | cons y b =>
      rw [Text.cmp, List.cons_lt_cons_iff]
      by_cases hxy : x < y
      · simp [hxy]
      · by_cases hyx : y < x
        · have hne : x ≠ y := fun heq => hxy (heq ▸ hyx)
          simp [hxy, hyx, hne]
        · have heq : x = y := UInt8.le_antisymm (UInt8.not_lt.1 hyx) (UInt8.not_lt.1 hxy)
          simp [heq, ih]

theorem Text.cmp_lt_trans {a b c : Text} (hab : Text.cmp a b = .lt) (hbc : Text.cmp b c = .lt) :
    Text.cmp a c = .lt := by
  rw [Text.cmp_eq_lt_iff] at hab hbc ⊢
  have hbytes : Trans (α := UInt8) (· < ·) (· < ·) (· < ·) := ⟨UInt8.lt_trans⟩
  exact List.lt_trans hab hbc

namespace Entry

/-- A tree as directories list it: their names are names of files and stand in byte order. -/
inductive WellFormed : Entry → Prop where
  | file (content : Text) : WellFormed (.file content)
  | link (target : Text) : WellFormed (.link target)
  | dir {entries : List (Text × Entry)} : (∀ x ∈ entries, Path.Plain x.1) →
      entries.Pairwise (fun x y => Text.cmp x.1 y.1 = .lt) → (∀ x ∈ entries, x.2.WellFormed) →
      WellFormed (.dir entries)

theorem lookup_eq_some_iff {es : List (Text × Entry)}
    (h : es.Pairwise fun x y => Text.cmp x.1 y.1 = .lt) {name : Text} {e : Entry} :
    es.lookup name = some e ↔ (name, e) ∈ es := by
  induction es with
  | nil => simp
  | cons x es ih =>
    obtain ⟨n, old⟩ := x
    obtain ⟨hfirst, hrest⟩ := List.pairwise_cons.1 h
    rw [List.lookup_cons, List.mem_cons, Prod.mk.injEq]
    by_cases hn : name = n
    · subst hn
      have hnot : (name, e) ∉ es := by
        intro hmem
        have hlt := hfirst _ hmem
        simp [Text.cmp_self] at hlt
      simp [hnot, eq_comm]
    · rw [beq_eq_false_iff_ne.2 hn, ih hrest]
      simp [hn]

theorem WellFormed.tail {x : Text × Entry} {es : List (Text × Entry)}
    (h : (Entry.dir (x :: es)).WellFormed) : (Entry.dir es).WellFormed := by
  cases h with
  | dir hplain hsorted hbelow =>
    exact .dir (fun y hy => hplain y (List.mem_cons_of_mem _ hy)) hsorted.of_cons
      fun y hy => hbelow y (List.mem_cons_of_mem _ hy)

theorem WellFormed.plain {es : List (Text × Entry)} (h : (Entry.dir es).WellFormed) :
    ∀ x ∈ es, Path.Plain x.1 := by
  cases h with
  | dir hplain _ _ => exact hplain

theorem WellFormed.children {es : List (Text × Entry)} (h : (Entry.dir es).WellFormed) :
    ∀ x ∈ es, x.2.WellFormed := by
  cases h with
  | dir _ _ hbelow => exact hbelow

/-- The names on the way to an entry are names of files. -/
theorem WellFormed.plain_of_get? {e x : Entry} {names : List Text} (h : e.WellFormed)
    (hget : e.get? names = some x) : ∀ k ∈ names, Path.Plain k := by
  induction names generalizing e with
  | nil => simp
  | cons name names ih =>
    obtain ⟨child, hchild, hrest⟩ := Option.bind_eq_some_iff.1 hget
    cases h with
    | file => cases hchild
    | link => cases hchild
    | dir hplain hsorted hbelow =>
      have hmem := (lookup_eq_some_iff hsorted).1 hchild
      exact List.forall_mem_cons.2 ⟨hplain _ hmem, ih (hbelow _ hmem) hrest⟩

/-! ## Trees with an entry set -/

theorem mem_of_mem_insert {name : Text} {e : Entry} {es : List (Text × Entry)} {x : Text × Entry}
    (h : x ∈ insert name e es) : x = (name, e) ∨ x ∈ es := by
  induction es with
  | nil => exact .inl (List.mem_singleton.1 h)
  | cons y es ih =>
    obtain ⟨n, old⟩ := y
    rw [insert] at h
    split at h
    · exact List.mem_cons.1 h
    · next heq =>
      rw [← (Text.cmp_eq_eq_iff name n).1 heq] at h
      exact (List.mem_cons.1 h).imp_right (List.mem_cons_of_mem _)
    · obtain rfl | h := List.mem_cons.1 h
      · exact .inr List.mem_cons_self
      · exact (ih h).imp_right (List.mem_cons_of_mem _)

/-- Directories stay in byte order when an entry is set. -/
theorem pairwise_insert {es : List (Text × Entry)}
    (h : es.Pairwise fun x y => Text.cmp x.1 y.1 = .lt) (name : Text) (e : Entry) :
    (insert name e es).Pairwise fun x y => Text.cmp x.1 y.1 = .lt := by
  induction es with
  | nil => exact List.pairwise_singleton ..
  | cons y es ih =>
    obtain ⟨n, old⟩ := y
    obtain ⟨hfirst, hrest⟩ := List.pairwise_cons.1 h
    rw [insert]
    split
    · next hlt =>
      refine List.pairwise_cons.2 ⟨?_, h⟩
      intro x hx
      obtain rfl | hx := List.mem_cons.1 hx
      · exact hlt
      · exact Text.cmp_lt_trans hlt (hfirst x hx)
    · exact List.pairwise_cons.2 ⟨hfirst, hrest⟩
    · next hgt =>
      refine List.pairwise_cons.2 ⟨?_, ih hrest⟩
      intro x hx
      obtain rfl | hx := mem_of_mem_insert hx
      · rw [← Text.cmp_swap, hgt]
        rfl
      · exact hfirst x hx

theorem WellFormed.insert {es : List (Text × Entry)} (h : (Entry.dir es).WellFormed) {name : Text}
    (hname : Path.Plain name) {e : Entry} (he : e.WellFormed) :
    (Entry.dir (insert name e es)).WellFormed := by
  cases h with
  | dir hplain hsorted hbelow =>
    refine .dir ?_ (pairwise_insert hsorted name e) ?_
    · intro x hx
      obtain rfl | hx := mem_of_mem_insert hx
      · exact hname
      · exact hplain x hx
    · intro x hx
      obtain rfl | hx := mem_of_mem_insert hx
      · exact he
      · exact hbelow x hx

theorem WellFormed.entries {e : Entry} (h : e.WellFormed) : (Entry.dir e.entries).WellFormed := by
  cases h with
  | file => exact .dir (by simp [Entry.entries]) List.Pairwise.nil (by simp [Entry.entries])
  | link => exact .dir (by simp [Entry.entries]) List.Pairwise.nil (by simp [Entry.entries])
  | dir hplain hsorted hbelow => exact .dir hplain hsorted hbelow

/-- A tree stays well-formed when a well-formed one is set at names of files. -/
theorem WellFormed.set {e new : Entry} (h : e.WellFormed) (hnew : new.WellFormed) {names : List Text}
    (hnames : ∀ k ∈ names, Path.Plain k) : (e.set new names).WellFormed := by
  fun_induction Entry.set e new names with
  | case1 => exact hnew
  | case2 e name => exact h.entries.insert (hnames name List.mem_cons_self) hnew
  | case3 e name next rest child hchild ih =>
    have hchild : child.WellFormed := by
      cases h with
      | file => cases hchild
      | link => cases hchild
      | dir _ hsorted hbelow => exact hbelow _ ((lookup_eq_some_iff hsorted).1 hchild)
    obtain ⟨hname, hrest⟩ := List.forall_mem_cons.1 hnames
    exact h.entries.insert hname (ih hchild hrest)
  | case4 => exact h

end Entry

namespace Disk

/-! ## Changes of a disk -/

theorem Leads.plain {root : Entry} {follow : Bool} {links : Nat} {here todo names : List Text}
    (h : Leads root follow links here todo names) (hhere : ∀ k ∈ here, Path.Plain k)
    (htodo : ∀ k ∈ todo, Path.IsPart k) : ∀ k ∈ names, Path.Plain k := by
  have hplain : ∀ {part : Text}, IsName part → Path.IsPart part → Path.Plain part := by
    rintro part ⟨hdot, hup, -⟩ hpart
    exact ⟨hpart, by simpa using hdot, by simpa using hup⟩
  induction h with
  | stop => exact hhere
  | dot _ _ _ ih => exact ih hhere (List.forall_mem_cons.1 htodo).2
  | up _ _ _ _ ih =>
    exact ih (fun k hk => hhere k (List.mem_of_mem_dropLast hk)) (List.forall_mem_cons.1 htodo).2
  | last _ hname _ _ =>
    have hpart := hplain hname (htodo _ List.mem_cons_self)
    exact List.forall_mem_append.2 ⟨hhere, by simpa using hpart⟩
  | enter _ hname _ _ ih =>
    have hpart := hplain hname (htodo _ List.mem_cons_self)
    exact ih (List.forall_mem_append.2 ⟨hhere, by simpa using hpart⟩)
      (List.forall_mem_cons.1 htodo).2
  | link _ _ _ _ _ ih =>
    refine ih ?_ (List.forall_mem_append.2 ⟨fun _ => Path.isPart_of_mem_parts,
      (List.forall_mem_cons.1 htodo).2⟩)
    split
    · simp
    · exact hhere

theorem isPart_of_mem_partsFromRoot {d : Disk} {path k : Text} (h : k ∈ d.partsFromRoot path) :
    Path.IsPart k := by
  obtain h | h := List.mem_append.1 h
  · split at h
    · cases h
    · exact Path.isPart_of_mem_parts h
  · exact Path.isPart_of_mem_parts h

/-- A path leads to names of files. -/
theorem LeadsTo.plain {d : Disk} {path : Text} {follow : Bool} {names : List Text}
    (h : d.LeadsTo path follow names) : ∀ k ∈ names, Path.Plain k :=
  h.leads.plain (by simp) fun _ => isPart_of_mem_partsFromRoot

section Changes

variable {d : Disk} (h : d.root.WellFormed) {path content : Text}

include h

theorem wellFormed_set {e : Entry} (he : e.WellFormed) {follow : Bool} {names : List Text}
    {e? : Option Entry} (hplace : d.locate path follow = .ok ⟨names, e?⟩) :
    (d.root.set e names).WellFormed :=
  h.set he (locate_eq_ok_iff.1 hplace).1.plain

theorem wellFormed_mkdir {made : Disk} (hmade : d.mkdir path = .ok made) : made.root.WellFormed := by
  unfold mkdir at hmade
  split at hmade
  · cases hmade
  · cases hmade
  · next hplace =>
    split at hmade
    · cases hmade
    · cases hmade
      exact wellFormed_set h (.dir (by simp) List.Pairwise.nil (by simp)) hplace

theorem wellFormed_writeFile {written : Disk} (hwritten : d.writeFile path content = .ok written) :
    written.root.WellFormed := by
  unfold writeFile at hwritten
  cases hplace : d.locate path true with
  | error r =>
    rw [hplace] at hwritten
    cases hwritten
  | ok place =>
    obtain ⟨names, e?⟩ := place
    rw [hplace] at hwritten
    cases e? <;>
    · dsimp only at hwritten
      split at hwritten
      · cases hwritten
      · split at hwritten
        · cases hwritten
        · cases hwritten
          exact wellFormed_set h (.file content) hplace

theorem wellFormed_makeDirs : (d.makeDirs path).disk.root.WellFormed :=
  makeDirs_keeps (P := fun d => d.root.WellFormed) (fun h hmade => wellFormed_mkdir h hmade) h path

theorem wellFormed_replace : (d.replace path content).disk.root.WellFormed := by
  have hmade : (d.makeDirs (Path.parent path)).disk.root.WellFormed := wellFormed_makeDirs h
  obtain ⟨e, heq⟩ | heq := d.replace_cases path content
  · rwa [heq]
  · rw [heq]
    obtain ⟨e, heq⟩ | ⟨names, e?, hplace, -, -, heq⟩ := moveInto_cases _ path content
    · rwa [heq]
    · rw [heq]
      exact wellFormed_set hmade (.file content) hplace

end Changes

end Disk

end LiteralAudit

/-! ## What lies where -/

namespace LiteralAudit.Entry

/-- An entry without what is in it. -/
def face : Entry → Entry
  | dir _ => dir []
  | e => e

/-- What kind of entry names lead to. -/
def shape? (e : Entry) (names : List Text) : Option Entry := (e.get? names).map face

variable {e x : Entry} {names q : List Text}

theorem shape?_eq_file_iff {content : Text} :
    e.shape? q = some (.file content) ↔ e.get? q = some (.file content) := by
  rw [shape?]
  cases e.get? q with
  | none => simp
  | some x => cases x <;> simp [face]

theorem shape?_eq_dir_iff : e.shape? q = some (.dir []) ↔ e.IsDirAt q := by
  rw [shape?, IsDirAt]
  cases e.get? q with
  | none => simp
  | some x => cases x <;> simp [face]

theorem shape?_eq_link_iff {target : Text} :
    e.shape? q = some (.link target) ↔ e.get? q = some (.link target) := by
  rw [shape?]
  cases e.get? q with
  | none => simp
  | some x => cases x <;> simp [face]

theorem shape?_file (content : Text) (q : List Text) :
    (file content).shape? q = if q = [] then some (.file content) else none := by
  cases q <;> rfl

theorem shape?_append (h : e.get? names = some x) (rest : List Text) :
    e.shape? (names ++ rest) = x.shape? rest := by
  rw [shape?, get?_append, h]
  rfl

/-- Directories lie in directories. -/
theorem IsDirAt.exists_eq_dir {x : Entry} {rest : List Text} (h : x.IsDirAt rest) :
    ∃ es, x = .dir es := by
  obtain ⟨es', hget⟩ := h
  cases x with
  | dir es => exact ⟨es, rfl⟩
  | file content => cases rest <;> cases hget
  | link target => cases rest <;> cases hget

/-- Directories on both sides have the same shape. -/
theorem shape?_eq_of_isDirAt {e' : Entry} (h : e.IsDirAt q) (h' : e'.IsDirAt q) :
    e.shape? q = e'.shape? q :=
  (shape?_eq_dir_iff.2 h).trans (shape?_eq_dir_iff.2 h').symm

/-- Above a place whose directory is there, there are directories. -/
theorem isDirAt_above (h : e.IsDirAt names.dropLast) (hq : q <+: names) (hne : q ≠ names) :
    e.IsDirAt q := by
  obtain ⟨es, hes⟩ := h
  by_cases heq : q = names.dropLast
  · rw [heq]
    exact ⟨es, hes⟩
  · obtain ⟨rest, rfl⟩ := hq
    have hrest : rest ≠ [] := by simpa using hne
    have hwithin : q <+: (q ++ rest).dropLast := by
      rw [List.dropLast_append_of_ne_nil hrest]
      exact List.prefix_append ..
    exact exists_dir_above hes hwithin heq

theorem shape?_set (x : Entry) (h : e.IsDirAt names.dropLast) (q : List Text) :
    (e.set x names).shape? q =
      if names <+: q then x.shape? (q.drop names.length) else e.shape? q := by
  split
  · next hq =>
    obtain ⟨rest, rfl⟩ := hq
    obtain ⟨es, hes⟩ := h
    rw [List.drop_left, shape?_append (get?_set_self x (.inr ⟨_, hes⟩))]
  · next hq =>
    by_cases habove : q <+: names
    · have hne : q ≠ names := by
        rintro rfl
        exact hq List.prefix_rfl
      have hdir := isDirAt_above h habove hne
      obtain ⟨es, hes⟩ := hdir
      exact shape?_eq_of_isDirAt (get?_set_above x habove hne hes) ⟨es, hes⟩
    · rw [shape?, get?_set_beside x hq habove, shape?]

/-! ## Erasing an entry -/

theorem lookup_filter_ne (name other : Text) (es : List (Text × Entry)) :
    (es.filter (·.1 != name)).lookup other = if other = name then none else es.lookup other := by
  induction es with
  | nil => simp
  | cons y es ih =>
    obtain ⟨n, old⟩ := y
    rw [List.filter_cons, List.lookup_cons]
    by_cases hn : n = name
    · subst hn
      by_cases hother : other = n
      · simpa [hother] using ih
      · simpa [hother, beq_eq_false_iff_ne.2 hother] using ih
    · by_cases hother : other = n
      · subst hother
        simp [hn]
      · simpa [hn, beq_eq_false_iff_ne.2 hother, List.lookup_cons] using ih

theorem shape?_cons (e : Entry) (name : Text) (rest : List Text) :
    e.shape? (name :: rest) = (e.entries.lookup name).bind (·.shape? rest) := by
  rw [shape?, get?_cons, Option.map_bind]
  rfl

theorem shape?_erase (hne : names ≠ []) (h : e.IsDirAt names.dropLast) (q : List Text) :
    (e.erase names).shape? q = if names <+: q then none else e.shape? q := by
  fun_induction erase e names generalizing q with
  | case1 => exact absurd rfl hne
  | case2 e name =>
    obtain ⟨es, hes⟩ := h
    obtain rfl : e = .dir es := Option.some.inj hes
    cases q with
    | nil => rfl
    | cons m q =>
      rw [shape?_cons, entries, entries, lookup_filter_ne]
      by_cases hm : m = name
      · simp [hm]
      · simp [hm, shape?_cons, entries, List.cons_prefix_cons, Ne.symm hm]
  | case3 e name next rest child hchild ih =>
    have hdir : ∃ es, e = .dir es := h.exists_eq_dir
    have hdrop : (name :: next :: rest).dropLast = name :: (next :: rest).dropLast := rfl
    rw [hdrop, IsDirAt, get?_cons, hchild] at h
    cases q with
    | nil =>
      obtain ⟨es, rfl⟩ := hdir
      exact shape?_eq_of_isDirAt ⟨_, rfl⟩ ⟨es, rfl⟩
    | cons m q =>
      rw [shape?_cons, entries, shape?_cons]
      by_cases hm : m = name
      · subst hm
        rw [lookup_insert_self, hchild, Option.bind_some, Option.bind_some, ih (by simp) h q]
        simp only [List.cons_prefix_cons, true_and]
      · rw [lookup_insert_of_ne hm, if_neg]
        rw [List.cons_prefix_cons]
        exact fun h => hm h.1.symm
  | case4 e name next rest hnone =>
    obtain ⟨es, hes⟩ := h
    rw [List.dropLast_cons_cons, get?_cons, hnone] at hes
    cases hes

/-- What lies in a well-formed tree is one. -/
theorem WellFormed.of_get? (h : e.WellFormed) (hget : e.get? names = some x) : x.WellFormed := by
  induction names generalizing e with
  | nil =>
    obtain rfl := Option.some.inj hget
    exact h
  | cons name names ih =>
    obtain ⟨child, hchild, hrest⟩ := Option.bind_eq_some_iff.1 hget
    cases h with
    | file => cases hchild
    | link => cases hchild
    | dir hplain hsorted hbelow =>
      exact ih (hbelow _ ((lookup_eq_some_iff hsorted).1 hchild)) hrest

theorem WellFormed.erase (h : e.WellFormed) (names : List Text) : (e.erase names).WellFormed := by
  fun_induction Entry.erase e names with
  | case1 => exact h
  | case2 e name =>
    cases h.entries with
    | dir hplain hsorted hbelow =>
      exact .dir (fun y hy => hplain y (List.mem_of_mem_filter hy)) (hsorted.filter _)
        fun y hy => hbelow y (List.mem_of_mem_filter hy)
  | case3 e name next rest child hchild ih =>
    have hget : e.get? [name] = some child := by rw [get?_cons, hchild]; rfl
    have hname := h.plain_of_get? hget name (List.mem_singleton_self _)
    exact h.entries.insert hname (ih (h.of_get? hget))
  | case4 => exact h

/-! ## Trees that are set and set back -/

theorem insert_insert (name : Text) (x y : Entry) (es : List (Text × Entry)) :
    insert name y (insert name x es) = insert name y es := by
  induction es with
  | nil => simp [insert, Text.cmp_self]
  | cons z es ih =>
    obtain ⟨n, old⟩ := z
    cases h : Text.cmp name n with
    | lt => simp [insert, h, Text.cmp_self]
    | eq => simp [insert, h]
    | gt => simp [insert, h, ih]

/-- Setting what is there changes nothing. -/
theorem insert_of_lookup {name : Text} {x : Entry} {es : List (Text × Entry)}
    (hsorted : es.Pairwise fun x y => Text.cmp x.1 y.1 = .lt) (h : es.lookup name = some x) :
    insert name x es = es := by
  induction es with
  | nil => cases h
  | cons z es ih =>
    obtain ⟨n, old⟩ := z
    obtain ⟨hfirst, hrest⟩ := List.pairwise_cons.1 hsorted
    by_cases hn : name = n
    · subst hn
      obtain rfl : old = x := by simpa using h
      simp [insert, Text.cmp_self]
    · rw [List.lookup_cons, beq_eq_false_iff_ne.2 hn] at h
      have hlt : Text.cmp n name = .lt := hfirst _ ((lookup_eq_some_iff hrest).1 h)
      have hgt : Text.cmp name n = .gt := by
        rw [← Text.cmp_swap, hlt]
        rfl
      simp [insert, hgt, ih hrest h]

/-- A name that is set and taken out leaves the others. -/
theorem filter_insert_self {name : Text} {es : List (Text × Entry)} (x : Entry) (h : es.lookup name = none) :
    (insert name x es).filter (·.1 != name) = es := by
  induction es with
  | nil => simp [insert]
  | cons z es ih =>
    obtain ⟨n, old⟩ := z
    have hall := List.lookup_eq_none_iff.1 h
    have hn : n ≠ name := by
      rintro rfl
      simp at h
    rw [List.lookup_cons, beq_eq_false_iff_ne.2 hn.symm] at h
    cases hcmp : Text.cmp name n with
    | lt =>
      have hkept : es.filter (·.1 != name) = es := by
        refine List.filter_eq_self.2 fun y hy => ?_
        rw [bne_comm]
        exact hall y (List.mem_cons_of_mem _ hy)
      simp [insert, hcmp, hn, hkept]
    | eq => exact absurd ((Text.cmp_eq_eq_iff _ _).1 hcmp).symm hn
    | gt => simp [insert, hcmp, hn, ih h]

theorem set_set (e x y : Entry) (names : List Text) : (e.set x names).set y names = e.set y names := by
  fun_induction Entry.set e x names with
  | case1 e => rfl
  | case2 e name =>
    rw [set, set, entries, insert_insert]
  | case3 e name next rest child hchild ih =>
    rw [set, entries, lookup_insert_self, set, hchild]
    dsimp only
    rw [insert_insert, ih]
  | case4 e name next rest hnone => rfl

/-- What was set at a free place and is erased again leaves the tree as it was. -/
theorem erase_set {e : Entry} {names : List Text} (x : Entry) (h : e.WellFormed)
    (hparent : e.IsDirAt names.dropLast) (hfree : e.get? names = none) :
    (e.set x names).erase names = e := by
  fun_induction Entry.set e x names with
  | case1 => cases hfree
  | case2 e name =>
    obtain ⟨es, rfl⟩ := IsDirAt.exists_eq_dir hparent
    have hnone : es.lookup name = none := by
      cases hlookup : es.lookup name with
      | none => rfl
      | some old =>
        rw [get?_cons, entries, hlookup] at hfree
        cases hfree
    rw [erase, entries, entries, filter_insert_self x hnone]
  | case3 e name next rest child hchild ih =>
    obtain ⟨es, rfl⟩ := IsDirAt.exists_eq_dir hparent
    rw [List.dropLast_cons_cons, IsDirAt, get?_cons, hchild] at hparent
    rw [get?_cons, hchild] at hfree
    cases h with
    | dir hplain hsorted hbelow =>
      have hwell : child.WellFormed := hbelow _ ((lookup_eq_some_iff hsorted).1 hchild)
      rw [erase, entries, lookup_insert_self]
      dsimp only
      rw [ih hwell hparent hfree, insert_insert]
      exact congrArg dir (insert_of_lookup hsorted hchild)
  | case4 e name next rest hnone =>
    obtain ⟨es, hes⟩ := hparent
    rw [List.dropLast_cons_cons, get?_cons, hnone] at hes
    cases hes

end LiteralAudit.Entry
