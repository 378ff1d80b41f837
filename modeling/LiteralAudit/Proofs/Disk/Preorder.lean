import LiteralAudit.Proofs.Disk.WellFormed

/-!
# Walks through trees

`Entry.looks` is a walk through a tree in pre-order that goes into some of the directories only. What it
looks at is said without walking by `Entry.mem_looks_iff`: an entry is looked at when the walk goes into
every directory above it. The order of a walk is the one of the names on the way, one after the other
(`Entry.pairwise_looks`), because a directory lists its entries in byte order.
-/

namespace LiteralAudit

/-! ## The order of names -/

/-- The order of paths by their names, one after the other. A directory is before what it holds. -/
def Path.Before : List Text → List Text → Prop := List.Lex fun a b => Text.cmp a b = .lt

theorem Path.before_append_left (above : List Text) {p q : List Text} (h : Path.Before p q) :
    Path.Before (above ++ p) (above ++ q) := by
  induction above with
  | nil => exact h
  | cons name above ih => exact .cons ih

theorem Path.not_before_self (p : List Text) : ¬ Path.Before p p :=
  List.lex_irrefl (fun name => by simp [Text.cmp_self]) p

theorem Path.before_asymm {p q : List Text} (h : Path.Before p q) : ¬ Path.Before q p := by
  refine List.lex_asymm ?_ h
  intro a b hab
  rw [← Text.cmp_swap, hab]
  simp

namespace Entry

/-! ## Walks -/

variable (goesInto : List Text → Bool)

mutual

/-- What a walk below a directory looks at, in order: the names that lead to an entry, and the entry.
The walk goes into the directories for which `goesInto` holds. -/
def looks (above : List Text) : Entry → List (List Text × Entry)
  | .dir entries => looksIn above entries
  | _ => []

def looksIn (above : List Text) : List (Text × Entry) → List (List Text × Entry)
  | [] => []
  | (name, e) :: rest =>
    let names := above ++ [name]
    (names, e) :: (if goesInto names then looks names e else []) ++ looksIn above rest

end

variable {goesInto} {above : List Text}

/-- The walk goes into every directory that lies on the way from `above` by some names to an entry. -/
def GoesThrough (goesInto : List Text → Bool) (above rel : List Text) : Prop :=
  ∀ p q, rel = p ++ q → p ≠ [] → q ≠ [] → goesInto (above ++ p) = true

theorem goesThrough_cons_iff {name : Text} {rel : List Text} :
    GoesThrough goesInto above (name :: rel) ↔
      (rel ≠ [] → goesInto (above ++ [name]) = true) ∧
        GoesThrough goesInto (above ++ [name]) rel := by
  constructor
  · intro h
    refine ⟨fun hne => h [name] rel rfl (by simp) hne, ?_⟩
    rintro p q rfl hp hq
    rw [List.append_assoc]
    exact h (name :: p) q rfl (by simp) hq
  · rintro ⟨hname, hrest⟩ p q heq hp hq
    obtain ⟨first, p, rfl⟩ := List.exists_cons_of_ne_nil hp
    obtain ⟨rfl, rfl⟩ := List.cons.inj heq
    by_cases hnil : p = []
    · subst hnil
      exact hname hq
    · have h := hrest p q rfl hnil hq
      rwa [List.append_assoc] at h

theorem goesThrough_nil : GoesThrough goesInto above [] := by
  intro p q heq hp
  exact absurd (List.append_eq_nil_iff.1 heq.symm).1 hp

mutual

/-- A walk looks at what it finds behind directories that it goes into. -/
theorem mem_looks_iff : ∀ {e : Entry} {above names : List Text} {x : Entry}, e.WellFormed →
    ((names, x) ∈ e.looks goesInto above ↔
      ∃ rel, rel ≠ [] ∧ names = above ++ rel ∧ e.get? rel = some x ∧ GoesThrough goesInto above rel)
  | .file _, above, names, x, _ => by
    simp only [looks, List.not_mem_nil, false_iff]
    rintro ⟨rel, hne, -, hget, -⟩
    obtain ⟨name, rel, rfl⟩ := List.exists_cons_of_ne_nil hne
    cases hget
  | .link _, above, names, x, _ => by
    simp only [looks, List.not_mem_nil, false_iff]
    rintro ⟨rel, hne, -, hget, -⟩
    obtain ⟨name, rel, rfl⟩ := List.exists_cons_of_ne_nil hne
    cases hget
  | .dir es, above, names, x, .dir _ hsorted hbelow => by
    rw [looks, mem_looksIn_iff hbelow]
    constructor
    · rintro ⟨y, hy, rel, rfl, hget, hthrough⟩
      refine ⟨y.1 :: rel, by simp, rfl, ?_, hthrough⟩
      rw [get?_cons, entries, (lookup_eq_some_iff hsorted).2 hy]
      exact hget
    · rintro ⟨rel, hne, rfl, hget, hthrough⟩
      obtain ⟨name, rel, rfl⟩ := List.exists_cons_of_ne_nil hne
      obtain ⟨e, he, hget⟩ := Option.bind_eq_some_iff.1 hget
      exact ⟨(name, e), (lookup_eq_some_iff hsorted).1 he, rel, rfl, hget, hthrough⟩

theorem mem_looksIn_iff : ∀ {es : List (Text × Entry)} {above names : List Text} {x : Entry},
    (∀ y ∈ es, y.2.WellFormed) →
    ((names, x) ∈ looksIn goesInto above es ↔
      ∃ y ∈ es, ∃ rel, names = above ++ y.1 :: rel ∧ y.2.get? rel = some x ∧
        GoesThrough goesInto above (y.1 :: rel))
  | [], above, names, x, _ => by simp [looksIn]
  | (name, e) :: rest, above, names, x, h => by
    have he : (names, x) ∈ e.looks goesInto (above ++ [name]) ↔ _ :=
      mem_looks_iff (h (name, e) List.mem_cons_self)
    have hrest : (names, x) ∈ looksIn goesInto above rest ↔ _ :=
      mem_looksIn_iff fun y hy => h y (List.mem_cons_of_mem _ hy)
    rw [looksIn, List.cons_append, List.mem_cons, List.mem_append, hrest, List.exists_mem_cons_iff,
      ← or_assoc]
    refine or_congr_left ?_
    constructor
    · rintro (heq | hmem)
      · cases heq
        exact ⟨[], rfl, rfl, goesThrough_cons_iff.2 ⟨by simp, goesThrough_nil⟩⟩
      · split at hmem
        · next hgoes =>
          obtain ⟨rel, -, rfl, hget, hthrough⟩ := he.1 hmem
          refine ⟨rel, List.append_assoc .., hget, goesThrough_cons_iff.2 ⟨fun _ => hgoes, hthrough⟩⟩
        · cases hmem
    · rintro ⟨rel, rfl, hget, hthrough⟩
      obtain ⟨hgoes, hthrough⟩ := goesThrough_cons_iff.1 hthrough
      by_cases hne : rel = []
      · subst hne
        cases hget
        exact .inl rfl
      · right
        rw [if_pos (hgoes hne)]
        exact he.2 ⟨rel, hne, by simp, hget, hthrough⟩

end

/-- What a walk looks at lies below the place where it starts. -/
theorem exists_of_mem_looksIn {es : List (Text × Entry)} (h : ∀ y ∈ es, y.2.WellFormed)
    {z : List Text × Entry} (hz : z ∈ looksIn goesInto above es) :
    ∃ y ∈ es, ∃ rel, z.1 = above ++ y.1 :: rel := by
  obtain ⟨y, hy, rel, hnames, -⟩ := (mem_looksIn_iff h).1 hz
  exact ⟨y, hy, rel, hnames⟩

mutual

/-- A walk looks at the entries in the order of their names. -/
theorem pairwise_looks : ∀ {e : Entry} {above : List Text}, e.WellFormed →
    (e.looks goesInto above).Pairwise fun x y => Path.Before x.1 y.1
  | .file _, _, _ => List.Pairwise.nil
  | .link _, _, _ => List.Pairwise.nil
  | .dir _, _, .dir _ hsorted hbelow => pairwise_looksIn hsorted hbelow

theorem pairwise_looksIn : ∀ {es : List (Text × Entry)} {above : List Text},
    es.Pairwise (fun x y => Text.cmp x.1 y.1 = .lt) → (∀ y ∈ es, y.2.WellFormed) →
    (looksIn goesInto above es).Pairwise fun x y => Path.Before x.1 y.1
  | [], _, _, _ => List.Pairwise.nil
  | (name, e) :: rest, above, hsorted, hbelow => by
    obtain ⟨hfirst, hsorted⟩ := List.pairwise_cons.1 hsorted
    have he : e.WellFormed := hbelow (name, e) List.mem_cons_self
    have hrest : ∀ y ∈ rest, y.2.WellFormed := fun y hy => hbelow y (List.mem_cons_of_mem _ hy)
    have hlater : ∀ {rel : List Text} {z}, z ∈ looksIn goesInto above rest →
        Path.Before (above ++ name :: rel) z.1 := by
      intro rel z hz
      obtain ⟨y, hy, rel', hnames⟩ := exists_of_mem_looksIn hrest hz
      rw [hnames]
      exact Path.before_append_left above (.rel (hfirst y hy))
    have hinner : ∀ z ∈ (if goesInto (above ++ [name]) then looks goesInto (above ++ [name]) e else []),
        ∃ next rel, z.1 = above ++ name :: next :: rel := by
      intro z hz
      split at hz
      · obtain ⟨rel, hne, hnames, -⟩ := (mem_looks_iff he).1 hz
        obtain ⟨next, rel, rfl⟩ := List.exists_cons_of_ne_nil hne
        exact ⟨next, rel, by rw [hnames, List.append_assoc]; rfl⟩
      · cases hz
    rw [looksIn, List.cons_append, List.pairwise_cons, List.pairwise_append]
    refine ⟨?_, ?_, pairwise_looksIn hsorted hrest, ?_⟩
    · intro z hz
      obtain hz | hz := List.mem_append.1 hz
      · obtain ⟨next, rel, hnames⟩ := hinner z hz
        rw [hnames]
        exact Path.before_append_left above (.cons .nil)
      · exact hlater hz
    · split
      · exact pairwise_looks he
      · exact List.Pairwise.nil
    · intro y hy z hz
      obtain ⟨next, rel, hnames⟩ := hinner y hy
      rw [hnames]
      exact hlater hz

end

end Entry

end LiteralAudit
