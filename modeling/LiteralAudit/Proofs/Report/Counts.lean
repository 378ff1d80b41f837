import LiteralAudit.Report
import LiteralAudit.Proofs.Disk.WellFormed
import Mathlib.Algebra.BigOperators.Group.List.Basic
import Mathlib.Tactic.Ring

/-!
# Counts as maps

`Counts.set` and `Counts.increment` keep the order of the names (`Counts.Sorted`), and change what is
counted for one name only (`Counts.lookup_set`). A table in order is what setting its entries one after
another gives (`Counts.rebuilt_eq_self`), and it is known by what it lists (`Counts.Sorted.ext`), so that
names can be counted in any order (`Counts.Sorted.tally_perm`). Counting a name once more adds its weight to
a weighted sum (`Counts.weighted_tally`).
-/

namespace LiteralAudit.Counts

/-- The names are in order, each once. -/
def Sorted (c : Counts) : Prop := c.Pairwise fun a b => Text.cmp a.1 b.1 = .lt

instance (c : Counts) : Decidable c.Sorted := inferInstanceAs (Decidable (c.Pairwise _))

/-- The table that setting the entries one after another gives. -/
def rebuilt (c : Counts) : Counts := c.foldl (fun d x => d.set x.1 x.2) []

variable {c : Counts} {name : Text} {n : Int}

theorem ne_of_cmp {a b : Text} {o : Ordering} (h : Text.cmp a b = o) (ho : o ≠ .eq) : a ≠ b := by
  rintro rfl
  exact ho (h.symm.trans (Text.cmp_self a))

theorem cmp_gt_iff (a b : Text) : Text.cmp a b = .gt ↔ Text.cmp b a = .lt := by
  rw [← Text.cmp_swap b a]
  cases Text.cmp b a <;> simp

/-- A name behind all others is put at the end. -/
theorem set_of_behind (h : ∀ x ∈ c, Text.cmp x.1 name = .lt) : c.set name n = c ++ [(name, n)] := by
  induction c with
  | nil => rfl
  | cons x c ih =>
    obtain ⟨k, v⟩ := x
    have hbehind := (cmp_gt_iff name k).2 (h _ List.mem_cons_self)
    rw [set, hbehind]
    dsimp only
    rw [ih fun y hy => h y (List.mem_cons_of_mem _ hy)]
    rfl

theorem rebuilt_eq_self (h : c.Sorted) : c.rebuilt = c := by
  have hfold : ∀ (d c : Counts), (d ++ c).Sorted → c.foldl (fun d x => d.set x.1 x.2) d = d ++ c := by
    intro d c
    induction c generalizing d with
    | nil => simp
    | cons x c ih =>
      intro h
      have hbehind : ∀ y ∈ d, Text.cmp y.1 x.1 = .lt := fun y hy =>
        (List.pairwise_append.1 h).2.2 y hy x List.mem_cons_self
      rw [List.foldl_cons, set_of_behind hbehind, ih _ (by simpa using h), List.append_assoc]
      rfl
  exact hfold [] c h

/-! ## What is counted -/

theorem get_cons (k other : Text) (v : Int) (c : Counts) :
    get ((k, v) :: c) other = if other = k then v else c.get other := by
  unfold get
  rw [List.lookup_cons]
  by_cases h : other = k
  · simp [h]
  · simp [h, beq_eq_false_iff_ne.2 h]

theorem lookup_set (c : Counts) (name other : Text) (n : Int) :
    (c.set name n).lookup other = if other = name then some n else c.lookup other := by
  have hcons : ∀ (k : Text) (v : Int) (d : Counts), List.lookup other ((k, v) :: d) =
      if other = k then some v else d.lookup other := by
    intro k v d
    rw [List.lookup_cons]
    by_cases h : other = k
    · simp [h]
    · simp [h, beq_eq_false_iff_ne.2 h]
  induction c with
  | nil => exact hcons name n []
  | cons x c ih =>
    obtain ⟨k, v⟩ := x
    rw [set]
    cases h : Text.cmp name k with
    | lt => exact hcons name n _
    | eq =>
      obtain rfl := (Text.cmp_eq_eq_iff name k).1 h
      dsimp only
      rw [hcons, hcons]
      split <;> rfl
    | gt =>
      dsimp only
      have hne := ne_of_cmp h (by decide)
      rw [hcons, hcons, ih]
      by_cases hk : other = k
      · rw [if_pos hk, if_pos hk, if_neg fun heq => hne (heq.symm.trans hk)]
      · rw [if_neg hk, if_neg hk]

theorem get_set (c : Counts) (name other : Text) (n : Int) :
    (c.set name n).get other = if other = name then n else c.get other := by
  rw [get, lookup_set]
  split <;> rfl

/-- Each occurrence of a name counts one. -/
theorem get_tally (c : Counts) (names : List Text) (name : Text) :
    (c.tally names).get name = c.get name + names.count name := by
  induction names generalizing c with
  | nil => simp [tally]
  | cons other names ih =>
    have hcons : c.tally (other :: names) = (c.increment other).tally names := rfl
    rw [hcons, ih, increment, get_set, List.count_cons]
    by_cases h : name = other
    · simp [h]
      omega
    · simp [h, beq_eq_false_iff_ne.2 (Ne.symm h)]

/-- A name is listed once it has occurred. -/
theorem lookup_tally (c : Counts) (names : List Text) (name : Text) :
    (c.tally names).lookup name =
      if name ∈ names then some (c.get name + names.count name) else c.lookup name := by
  induction names generalizing c with
  | nil => simp [tally]
  | cons other names ih =>
    have hcons : c.tally (other :: names) = (c.increment other).tally names := rfl
    rw [hcons, ih, increment, get_set, lookup_set, List.count_cons]
    by_cases h : name = other
    · subst h
      by_cases hmem : name ∈ names
      · simp [hmem]
        omega
      · simp [hmem, List.count_eq_zero.2 hmem]
    · simp [h, beq_eq_false_iff_ne.2 (Ne.symm h)]

/-! ## The order of names -/

theorem mem_set {x : Text × Int} (h : x ∈ c.set name n) : x = (name, n) ∨ x ∈ c := by
  induction c with
  | nil => exact .inl (List.mem_singleton.1 h)
  | cons y c ih =>
    obtain ⟨k, v⟩ := y
    rw [set] at h
    cases hcmp : Text.cmp name k with
    | lt =>
      rw [hcmp] at h
      exact List.mem_cons.1 h
    | eq =>
      obtain rfl := (Text.cmp_eq_eq_iff name k).1 hcmp
      rw [hcmp] at h
      exact (List.mem_cons.1 h).imp_right (List.mem_cons_of_mem _)
    | gt =>
      rw [hcmp] at h
      obtain rfl | h := List.mem_cons.1 h
      · exact .inr List.mem_cons_self
      · exact (ih h).imp_right (List.mem_cons_of_mem _)

theorem Sorted.set (h : c.Sorted) (name : Text) (n : Int) : (c.set name n).Sorted := by
  induction c with
  | nil => exact List.pairwise_singleton _ _
  | cons y c ih =>
    obtain ⟨k, v⟩ := y
    obtain ⟨hk, hc⟩ := List.pairwise_cons.1 h
    rw [Counts.set]
    cases hcmp : Text.cmp name k with
    | lt =>
      refine List.pairwise_cons.2 ⟨fun z hz => ?_, h⟩
      obtain rfl | hz := List.mem_cons.1 hz
      · exact hcmp
      · exact Text.cmp_lt_trans hcmp (hk z hz)
    | eq => exact List.pairwise_cons.2 ⟨hk, hc⟩
    | gt =>
      refine List.pairwise_cons.2 ⟨fun z hz => ?_, ih hc⟩
      obtain rfl | hz := mem_set hz
      · exact (cmp_gt_iff name k).1 hcmp
      · exact hk z hz

theorem Sorted.tally (h : c.Sorted) (names : List Text) : (c.tally names).Sorted := by
  induction names generalizing c with
  | nil => exact h
  | cons name names ih => exact ih (h.set name _)

theorem Sorted.mem_iff (h : c.Sorted) (x : Text × Int) : x ∈ c ↔ c.lookup x.1 = some x.2 := by
  induction c with
  | nil => simp
  | cons y c ih =>
    obtain ⟨hy, hc⟩ := List.pairwise_cons.1 h
    rw [List.mem_cons, List.lookup_cons, ih hc]
    by_cases hx : x.1 = y.1
    · have hnone : c.lookup x.1 = none := by
        refine List.lookup_eq_none_iff.2 fun z hz => ?_
        rw [hx, bne_iff_ne]
        exact ne_of_cmp (hy z hz) (by decide)
      rw [hnone, hx, beq_self_eq_true]
      simp [Prod.ext_iff, hx, eq_comm]
    · have hne : x ≠ y := fun heq => hx (congrArg Prod.fst heq)
      simp [hne, beq_eq_false_iff_ne.2 hx]

/-- Tables in order are equal when they list the same numbers. -/
theorem Sorted.ext {d : Counts} (hc : c.Sorted) (hd : d.Sorted)
    (h : ∀ name, c.lookup name = d.lookup name) : c = d := by
  have hnodup : ∀ {c : Counts}, c.Sorted → c.Nodup := fun hc =>
    List.Pairwise.imp (fun {a b} hab heq => ne_of_cmp hab (by decide) (congrArg Prod.fst heq)) hc
  have hperm : c.Perm d := (List.perm_ext_iff_of_nodup (hnodup hc) (hnodup hd)).2 fun x => by
    rw [hc.mem_iff, hd.mem_iff, h]
  refine List.Perm.eq_of_pairwise (fun a b _ _ hab hba => ?_) hc hd hperm
  have hlt := Text.cmp_lt_trans hab hba
  rw [Text.cmp_self] at hlt
  cases hlt

/-- Names are counted in any order. -/
theorem Sorted.tally_perm (h : c.Sorted) {names names' : List Text} (hperm : names.Perm names') :
    c.tally names = c.tally names' :=
  (h.tally names).ext (h.tally names') fun name => by
    rw [lookup_tally, lookup_tally, hperm.count_eq]
    simp only [hperm.mem_iff]

/-! ## Weighted sums -/

/-- A name before all others counts nothing. -/
theorem get_of_before {c : Counts} {name : Text} (h : ∀ x ∈ c, Text.cmp name x.1 = .lt) :
    c.get name = 0 := by
  induction c with
  | nil => rfl
  | cons x c ih =>
    obtain ⟨k, v⟩ := x
    have hne := ne_of_cmp (h _ List.mem_cons_self) (by decide)
    rw [get_cons, if_neg hne]
    exact ih fun y hy => h y (List.mem_cons_of_mem _ hy)

/-- The sum of the numbers, each with a factor that its name gives. -/
def weighted (weight : Text → Int) (c : Counts) : Int := (c.map fun x => weight x.1 * x.2).sum

theorem weighted_cons (weight : Text → Int) (k : Text) (n : Int) (c : Counts) :
    weighted weight ((k, n) :: c) = weight k * n + weighted weight c := List.sum_cons

theorem weighted_set (weight : Text → Int) {c : Counts} (h : c.Sorted) (name : Text) (n : Int) :
    (c.set name n).weighted weight = c.weighted weight + weight name * (n - c.get name) := by
  induction c with
  | nil =>
    rw [set, weighted_cons]
    simp [weighted, get]
  | cons x c ih =>
    obtain ⟨k, v⟩ := x
    obtain ⟨hk, hc⟩ := List.pairwise_cons.1 h
    rw [set]
    cases hcmp : Text.cmp name k with
    | lt =>
      have hbefore : ∀ y ∈ (k, v) :: c, Text.cmp name y.1 = .lt := by
        intro y hy
        obtain rfl | hy := List.mem_cons.1 hy
        · exact hcmp
        · exact Text.cmp_lt_trans hcmp (hk y hy)
      dsimp only
      rw [weighted_cons, get_of_before hbefore]
      ring
    | eq =>
      obtain rfl := (Text.cmp_eq_eq_iff name k).1 hcmp
      dsimp only
      rw [weighted_cons, weighted_cons, get_cons, if_pos rfl]
      ring
    | gt =>
      have hne := ne_of_cmp hcmp (by decide)
      dsimp only
      rw [weighted_cons, weighted_cons, ih hc, get_cons, if_neg hne]
      ring

/-- Each occurrence of a name adds its weight. -/
theorem weighted_tally (weight : Text → Int) {c : Counts} (h : c.Sorted) (names : List Text) :
    (c.tally names).weighted weight = c.weighted weight + (names.map weight).sum := by
  induction names generalizing c with
  | nil => simp [tally]
  | cons name names ih =>
    have hcons : c.tally (name :: names) = (c.increment name).tally names := rfl
    rw [hcons, increment, ih (h.set name _), weighted_set weight h, List.map_cons, List.sum_cons]
    ring

/-- A weighted sum does not depend on the order in which a table is read. -/
theorem weighted_perm (weight : Text → Int) {c d : Counts} (h : c.Perm d) :
    c.weighted weight = d.weighted weight := (h.map _).sum_eq

/-- The sum of the numbers. -/
def total (c : Counts) : Int := (c.map (·.2)).sum

theorem total_eq_weighted (c : Counts) : c.total = c.weighted fun _ => 1 := by
  simp [total, weighted]

theorem total_tally {c : Counts} (h : c.Sorted) (names : List Text) :
    (c.tally names).total = c.total + names.length := by
  rw [total_eq_weighted, weighted_tally _ h, total_eq_weighted]
  simp

/-! ## Numbers that are not negative -/

/-- No name counts less than nothing. -/
def Nonneg (c : Counts) : Prop := ∀ x ∈ c, 0 ≤ x.2

instance (c : Counts) : Decidable c.Nonneg := inferInstanceAs (Decidable (∀ x ∈ c, 0 ≤ x.2))

theorem Nonneg.get {c : Counts} (h : c.Nonneg) (name : Text) : 0 ≤ c.get name := by
  induction c with
  | nil => exact le_rfl
  | cons x c ih =>
    obtain ⟨k, v⟩ := x
    rw [get_cons]
    split
    · exact h _ List.mem_cons_self
    · exact ih fun y hy => h y (List.mem_cons_of_mem _ hy)

theorem Nonneg.set {c : Counts} (h : c.Nonneg) {n : Int} (hn : 0 ≤ n) (name : Text) :
    (c.set name n).Nonneg := by
  intro x hx
  obtain rfl | hx := mem_set hx
  · exact hn
  · exact h x hx

theorem Nonneg.tally {c : Counts} (h : c.Nonneg) (names : List Text) : (c.tally names).Nonneg := by
  induction names generalizing c with
  | nil => exact h
  | cons name names ih => exact ih (h.set (Int.add_nonneg (h.get name) Int.one_nonneg) name)

end LiteralAudit.Counts
