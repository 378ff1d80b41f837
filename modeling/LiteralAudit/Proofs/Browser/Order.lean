import LiteralAudit.Browser
import LiteralAudit.Proofs.Disk.WellFormed
import Mathlib

/-!
# Issues in order

`IsStableSort` says what it means that a list is another one in order, with ties left as they were. There
is one such list (`IsStableSort.unique`), and it is what `Browser.Order.sort` makes of the issues
(`Browser.Order.isStableSort_sort`).
-/

namespace LiteralAudit

/-! ## Stable sorting -/

section Stable

variable {α : Type} {le : α → α → Bool}

/-- Two elements stand at one place of the order. -/
def Tied (le : α → α → Bool) (a b : α) : Bool := le a b && le b a

/-- `ys` is `xs` in order, and elements that are tied stand as they do in `xs`. -/
structure IsStableSort (le : α → α → Bool) (xs ys : List α) : Prop where
  perm : ys.Perm xs
  ordered : ys.Pairwise fun a b => le a b = true
  ties : ∀ a, ys.filter (Tied le a) = xs.filter (Tied le a)

variable (htotal : ∀ a b, (le a b || le b a) = true)

include htotal

theorem tied_self (a : α) : Tied le a a = true := by
  have ha : le a a = true := by simpa using htotal a a
  simp [Tied, ha]

/-- Lists in order are equal when they agree at each place of the order. -/
theorem eq_of_filter_tied {ys zs : List α} (hys : ys.Pairwise fun a b => le a b = true)
    (hzs : zs.Pairwise fun a b => le a b = true)
    (h : ∀ a, ys.filter (Tied le a) = zs.filter (Tied le a)) : ys = zs := by
  have hmem : ∀ {us vs : List α} {a : α}, (∀ a, us.filter (Tied le a) = vs.filter (Tied le a)) →
      a ∈ us → a ∈ vs := by
    intro us vs a h ha
    have hself := List.mem_filter.2 ⟨ha, tied_self htotal a⟩
    rw [h a] at hself
    exact List.mem_of_mem_filter hself
  induction ys generalizing zs with
  | nil =>
    cases zs with
    | nil => rfl
    | cons z zs => cases hmem (fun a => (h a).symm) List.mem_cons_self
  | cons y ys ih =>
    cases zs with
    | nil => cases hmem h List.mem_cons_self
    | cons z zs =>
      obtain ⟨hy, hys'⟩ := List.pairwise_cons.1 hys
      obtain ⟨hz, hzs'⟩ := List.pairwise_cons.1 hzs
      have hself : ∀ a, le a a = true := fun a => by simpa using htotal a a
      have hyz : le y z = true := by
        obtain rfl | hmem := List.mem_cons.1 (hmem (fun a => (h a).symm) List.mem_cons_self)
        · exact hself _
        · exact hy z hmem
      have hzy : le z y = true := by
        obtain rfl | hmem := List.mem_cons.1 (hmem h List.mem_cons_self)
        · exact hself _
        · exact hz y hmem
      have hfirst := h y
      rw [List.filter_cons_of_pos (tied_self htotal y),
        List.filter_cons_of_pos (by simp [Tied, hyz, hzy])] at hfirst
      obtain ⟨rfl, -⟩ := List.cons.inj hfirst
      refine congrArg (y :: ·) (ih hys' hzs' ?_)
      intro a
      have ha := h a
      rw [List.filter_cons, List.filter_cons] at ha
      split at ha
      · exact (List.cons.inj ha).2
      · exact ha

theorem IsStableSort.unique {xs ys zs : List α} (hys : IsStableSort le xs ys)
    (hzs : IsStableSort le xs zs) : ys = zs :=
  eq_of_filter_tied htotal hys.ordered hzs.ordered fun a =>
    (hys.ties a).trans (hzs.ties a).symm

theorem isStableSort_mergeSort
    (htrans : ∀ a b c, le a b = true → le b c = true → le a c = true) (xs : List α) :
    IsStableSort le xs (xs.mergeSort le) where
  perm := List.mergeSort_perm xs le
  ordered := List.pairwise_mergeSort htrans htotal xs
  ties a := by
    -- All elements that are tied with `a` are in order already, so sorting does not move them.
    have hordered : (xs.filter (Tied le a)).Pairwise fun b c => le b c = true := by
      refine List.pairwise_of_forall_mem_list ?_
      intro b hb c hc
      have hb := (List.mem_filter.1 hb).2
      have hc := (List.mem_filter.1 hc).2
      simp only [Tied, Bool.and_eq_true] at hb hc
      exact htrans b a c hb.2 hc.1
    have hsub : (xs.filter (Tied le a)).Sublist (xs.mergeSort le) :=
      List.sublist_mergeSort htrans htotal hordered List.filter_sublist
    have hsub' := hsub.filter (Tied le a)
    rw [List.filter_filter] at hsub'
    simp only [Bool.and_self] at hsub'
    have hlength := ((List.mergeSort_perm xs le).filter (Tied le a)).length_eq
    exact (hsub'.eq_of_length hlength.symm).symm

end Stable

/-! ## Orders of issues -/

namespace Text

theorem le_iff (a b : Text) : le a b = true ↔ cmp b a ≠ .lt := by
  rw [le, bne_iff_ne, ← cmp_swap b a]
  cases cmp b a <;> simp [Ordering.swap]

theorem le_total (a b : Text) : (le a b || le b a) = true := by
  rw [Bool.or_eq_true, le_iff, le_iff, ← cmp_swap b a]
  cases cmp b a <;> simp [Ordering.swap]

theorem le_trans {a b c : Text} (hab : le a b = true) (hbc : le b c = true) : le a c = true := by
  rw [le_iff] at hab hbc ⊢
  intro hca
  cases hcb : cmp c b with
  | lt => exact hbc hcb
  | eq => exact hab (by rwa [(cmp_eq_eq_iff c b).1 hcb] at hca)
  | gt =>
    have hbc' : cmp b c = .lt := by rw [← cmp_swap, hcb]; rfl
    exact hab (cmp_lt_trans hbc' hca)

theorem le_antisymm {a b : Text} (hab : le a b = true) (hba : le b a = true) : a = b := by
  rw [le_iff] at hab hba
  rw [← cmp_eq_eq_iff]
  cases h : cmp a b with
  | lt => exact absurd h hba
  | eq => rfl
  | gt => exact absurd (by rw [← cmp_swap, h]; rfl) hab

end Text

namespace Browser.Order

theorem le_total (o : Order) (a b : Issue) : (o.le a b || o.le b a) = true := by
  cases o with
  | severity => simpa [le] using Nat.le_total _ _
  | kind => exact Text.le_total _ _
  | file =>
    by_cases h : a.file = b.file
    · simpa [le, h] using Int.le_total _ _
    · simpa [le, h, Ne.symm h] using Text.le_total a.file b.file
  | discovery => rfl

theorem le_trans (o : Order) (a b c : Issue) (hab : o.le a b = true) (hbc : o.le b c = true) :
    o.le a c = true := by
  cases o with
  | severity =>
    simp only [le, decide_eq_true_eq] at hab hbc ⊢
    exact Nat.le_trans hab hbc
  | kind => exact Text.le_trans hab hbc
  | file =>
    have hfile : ∀ {i j : Issue}, file.le i j = true → Text.le i.file j.file = true := by
      intro i j h
      by_cases heq : i.file = j.file
      · rw [heq]
        simpa using Text.le_total j.file j.file
      · simpa [le, heq] using h
    have hac := Text.le_trans (hfile hab) (hfile hbc)
    by_cases heq : a.file = c.file
    · -- Then all three are of one file, and their lines count.
      have hba : b.file = a.file := Text.le_antisymm (heq ▸ hfile hbc) (hfile hab)
      simp only [le, hba, heq, bne_self_eq_false, Bool.false_eq_true, if_false,
        decide_eq_true_eq] at hab hbc ⊢
      exact Int.le_trans hab hbc
    · simpa [le, heq] using hac
  | discovery => rfl

theorem isStableSort_sort (o : Order) (is : List Issue) : IsStableSort o.le is (o.sort is) := by
  cases o with
  | discovery =>
    refine ⟨List.Perm.refl _, List.pairwise_of_forall_mem_list fun _ _ _ _ => rfl, fun _ => rfl⟩
  | severity => exact isStableSort_mergeSort (le_total _) (le_trans _) is
  | kind => exact isStableSort_mergeSort (le_total _) (le_trans _) is
  | file => exact isStableSort_mergeSort (le_total _) (le_trans _) is

end Browser.Order

end LiteralAudit
