import LiteralAudit.Proofs.Visit.Secrets

/-!
# More rules, more findings

A library that has grown finds in every source all that the smaller one finds
(`Visit.findings_kept_by_extend`). In each category the rules that fire are those of the smaller library
and some behind them (`Library.Grown.exists_firing`), so the rule that represents the category stays,
and the values are only joined by more. Findings may come in between, from categories in which nothing
fired before, so that the lists are compared as subsequences: `List.SublistForall₂` also says how an
entry and the one that it becomes are related.
-/

namespace LiteralAudit

open scoped List

/-! ## Subsequences of related entries -/

section Subsequences

variable {α β γ δ : Type} {R : α → β → Prop} {S : γ → δ → Prop}

theorem sublistForall₂_filterMap_cons {l₁ : List γ} {l₂ : List β} {g : β → Option δ} (b : β)
    (h : List.SublistForall₂ S l₁ (l₂.filterMap g)) :
    List.SublistForall₂ S l₁ ((b :: l₂).filterMap g) := by
  cases hg : g b with
  | none => rwa [List.filterMap_cons_none hg]
  | some d =>
    rw [List.filterMap_cons_some hg]
    exact .cons_right h

/-- What is left of the first list is left of the second, too. -/
theorem sublistForall₂_filterMap {l₁ : List α} {l₂ : List β} {f : α → Option γ} {g : β → Option δ}
    (h : List.SublistForall₂ R l₁ l₂)
    (hstep : ∀ a b, R a b → ∀ c, f a = some c → ∃ d, g b = some d ∧ S c d) :
    List.SublistForall₂ S (l₁.filterMap f) (l₂.filterMap g) := by
  induction h with
  | nil => exact .nil
  | @cons a b _ _ hab _ ih =>
    cases hf : f a with
    | none =>
      rw [List.filterMap_cons_none hf]
      exact sublistForall₂_filterMap_cons b ih
    | some c =>
      obtain ⟨d, hd, hcd⟩ := hstep a b hab c hf
      rw [List.filterMap_cons_some hf, List.filterMap_cons_some hd]
      exact .cons hcd ih
  | @cons_right b _ _ _ ih => exact sublistForall₂_filterMap_cons b ih

theorem sublistForall₂_append {l₁ m₁ : List α} {l₂ m₂ : List β} (hl : List.SublistForall₂ R l₁ l₂)
    (hm : List.SublistForall₂ R m₁ m₂) : List.SublistForall₂ R (l₁ ++ m₁) (l₂ ++ m₂) := by
  obtain ⟨l, hl, hlsub⟩ := List.sublistForall₂_iff.1 hl
  obtain ⟨m, hm, hmsub⟩ := List.sublistForall₂_iff.1 hm
  exact List.sublistForall₂_iff.2 ⟨l ++ m, List.rel_append hl hm, hlsub.append hmsub⟩

theorem sublistForall₂_flatMap {xs : List α} {f : α → List γ} {g : α → List δ}
    (h : ∀ x ∈ xs, List.SublistForall₂ S (f x) (g x)) :
    List.SublistForall₂ S (xs.flatMap f) (xs.flatMap g) := by
  induction xs with
  | nil => exact .nil
  | cons x xs ih =>
    rw [List.flatMap_cons, List.flatMap_cons]
    exact sublistForall₂_append (h x (by simp)) (ih fun y hy => h y (by simp [hy]))

/-- What related entries have in common makes a subsequence. -/
theorem sublist_map_of_sublistForall₂ {l₁ : List α} {l₂ : List β} {f : α → γ} {g : β → γ}
    (h : List.SublistForall₂ R l₁ l₂) (hsame : ∀ a b, R a b → f a = g b) :
    l₁.map f <+ l₂.map g := by
  obtain ⟨l, hl, hsub⟩ := List.sublistForall₂_iff.1 h
  have hmap : l₁.map f = l.map g := by
    rw [← List.forall₂_eq_eq_eq, List.forall₂_map_left_iff, List.forall₂_map_right_iff]
    exact hl.imp hsame
  exact hmap ▸ hsub.map g

end Subsequences

/-! ## What a grown library finds in a literal -/

namespace Library

variable {l l' : Library} {c : Candidate}

/-- A finding tells no less than another: same category and rule, and further values at most. -/
structure Finding.Within (f f' : Finding) : Prop where
  category : f'.category.fixed = f.category.fixed
  rule : f'.rule = f.rule
  values : f.values <+: f'.values

theorem Finding.Within.name {f f' : Finding} (h : f.Within f') : f'.category.name = f.category.name :=
  (Category.fixed_eq_iff.1 h.category).1

theorem prefix_addNew (values more : List Text) : values <+: addNew values more := by
  unfold addNew
  induction more generalizing values with
  | nil => exact List.prefix_rfl
  | cons v more ih =>
    rw [List.foldl_cons]
    split
    · exact ih values
    · exact (List.prefix_append values [v]).trans (ih _)

theorem prefix_foldl_addNew (firing : List (Rule × List Text)) (values : List Text) :
    values <+: firing.foldl (fun vs f => addNew vs f.2) values := by
  induction firing generalizing values with
  | nil => exact List.prefix_rfl
  | cons f firing ih => exact (prefix_addNew values f.2).trans (ih _)

/-- The rules that fire in a grown library are those that fired before, and some behind them. -/
theorem Grown.exists_firing (h : l.Grown l') (c : Candidate) (category : Text) :
    ∃ more, l'.firing c category = l.firing c category ++ more := by
  obtain ⟨added, hadded⟩ := h.rules
  unfold firing
  rw [← hadded, List.filter_append, List.filterMap_append]
  exact ⟨_, rfl⟩

/-- What fired in a category still fires first in the category of that name. -/
theorem Grown.exists_finding (h : l.Grown l') {k k' : Category} (hname : k'.name = k.name)
    {f : Finding} (hf : l.finding? c k = some f) :
    ∃ f', l'.finding? c k' = some f' ∧ f'.rule = f.rule ∧ f.values <+: f'.values := by
  obtain ⟨more, hmore⟩ := h.exists_firing c k.name
  unfold finding? at hf ⊢
  rw [hname, hmore]
  split at hf
  · cases hf
  · next rule values rest hfiring =>
    cases hf
    rw [hfiring, List.cons_append]
    refine ⟨_, rfl, rfl, ?_⟩
    dsimp only
    rw [← List.cons_append, List.foldl_append]
    exact prefix_foldl_addNew more _

/-- A grown library finds all that was found before, in the same order. -/
theorem Grown.classify (h : l.Grown l') (c : Candidate) :
    List.SublistForall₂ Finding.Within (l.classify c) (l'.classify c) := by
  obtain ⟨kept, more, hsplit, hkept⟩ := h.exists_categories
  have hcategories : List.SublistForall₂ (fun k k' : Category => k'.fixed = k.fixed) l.categories
      l'.categories :=
    List.sublistForall₂_iff.2 ⟨kept, hkept, hsplit ▸ List.sublist_append_left kept more⟩
  rw [classify_eq, classify_eq]
  refine sublistForall₂_filterMap hcategories ?_
  intro k k' hk f hf
  obtain ⟨f', hf', hrule, hvalues⟩ := h.exists_finding (Category.fixed_eq_iff.1 hk).1 hf
  refine ⟨f', hf', ?_, hrule, hvalues⟩
  rw [category_of_finding? hf, category_of_finding? hf', hk]

/-- In a category in which something was found, a grown library finds the same by the same rule, and
perhaps more. -/
theorem Grown.classify_of_mem (h : l.Grown l') {f : Finding} (hf : f ∈ l.classify c) :
    (∃ f' ∈ l'.classify c, f'.category.name = f.category.name) ∧
    ∀ f' ∈ l'.classify c, f'.category.name = f.category.name →
      f'.rule = f.rule ∧ f.values <+: f'.values := by
  obtain ⟨k, hk, hfound⟩ := List.mem_filterMap.1 (classify_eq l c ▸ hf)
  obtain rfl := category_of_finding? hfound
  constructor
  · obtain ⟨k', hk', hfixed⟩ := h.exists_fixed hk
    have hname : k'.name = f.category.name := (Category.fixed_eq_iff.1 hfixed).1
    obtain ⟨f', hf', -⟩ := h.exists_finding hname hfound
    refine ⟨f', classify_eq l' c ▸ List.mem_filterMap.2 ⟨k', hk', hf'⟩, ?_⟩
    rw [category_of_finding? hf', hname]
  · intro f' hf' hname
    obtain ⟨k', -, hfound'⟩ := List.mem_filterMap.1 (classify_eq l' c ▸ hf')
    obtain rfl := category_of_finding? hfound'
    obtain ⟨g, hg, hrule, hvalues⟩ := h.exists_finding hname hfound
    obtain rfl : f' = g := Option.some.inj (hfound'.symm.trans hg)
    exact ⟨hrule, hvalues⟩

end Library

/-! ## What a grown library finds in a file -/

namespace Visit

variable {w? : Option Whitelist} {path : Text} {lit : Literal}

/-- The issue of a finding. -/
def issueOf (w? : Option Whitelist) (path : Text) (lit : Literal) (f : Library.Finding) : Issue where
  file := path
  line := lit.line
  kind := f.category.kind
  severity := f.category.severity
  description := describe f.rule (kept w? lit f) lit.binding
  pattern := f.rule.source
  fix := f.category.remediation

/-- There is an issue unless the whitelist allows all values of the finding. -/
def issue? (w? : Option Whitelist) (path : Text) (lit : Literal) (f : Library.Finding) : Option Issue :=
  if (kept w? lit f).isEmpty then none else some (issueOf w? path lit f)

theorem issue?_eq_some_iff {f : Library.Finding} {i : Issue} :
    issue? w? path lit f = some i ↔ kept w? lit f ≠ [] ∧ issueOf w? path lit f = i := by
  simp [issue?]

theorem literalIssues_eq (l : Library) (w? : Option Whitelist) (path : Text) (lit : Literal) :
    literalIssues l w? path lit = (l.classify (candidate lit)).filterMap (issue? w? path lit) := rfl

/-- Where an issue is and what was found there. -/
def outline (i : Issue) : Int × Text × Severity × Text := (i.line, i.kind, i.severity, i.pattern)

/-- A finding that tells more is an issue, too, and one with the same outline. -/
theorem exists_issue_of_within {f f' : Library.Finding} (h : f.Within f') {i : Issue}
    (hi : issue? w? path lit f = some i) :
    ∃ i', issue? w? path lit f' = some i' ∧ outline i = outline i' := by
  have hkept : kept w? lit f <+: kept w? lit f' := by
    unfold kept
    rw [h.name]
    exact h.values.filter _
  obtain ⟨hne, rfl⟩ := issue?_eq_some_iff.1 hi
  have hne' : kept w? lit f' ≠ [] := by
    intro hnil
    exact hne (List.prefix_nil.1 (hnil ▸ hkept))
  obtain ⟨-, hkind, hseverity⟩ := Category.fixed_eq_iff.1 h.category
  refine ⟨_, issue?_eq_some_iff.2 ⟨hne', rfl⟩, ?_⟩
  simp only [outline, issueOf, hkind, hseverity, h.rule]

/-- What a grown library finds in a file has all that was found before as a subsequence. -/
theorem outlines_sublist_of_grown {l l' : Library} (h : l.Grown l') (w? : Option Whitelist)
    (path source : Text) :
    (issues l w? path source).map outline <+ (issues l' w? path source).map outline := by
  unfold issues
  split
  · exact List.Sublist.refl _
  · split
    · exact List.Sublist.refl _
    · next lits hlits =>
      refine sublist_map_of_sublistForall₂ (R := fun i i' => outline i = outline i')
        (sublistForall₂_flatMap fun lit _ => ?_) fun _ _ hsame => hsame
      rw [literalIssues_eq, literalIssues_eq]
      exact sublistForall₂_filterMap (h.classify (candidate lit)) fun _ _ hwithin _ hi =>
        exists_issue_of_within hwithin hi

/-- A rule pack only adds findings. In every file, what the library found before is a subsequence of
what it finds with the pack; and of every literal, a category in which something was found is
represented by the same rule, with the values found before in front. -/
theorem findings_kept_by_extend {l l' : Library} {p : RulePack} (h : l.extend p = .ok l') :
    (∀ w? path source,
      (issues l w? path source).map outline <+ (issues l' w? path source).map outline) ∧
    ∀ c, ∀ f ∈ l.classify c,
      (∃ f' ∈ l'.classify c, f'.category.name = f.category.name) ∧
      ∀ f' ∈ l'.classify c, f'.category.name = f.category.name →
        f'.rule = f.rule ∧ f.values <+: f'.values := by
  have hgrown : l.Grown l' := Library.grown_of_additions (Library.additions_of_extend h)
  exact ⟨outlines_sublist_of_grown hgrown, fun _ _ hf => hgrown.classify_of_mem hf⟩

/-- A pack puts a second rule into the category of the first: the value of the first stays in front. -/
theorem first_value_kept_by_second_rule : ∃ l l', l.extend { rules := [knownPassword] } = .ok l' ∧
    (∀ source, (issues l none "a.txt" source).map outline <+
      (issues l' none "a.txt" source).map outline) ∧
    ∃ f ∈ l.classify (candidate leak), f.values = [Text.ofString "admin"] ∧
      ∃ f' ∈ l'.classify (candidate leak), f'.category.name = f.category.name ∧ f'.rule = f.rule ∧
        [Text.ofString "admin"] <+: f'.values := by
  obtain ⟨first, hfirst, -⟩ := Option.map_eq_some_iff.1 find_account
  obtain ⟨second, hsecond, -⟩ := Option.map_eq_some_iff.1 find_knownPassword
  have hextend : (leakLibrary [first]).extend { rules := [knownPassword] } =
      .ok (leakLibrary [first, second]) := by
    have hadd : (leakLibrary [first]).addRule knownPassword = .ok (leakLibrary [first, second]) := by
      refine addRule_leakLibrary rfl (by decide) ?_ hsecond
      rw [List.forall_mem_singleton, (RuleSource.of_compile hfirst).2.1]
      decide
    refine Library.extend_eq_ok rfl ?_ rfl
    show [knownPassword].foldlM Library.addRule (leakLibrary [first]) = _
    rw [List.foldlM_cons, hadd]
    rfl
  have hfiring : (leakLibrary [first]).firing (candidate leak) leakCategory.name =
      [(first, [Text.ofString "admin"])] := by
    have hcategory : (first.category == Text.ofString "leak") = true := by
      rw [(RuleSource.of_compile hfirst).2.2.1]
      decide
    refine (firing_leakLibrary_eq [first] (candidate leak)).trans ?_
    simp [Library.firing, hcategory, find_of_compile_account hfirst]
  have hcategories : leakCategory ∈ (leakLibrary [first]).categories :=
    List.mem_append_right _ (List.mem_singleton.2 rfl)
  have hf := Library.mem_classify_of_firing hcategories hfiring
  obtain ⟨hissues, hfindings⟩ := findings_kept_by_extend hextend
  obtain ⟨⟨f', hf', hname⟩, hkept⟩ := hfindings _ _ hf
  obtain ⟨hrule, hvalues⟩ := hkept f' hf' hname
  exact ⟨_, _, hextend, hissues none "a.txt", _, hf, rfl, f', hf', hname, hrule, hvalues⟩

end Visit

end LiteralAudit
