import LiteralAudit.Proofs.Visit.MoreRules

/-!
# Which rule an issue names

An issue names one rule, by its expression and in its description, and shows the values of all rules of
the category that the whitelist does not allow. The rule is chosen before the whitelist is asked
(`Library.classify`), so it is always one that has found something in the literal
(`Library.Represents`), but it has found one of the values shown exactly when the whitelist leaves it one
(`issues_attributed_to_representative`). Without a whitelist every issue names a rule that found some of
what it shows; with one, an issue can name a rule whose findings are all suppressed
(`attributed_to_suppressed_rule`).
-/

namespace LiteralAudit.Visit

variable {l : Library} {w? : Option Whitelist} {path : Text} {lit : Literal}

/-- A whitelist, if there is one, allows a value that a category reports of a literal. -/
def Suppressed (w? : Option Whitelist) (category : Text) (lit : Literal) (v : Text) : Prop :=
  ∃ w ∈ w?, w.allows category v lit.value = true

theorem mem_kept {f : Library.Finding} {v : Text} :
    v ∈ kept w? lit f ↔ v ∈ f.values ∧ ¬ Suppressed w? f.category.name lit v := by
  cases w? <;> simp [kept, Suppressed]

theorem not_suppressed_none (category : Text) (lit : Literal) (v : Text) :
    ¬ Suppressed none category lit v := by
  rintro ⟨w, ⟨⟩, -⟩

/-- The issues of a file are that it cannot be parsed, or those of the findings in its literals of which
the whitelist leaves something. -/
theorem mem_issues_cases {source : Text} {i : Issue} (hi : i ∈ issues l w? path source) :
    (∃ e, extract path source = .error e ∧ i = parseIssue l path e) ∨
    ∃ lits, extract path source = .ok lits ∧ ∃ lit ∈ lits,
      ∃ f ∈ l.classify (candidate lit), kept w? lit f ≠ [] ∧ i = issueOf w? path lit f := by
  unfold issues at hi
  split at hi
  · cases hi
  · split at hi
    · next e he => exact .inl ⟨e, he, List.mem_singleton.1 hi⟩
    · next lits hlits =>
      obtain ⟨lit, hlit, hi⟩ := List.mem_flatMap.1 hi
      rw [literalIssues_eq] at hi
      obtain ⟨f, hf, hissue⟩ := List.mem_filterMap.1 hi
      obtain ⟨hkept, rfl⟩ := issue?_eq_some_iff.1 hissue
      exact .inr ⟨lits, hlits, lit, hlit, f, hf, hkept, rfl⟩

/-- Every issue says that the file cannot be parsed, or is the issue of a category for a literal of the
file. The rule that it names, by its expression and by its description, is then the first of the category
that finds anything in the literal, and the values that it shows are those that the rules of the category
find and the whitelist does not allow, at least one. The rule has found one of them exactly when it has
found a value that the whitelist does not allow. -/
theorem issues_attributed_to_representative {source : Text} {i : Issue}
    (hi : i ∈ issues l w? path source) :
    (∃ e, extract path source = .error e ∧ i = parseIssue l path e) ∨
    ∃ lits, extract path source = .ok lits ∧ ∃ lit ∈ lits, ∃ category ∈ l.categories, ∃ rule values,
      i.kind = category.kind ∧ i.line = lit.line ∧ i.pattern = rule.source ∧
      i.description = describe rule values lit.binding ∧
      l.Represents (candidate lit) category.name rule ∧ values ≠ [] ∧
      (∀ v, v ∈ values ↔
        l.Reports (candidate lit) category.name v ∧ ¬ Suppressed w? category.name lit v) ∧
      ((∃ v ∈ values, v ∈ rule.find (candidate lit)) ↔
        ∃ v ∈ rule.find (candidate lit), ¬ Suppressed w? category.name lit v) ∧
      (w? = none → ∃ v ∈ values, v ∈ rule.find (candidate lit)) := by
  obtain herror | ⟨lits, hlits, lit, hlit, f, hf, hkept, rfl⟩ := mem_issues_cases hi
  · exact .inl herror
  obtain ⟨hcategory, hrepresents, hvalues⟩ := Library.of_mem_classify hf
  obtain ⟨before, after, hrules, hrule, hfound, -⟩ := id hrepresents
  have hshown v : v ∈ kept w? lit f ↔
      l.Reports (candidate lit) f.category.name v ∧ ¬ Suppressed w? f.category.name lit v := by
    rw [mem_kept, hvalues]
  -- What the representative finds is part of what the category reports.
  have hreports : ∀ v ∈ f.rule.find (candidate lit), l.Reports (candidate lit) f.category.name v :=
    fun v hv => ⟨f.rule, hrules ▸ List.mem_append_right _ (List.mem_cons_self ..), hrule, hv⟩
  have hiff : (∃ v ∈ kept w? lit f, v ∈ f.rule.find (candidate lit)) ↔
      ∃ v ∈ f.rule.find (candidate lit), ¬ Suppressed w? f.category.name lit v := by
    constructor
    · rintro ⟨v, hv, hmem⟩
      exact ⟨v, hmem, ((hshown v).1 hv).2⟩
    · rintro ⟨v, hmem, hv⟩
      exact ⟨v, (hshown v).2 ⟨hreports v hmem, hv⟩, hmem⟩
  refine .inr ⟨lits, hlits, lit, hlit, f.category, hcategory, f.rule, kept w? lit f, rfl, rfl, rfl, rfl,
    hrepresents, hkept, hshown, hiff, ?_⟩
  rintro rfl
  obtain ⟨v, hv⟩ := List.exists_mem_of_ne_nil _ hfound
  exact hiff.2 ⟨v, hv, not_suppressed_none _ _ _⟩

/-! ### A rule whose only finding is allowed -/

def adminAllowed : WhitelistConfig := { strings := ["admin"] }

/-- The whitelist of `adminAllowed`. -/
def adminWhitelist : Whitelist := ⟨[], [], ["admin"], [], []⟩

theorem extract_leak : extract "a.py" "x = \"admin:hunter2\"" = .ok [leak] := by
  decide

/-- What can name a rule: one of the expressions that it is written with. -/
def names (source : RuleSource) : List Text := [source.value, source.numeric, source.binding, []]

theorem source_of_compile {source : RuleSource} {rule : Rule}
    (h : source.compile.toOption = some rule) : rule.source ∈ names source := by
  obtain ⟨hvalue, hnumeric, hbinding, -⟩ := RuleSource.patterns_of_compile h
  unfold Rule.source
  split
  · next hp => simp [names, (RuleSource.of_pattern? (hp ▸ hvalue)).2.1]
  · next hp => simp [names, (RuleSource.of_pattern? (hp ▸ hnumeric)).2.1]
  · next hp => simp [names, (RuleSource.of_pattern? (hp ▸ hbinding)).2.1]
  · simp [names]

/-- A literal with an account and a password, of which the whitelist allows the account: the issue shows
the password only, and names the rule that found the account. -/
theorem exists_suppressed_representative : ∃ l w,
    Library.builtin.extend leakPack = .ok l ∧ Whitelist.ofConfig adminAllowed = .ok w ∧
    ∃ i ∈ issues l (some w) "a.py" "x = \"admin:hunter2\"",
      i.pattern = "admin" ∧ i.description = "Hardcoded account: \"hunter2\" (assigned to x)" ∧
      ∀ r ∈ l.rules, r.source = i.pattern → r.find (candidate leak) = [Text.ofString "admin"] := by
  obtain ⟨first, hfirst, -⟩ := Option.map_eq_some_iff.1 find_account
  obtain ⟨second, hsecond, -⟩ := Option.map_eq_some_iff.1 find_knownPassword
  obtain ⟨-, -, -, hplain, hdescription⟩ := RuleSource.of_compile hfirst
  have hcategories : leakCategory ∈ (leakLibrary [first, second]).categories :=
    List.mem_append_right _ (List.mem_singleton.2 rfl)
  have hf := Library.mem_classify_of_firing hcategories (firing_leakLibrary hfirst hsecond)
  have hkept : kept (some adminWhitelist) leak
      ⟨leakCategory, first, [Text.ofString "admin", Text.ofString "hunter2"]⟩ = [Text.ofString "hunter2"] := by
    show List.filter (fun v => !adminWhitelist.allows leakCategory.name v leak.value)
      [Text.ofString "admin", Text.ofString "hunter2"] = _
    decide
  have hsource : first.source = "admin" := by
    have hnamed : account.compile.toOption.map (·.source) = some (Text.ofString "admin") := by decide
    rw [hfirst] at hnamed
    exact Option.some.inj hnamed
  refine ⟨leakLibrary [first, second], adminWhitelist, extend_leakPack hfirst hsecond, rfl,
    issueOf (some adminWhitelist) "a.py" leak
      ⟨leakCategory, first, [Text.ofString "admin", Text.ofString "hunter2"]⟩, ?_, hsource, ?_, ?_⟩
  · have hissue : issue? (some adminWhitelist) "a.py" leak
        ⟨leakCategory, first, [Text.ofString "admin", Text.ofString "hunter2"]⟩ = some _ :=
      issue?_eq_some_iff.2 ⟨by simp [hkept], rfl⟩
    have htest : ¬ ((some adminWhitelist).any (·.isTestFile "a.py")) = true := by decide
    rw [issues, if_neg htest, extract_leak]
    refine List.mem_flatMap.2 ⟨leak, List.mem_singleton_self _, ?_⟩
    rw [literalIssues_eq]
    exact List.mem_filterMap.2 ⟨_, hf, hissue⟩
  · rw [issueOf, hkept]
    simp only [describe, hdescription, List.map_cons, List.map_nil, shown_of_plain hplain]
    decide
  · intro r hr hnamed
    replace hnamed : r.source = Text.ofString "admin" := hnamed.trans hsource
    obtain hr | hr := List.mem_append.1 hr
    · obtain ⟨known, hknown, hcompile⟩ := List.mem_filterMap.1 hr
      have hother : ∀ known ∈ Library.builtinRules, Text.ofString "admin" ∉ names known := by
        decide +kernel
      exact absurd (hnamed ▸ source_of_compile hcompile) (hother known hknown)
    · obtain rfl | rfl : r = first ∨ r = second := by simpa using hr
      · exact find_of_compile_account hfirst
      · have hother : Text.ofString "admin" ∉ names knownPassword := by decide
        exact absurd (hnamed ▸ source_of_compile hsecond) hother

/-- No rule with the expression that the issue names has found what the issue shows. -/
theorem attributed_to_suppressed_rule : ∃ l w,
    Library.builtin.extend leakPack = .ok l ∧ Whitelist.ofConfig adminAllowed = .ok w ∧
    extract "a.py" "x = \"admin:hunter2\"" = .ok [leak] ∧
    ∃ i ∈ issues l (some w) "a.py" "x = \"admin:hunter2\"",
      i.pattern = "admin" ∧ i.description = "Hardcoded account: \"hunter2\" (assigned to x)" ∧
      ∀ r ∈ l.rules, r.source = i.pattern → Text.ofString "hunter2" ∉ r.find (candidate leak) := by
  obtain ⟨l, w, hl, hw, i, hi, hpattern, hdescription, hrules⟩ := exists_suppressed_representative
  refine ⟨l, w, hl, hw, extract_leak, i, hi, hpattern, hdescription, fun r hr hnamed => ?_⟩
  rw [hrules r hr hnamed]
  decide

/-- The rule that the issue names has found something in the literal, and its findings are suppressed. -/
theorem suppressed_representative_of_leak : ∃ l w,
    ∃ i ∈ issues l (some w) "a.py" "x = \"admin:hunter2\"",
      ∃ category ∈ l.categories, ∃ rule values,
        i.pattern = rule.source ∧ i.description = describe rule values leak.binding ∧
        l.Represents (candidate leak) category.name rule ∧ values ≠ [] ∧
        ((∃ v ∈ values, v ∈ rule.find (candidate leak)) ↔
          ∃ v ∈ rule.find (candidate leak), ¬ Suppressed (some w) category.name leak v) := by
  obtain ⟨l, w, -, -, i, hi, -⟩ := exists_suppressed_representative
  obtain ⟨e, herror, -⟩ | ⟨lits, hlits, lit, hlit, category, hcategory, rule, values, -, -, hpattern,
    hdescription, hrepresents, hne, -, hiff, -⟩ := issues_attributed_to_representative hi
  · rw [extract_leak] at herror
    cases herror
  · rw [extract_leak] at hlits
    cases hlits
    obtain rfl := List.mem_singleton.1 hlit
    exact ⟨l, w, i, hi, category, hcategory, rule, values, hpattern, hdescription, hrepresents, hne, hiff⟩

end LiteralAudit.Visit
