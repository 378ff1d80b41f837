import LiteralAudit.Proofs.Library.Grouping
import LiteralAudit.Visit
import Mathlib

/-!
# Which secrets are masked

The rules of a category share one issue, and the first of them that fires represents it: its flag alone
decides whether the values of all of them are masked. So a secret that a sensitive rule reports is
masked exactly when the rule that represents the category is sensitive, too. That is so in every library
in which no plain rule stands before a sensitive one of its category (`Library.SecretsFirst`), such as the
built-in one, but a pack can add a rule to a category that has a plain one.
-/

namespace LiteralAudit

/-! ## Masks -/

namespace Text

/-- All that the mask of a text tells: the number of its characters and the first four of them. -/
def SameOutline (a b : Text) : Prop :=
  a.chars.length = b.chars.length ∧ a.chars.take 4 = b.chars.take 4

theorem shownOfSecret_le (n : Nat) : shownOfSecret n ≤ 4 := by
  unfold shownOfSecret
  split
  · omega
  · split <;> omega

theorem mask_eq_of_sameOutline {a b : Text} (h : SameOutline a b) : a.mask = b.mask := by
  obtain ⟨hlen, htake⟩ := h
  have hshown : ∀ t : Text, t.chars.take (shownOfSecret t.chars.length) =
      (t.chars.take 4).take (shownOfSecret t.chars.length) := by
    intro t
    rw [List.take_take, Nat.min_eq_left (shownOfSecret_le _)]
  unfold mask
  dsimp only
  rw [hshown a, hshown b, htake, hlen]

end Text

/-! ## Secrets of a category -/

namespace Library

variable {l : Library} {c : Candidate} {category : Text}

/-- A sensitive rule of a category reports a value. -/
def Secret (l : Library) (c : Candidate) (category value : Text) : Prop :=
  ∃ r ∈ l.rules, r.category = category ∧ r.sensitive = true ∧ value ∈ r.find c

/-! ## Libraries that mask every secret -/

/-- In every category the sensitive rules come first. -/
def SecretsFirst (l : Library) : Prop :=
  l.rules.Pairwise fun a b => a.category = b.category → b.sensitive = true → a.sensitive = true

/-- Where the sensitive rules come first, one of them represents each category with a secret. -/
theorem SecretsFirst.sensitive (hl : l.SecretsFirst) {rule : Rule} {v : Text}
    (hrule : l.Represents c category rule) (hv : l.Secret c category v) : rule.sensitive = true := by
  obtain ⟨before, after, hrules, hcategory, -, hbefore⟩ := hrule
  obtain ⟨r, hr, hrcategory, hsensitive, hv⟩ := hv
  unfold SecretsFirst at hl
  rw [hrules] at hl hr
  obtain ⟨-, hafter, -⟩ := List.pairwise_append.1 hl
  rw [List.mem_append, List.mem_cons] at hr
  obtain hr | rfl | hr := hr
  · rw [hbefore r hr hrcategory] at hv
    cases hv
  · exact hsensitive
  · exact (List.pairwise_cons.1 hafter).1 r hr (hcategory.trans hrcategory.symm) hsensitive

theorem secretsFirst_builtin : builtin.SecretsFirst := by
  have hsources : builtinRules.Pairwise fun a b =>
      a.category = b.category → b.sensitive = true → a.sensitive = true := by decide
  show (builtinRules.filterMap fun r => r.compile.toOption).Pairwise _
  refine hsources.filterMap _ ?_
  intro a b hab a' ha b' hb hcategory hsensitive
  obtain ⟨-, -, hacategory, hasensitive, -⟩ := RuleSource.of_compile ha
  obtain ⟨-, -, hbcategory, hbsensitive, -⟩ := RuleSource.of_compile hb
  rw [hacategory, hbcategory] at hcategory
  rw [hbsensitive] at hsensitive
  rw [hasensitive]
  exact hab hcategory hsensitive

end Library

/-! ## What issues show -/

namespace Visit

/-- What the rules see of a literal. -/
def candidate (lit : Literal) : Candidate := ⟨lit.value, lit.binding, lit.numeric⟩

/-- A value as it is shown when it is no secret. -/
def inClear (v : Text) : Text := (cutAfter shownLength v).quoted

/-- A value as it is shown when it is a secret. -/
def masked (v : Text) : Text := (cutAfter shownLength v.mask).quoted

theorem shown_of_sensitive {rule : Rule} (h : rule.sensitive = true) (v : Text) :
    shown rule v = masked v := by
  rw [shown, if_pos h, masked]

theorem shown_of_plain {rule : Rule} (h : rule.sensitive = false) (v : Text) :
    shown rule v = inClear v := by
  rw [shown, h, if_neg Bool.false_ne_true, inClear]

/-- The description of secrets tells no more than their outlines. -/
theorem describe_eq_of_sameOutline {rule : Rule} (hrule : rule.sensitive = true)
    {values values' : List Text} (h : List.Forall₂ Text.SameOutline values values') (binding : Text) :
    describe rule values' binding = describe rule values binding := by
  have hshown : values'.map (shown rule) = values.map (shown rule) := by
    induction h with
    | nil => rfl
    | cons hv _ ih =>
      rw [List.map_cons, List.map_cons, ih, shown_of_sensitive hrule, shown_of_sensitive hrule,
        masked, masked, Text.mask_eq_of_sameOutline hv]
  rw [describe, describe, hshown]

/-- The values of a finding that the whitelist does not allow. -/
def kept (w? : Option Whitelist) (lit : Literal) (f : Library.Finding) : List Text :=
  f.values.filter fun v => !w?.any fun w => w.allows f.category.name v lit.value

theorem of_mem_literalIssues {l : Library} {w? : Option Whitelist} {path : Text} {lit : Literal}
    {i : Issue} (hi : i ∈ literalIssues l w? path lit) :
    ∃ f ∈ l.classify (candidate lit), i.kind = f.category.kind ∧
      i.description = describe f.rule (kept w? lit f) lit.binding := by
  obtain ⟨f, hf, hissue⟩ := List.mem_filterMap.1 hi
  refine ⟨f, hf, ?_⟩
  dsimp only at hissue
  split at hissue
  · cases hissue
  · cases hissue
    exact ⟨rfl, rfl⟩

theorem exists_issue_of_mem_classify {l : Library} {w? : Option Whitelist} {lit : Literal}
    {f : Library.Finding} (path : Text) (hf : f ∈ l.classify (candidate lit))
    (hkept : (kept w? lit f).isEmpty = false) :
    ∃ i ∈ literalIssues l w? path lit,
      i.description = describe f.rule (kept w? lit f) lit.binding := by
  refine ⟨{
    file := path
    line := lit.line
    kind := f.category.kind
    severity := f.category.severity
    description := _
    pattern := f.rule.source
    fix := f.category.remediation }, List.mem_filterMap.2 ⟨f, hf, ?_⟩, rfl⟩
  unfold kept at hkept ⊢
  dsimp only
  rw [hkept]
  rfl

/-- Where the sensitive rules come first, every secret is masked. -/
theorem shown_of_secretsFirst {l : Library} (hl : l.SecretsFirst) {c : Candidate}
    {f : Library.Finding} (hf : f ∈ l.classify c) {v : Text} (hv : l.Secret c f.category.name v) :
    shown f.rule v = masked v :=
  shown_of_sensitive (hl.sensitive (Library.of_mem_classify hf).2.1 hv) v

theorem shown_of_builtin {c : Candidate} {f : Library.Finding} (hf : f ∈ Library.builtin.classify c)
    {v : Text} (hv : Library.builtin.Secret c f.category.name v) : shown f.rule v = masked v :=
  shown_of_secretsFirst Library.secretsFirst_builtin hf hv

/-- The issue of a category shows all values of its rules that the whitelist does not allow, in the way
that the rule asks for which represents the category. So its secrets are masked exactly when that rule is
sensitive, or they look the same masked and in clear; and then the description does not tell its values
from others with as many characters and the same first four. Secrets are always masked in a library in
which the sensitive rules of each category come first. -/
theorem secrets_masked_iff_representative_sensitive {l : Library} {w? : Option Whitelist} {path : Text}
    {lit : Literal} {i : Issue} (hi : i ∈ literalIssues l w? path lit) :
    ∃ category ∈ l.categories, ∃ rule values,
      i.kind = category.kind ∧ i.description = describe rule values lit.binding ∧
      l.Represents (candidate lit) category.name rule ∧
      (∀ v, v ∈ values ↔ l.Reports (candidate lit) category.name v ∧
        (w?.any fun w => w.allows category.name v lit.value) = false) ∧
      ((∀ v ∈ values, l.Secret (candidate lit) category.name v → shown rule v = masked v) ↔
        rule.sensitive = true ∨
          ∀ v ∈ values, l.Secret (candidate lit) category.name v → inClear v = masked v) ∧
      (rule.sensitive = true → ∀ values', List.Forall₂ Text.SameOutline values values' →
        describe rule values' lit.binding = i.description) ∧
      (l.SecretsFirst →
        ∀ v ∈ values, l.Secret (candidate lit) category.name v → shown rule v = masked v) := by
  obtain ⟨f, hf, hkind, hdescription⟩ := of_mem_literalIssues hi
  obtain ⟨hcategory, hrepresents, hvalues⟩ := Library.of_mem_classify hf
  refine ⟨f.category, hcategory, f.rule, kept w? lit f, hkind, hdescription, hrepresents, ?_, ?_, ?_,
    ?_⟩
  · intro v
    rw [kept, List.mem_filter, hvalues]
    simp
  · cases hsensitive : f.rule.sensitive with
    | true => simp [shown_of_sensitive hsensitive]
    | false => simp [shown_of_plain hsensitive]
  · intro hsensitive values' hsame
    rw [hdescription, describe_eq_of_sameOutline hsensitive hsame]
  · intro hl v _ hv
    exact shown_of_secretsFirst hl hf hv

/-! ### A pack that puts a sensitive rule behind a plain one -/

def account : RuleSource :=
  { id := "account", category := "leak", value := "admin", description := "account" }

def knownPassword : RuleSource :=
  { id := "known-password", category := "leak", value := "hunter2", sensitive := true,
    description := "known password" }

def leakPack : RulePack where
  categories := [{ name := "leak", severity := "low" }]
  rules := [account, knownPassword]

def leak : Literal := { value := "admin:hunter2", line := 1, binding := "x" }

theorem find_account :
    account.compile.toOption.map (·.find (candidate leak)) = some [Text.ofString "admin"] := by
  decide

theorem find_knownPassword :
    knownPassword.compile.toOption.map (·.find (candidate leak)) =
      some [Text.ofString "hunter2"] := by
  decide

def leakCategory : Category := ⟨"leak", "custom_leak", .low, []⟩

/-- The built-in library with the category of the pack and some rules. -/
def leakLibrary (rules : List Rule) : Library :=
  { Library.builtin with
    categories := Library.builtinCategories ++ [leakCategory]
    rules := Library.builtin.rules ++ rules }

theorem addRule_leakLibrary {rules : List Rule} {source : RuleSource} {rule : Rule}
    (hcategory : source.category = "leak") (hbuiltin : ∀ r ∈ Library.builtinRules, r.id ≠ source.id)
    (hrules : ∀ r ∈ rules, r.id ≠ source.id) (hrule : source.compile.toOption = some rule) :
    (leakLibrary rules).addRule source = .ok (leakLibrary (rules ++ [rule])) := by
  rw [Library.addRule_eq_ok ?_ ?_ hrule]
  · simp [leakLibrary]
  · rw [hcategory]
    rfl
  · intro r hr
    obtain hr | hr := List.mem_append.1 hr
    · obtain ⟨known, hknown, hcompile⟩ := List.mem_filterMap.1 hr
      rw [(RuleSource.of_compile hcompile).2.1]
      exact hbuiltin known hknown
    · exact hrules r hr

theorem extend_leakPack {first second : Rule} (hfirst : account.compile.toOption = some first)
    (hsecond : knownPassword.compile.toOption = some second) :
    Library.builtin.extend leakPack = .ok (leakLibrary [first, second]) := by
  have hcategory : Library.addCategory Library.builtin { name := "leak", severity := "low" } =
      .ok (leakLibrary []) := by
    unfold leakLibrary
    rw [List.append_nil]
    rfl
  have hadd₁ : (leakLibrary []).addRule account = .ok (leakLibrary [first]) :=
    addRule_leakLibrary rfl (by decide) (by simp) hfirst
  have hadd₂ : (leakLibrary [first]).addRule knownPassword = .ok (leakLibrary [first, second]) := by
    refine addRule_leakLibrary rfl (by decide) ?_ hsecond
    rw [List.forall_mem_singleton, (RuleSource.of_compile hfirst).2.1]
    decide
  have hcategories : leakPack.categories.foldlM Library.addCategory Library.builtin =
      .ok (leakLibrary []) := by
    rw [leakPack, List.foldlM_cons, hcategory]
    rfl
  exact Library.extend_eq_ok hcategories (Library.foldlM_pair hadd₁ hadd₂) rfl

/-- The built-in rules say nothing about the category of the pack. -/
theorem firing_leakLibrary_eq (rules : List Rule) (c : Candidate) :
    (leakLibrary rules).firing c "leak" = Library.firing ⟨[], rules, []⟩ c "leak" := by
  have hbuiltin : Library.builtin.rules.filter (·.category == Text.ofString "leak") = [] := by
    rw [List.filter_eq_nil_iff]
    intro r hr
    obtain ⟨known, hknown, hcompile⟩ := List.mem_filterMap.1 hr
    rw [(RuleSource.of_compile hcompile).2.2.1]
    have hcategories : ∀ known ∈ Library.builtinRules,
        ¬ (known.category == Text.ofString "leak") = true := by decide
    exact hcategories known hknown
  show ((Library.builtin.rules ++ rules).filter _).filterMap _ = _
  rw [List.filter_append, hbuiltin, List.nil_append]
  rfl

theorem find_of_compile_account {first : Rule} (hfirst : account.compile.toOption = some first) :
    first.find (candidate leak) = [Text.ofString "admin"] := by
  have h := find_account
  rw [hfirst] at h
  exact Option.some.inj h

theorem firing_leakLibrary {first second : Rule} (hfirst : account.compile.toOption = some first)
    (hsecond : knownPassword.compile.toOption = some second) :
    (leakLibrary [first, second]).firing (candidate leak) "leak" =
      [(first, [Text.ofString "admin"]), (second, [Text.ofString "hunter2"])] := by
  have hfound₂ : second.find (candidate leak) = [Text.ofString "hunter2"] := by
    have h := find_knownPassword
    rw [hsecond] at h
    exact Option.some.inj h
  have hcategory₁ : (first.category == Text.ofString "leak") = true := by
    rw [(RuleSource.of_compile hfirst).2.2.1]
    decide
  have hcategory₂ : (second.category == Text.ofString "leak") = true := by
    rw [(RuleSource.of_compile hsecond).2.2.1]
    decide
  rw [firing_leakLibrary_eq]
  simp [Library.firing, hcategory₁, hcategory₂, find_of_compile_account hfirst, hfound₂]

/-- The issue that the literal gives. -/
theorem exists_leak_issue : ∃ l,
    Library.builtin.extend leakPack = .ok l ∧ l.Secret (candidate leak) "leak" "hunter2" ∧
    ∃ i ∈ literalIssues l none "a.txt" leak,
      i.description = "Hardcoded account: \"admin\", \"hunter2\" (assigned to x)" := by
  obtain ⟨first, hfirst, -⟩ := Option.map_eq_some_iff.1 find_account
  obtain ⟨second, hsecond, hfound⟩ := Option.map_eq_some_iff.1 find_knownPassword
  obtain ⟨-, -, -, hplain, hdescription⟩ := RuleSource.of_compile hfirst
  obtain ⟨-, -, hcategory, hsensitive, -⟩ := RuleSource.of_compile hsecond
  refine ⟨leakLibrary [first, second], extend_leakPack hfirst hsecond, ?_, ?_⟩
  · refine ⟨second, ?_, hcategory, hsensitive, ?_⟩
    · exact List.mem_append_right _ (by simp)
    · rw [hfound, List.mem_singleton]
  · have hcategories : leakCategory ∈ (leakLibrary [first, second]).categories :=
      List.mem_append_right _ (List.mem_singleton.2 rfl)
    have hf := Library.mem_classify_of_firing hcategories (firing_leakLibrary hfirst hsecond)
    obtain ⟨i, hi, hidescription⟩ : ∃ i ∈ literalIssues (leakLibrary [first, second]) none "a.txt" leak,
        i.description = describe first [Text.ofString "admin", Text.ofString "hunter2"] "x" :=
      exists_issue_of_mem_classify "a.txt" hf rfl
    refine ⟨i, hi, hidescription.trans ?_⟩
    simp only [describe, hdescription, List.map_cons, List.map_nil, shown_of_plain hplain]
    decide

/-- The password that the sensitive rule reports is shown as it is. -/
theorem known_password_in_clear : ∃ l,
    Library.builtin.extend leakPack = .ok l ∧ l.Secret (candidate leak) "leak" "hunter2" ∧
    (∃ i ∈ literalIssues l none "a.txt" leak,
      i.description = "Hardcoded account: \"admin\", \"hunter2\" (assigned to x)") ∧
    masked "hunter2" = "\"hu*****\"" := by
  obtain ⟨l, hl, hsecret, hissue⟩ := exists_leak_issue
  exact ⟨l, hl, hsecret, hissue, by decide⟩

/-- The plain rule represents the category of that issue. -/
theorem leak_represented : ∃ l i,
    i ∈ literalIssues l none "a.txt" leak ∧ ∃ category ∈ l.categories, ∃ rule values,
      i.description = describe rule values leak.binding ∧
      l.Represents (candidate leak) category.name rule ∧
      ((∀ v ∈ values, l.Secret (candidate leak) category.name v → shown rule v = masked v) ↔
        rule.sensitive = true ∨
          ∀ v ∈ values, l.Secret (candidate leak) category.name v → inClear v = masked v) := by
  obtain ⟨l, -, -, i, hi, -⟩ := exists_leak_issue
  obtain ⟨category, hcategory, rule, values, -, hdescription, hrule, -, hmasked, -⟩ :=
    secrets_masked_iff_representative_sensitive hi
  exact ⟨l, i, hi, category, hcategory, rule, values, hdescription, hrule, hmasked⟩

end Visit

end LiteralAudit
