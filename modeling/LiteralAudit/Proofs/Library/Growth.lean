import LiteralAudit.Library.Builtin
import LiteralAudit.Library.Pack
import Mathlib

/-!
# How libraries grow

A library changes by rule packs and by other deprecated patterns. Whatever the order of the changes,
the tables stay consistent (`Library.WellFormed`): names of categories and ids of rules are distinct,
and every rule has its category. And the tables grow at their ends only (`Library.Grown`): a category
keeps its place, its kind and its severity, and only its remediation may be replaced.

`Library.extend` checks and adds one entry after another, so that an entry of a pack is judged by the
library with the entries before it. So the steps here are single additions (`Library.Addition`), of
which a change is a sequence.
-/

namespace LiteralAudit

open Relation

/-- What of a category cannot be changed: all but its remediation. -/
def Category.fixed (k : Category) : Text × Text × Severity := (k.name, k.kind, k.severity)

theorem Category.fixed_eq_iff {k k' : Category} :
    k'.fixed = k.fixed ↔ k'.name = k.name ∧ k'.kind = k.kind ∧ k'.severity = k.severity := by
  simp [fixed]

theorem eq_ok_of_toOption {ε α : Type} {x : Except ε α} {a : α} (h : x.toOption = some a) :
    x = .ok a := by
  cases x with
  | error e => cases h
  | ok b =>
    cases h
    rfl

/-- What compiling does: the three patterns are compiled, and all else of the source is kept. -/
theorem RuleSource.eq_of_compile {source : RuleSource} {rule : Rule}
    (h : source.compile.toOption = some rule) :
    source.id ≠ [] ∧ ∃ value? numeric? binding?,
      source.pattern? "value" source.value = .ok value? ∧
      source.pattern? "numeric" source.numeric = .ok numeric? ∧
      source.pattern? "binding" source.binding = .ok binding? ∧
      rule = { source with value?, numeric?, binding? } := by
  replace h := eq_ok_of_toOption h
  unfold compile at h
  simp only [bind, Except.bind, pure, Except.pure, throw, throwThe, MonadExceptOf.throw] at h
  split at h
  · cases h
  next hid =>
  split at h
  · cases h
  split at h
  · cases h
  next value? hvalue =>
  split at h
  · cases h
  next numeric? hnumeric =>
  split at h
  · cases h
  next binding? hbinding =>
  cases h
  exact ⟨by simpa using hid, value?, numeric?, binding?, hvalue, hnumeric, hbinding, rfl⟩

/-- What a compiled rule is: its source had an id, and only the patterns have changed. -/
theorem RuleSource.of_compile {source : RuleSource} {rule : Rule}
    (h : source.compile.toOption = some rule) :
    source.id ≠ [] ∧ rule.id = source.id ∧ rule.category = source.category ∧
      rule.sensitive = source.sensitive ∧ rule.description = source.description := by
  obtain ⟨hid, _, _, _, -, -, -, rfl⟩ := eq_of_compile h
  exact ⟨hid, rfl, rfl, rfl, rfl⟩

/-- The patterns of a compiled rule are those that its source writes. -/
theorem RuleSource.patterns_of_compile {source : RuleSource} {rule : Rule}
    (h : source.compile.toOption = some rule) :
    source.pattern? "value" source.value = .ok rule.value? ∧
      source.pattern? "numeric" source.numeric = .ok rule.numeric? ∧
      source.pattern? "binding" source.binding = .ok rule.binding? ∧
      rule.portRange = source.portRange := by
  obtain ⟨-, _, _, _, hvalue, hnumeric, hbinding, rfl⟩ := eq_of_compile h
  exact ⟨hvalue, hnumeric, hbinding, rfl⟩

/-- A pattern that a rule has is written, bears what is written, and is its automaton. -/
theorem RuleSource.of_pattern? {source : RuleSource} {which written : Text} {p : Pattern}
    (h : source.pattern? which written = .ok (some p)) :
    written ≠ [] ∧ p.source = written ∧
      ∃ r, Regex.read written = .ok r ∧ p.automaton = r.automaton := by
  unfold pattern? at h
  split at h
  · cases h
  · next hwritten =>
    refine ⟨by simpa using hwritten, ?_⟩
    unfold Pattern.compile at h
    cases hread : Regex.read written with
    | error e =>
      rw [hread] at h
      cases h
    | ok r =>
      rw [hread] at h
      cases h
      exact ⟨rfl, r, rfl, rfl⟩

namespace Library

variable {l l' l'' : Library}

/-- The names of the categories, in table order. -/
def names (l : Library) : List Text := l.categories.map (·.name)

/-! ## Consistent tables -/

/-- The tables fit together. -/
structure WellFormed (l : Library) : Prop where
  names_nodup : l.names.Nodup
  isKnown_severity : ∀ k ∈ l.categories, k.severity.isKnown = true
  kind_ne_nil : ∀ k ∈ l.categories, k.kind ≠ []
  ids_nodup : (l.rules.map (·.id)).Nodup
  id_ne_nil : ∀ r ∈ l.rules, r.id ≠ []
  category_mem : ∀ r ∈ l.rules, r.category ∈ l.names

theorem category?_eq_none_iff {name : Text} : l.category? name = none ↔ name ∉ l.names := by
  unfold category? names
  rw [List.find?_eq_none, List.mem_map]
  constructor
  · rintro h ⟨k, hk, hname⟩
    exact h k hk (by simpa using hname)
  · intro h k hk hname
    exact h ⟨k, hk, by simpa using hname⟩

/-- Names are distinct, so looking a name up finds the one entry of the table that has it. -/
theorem WellFormed.category?_eq_some_iff (hl : l.WellFormed) {name : Text} {k : Category} :
    l.category? name = some k ↔ k ∈ l.categories ∧ k.name = name := by
  constructor
  · intro h
    have hname := List.find?_some h
    exact ⟨List.mem_of_find?_eq_some h, by simpa using hname⟩
  · rintro ⟨hk, rfl⟩
    cases hfound : l.category? k.name with
    | none => exact absurd (List.mem_map_of_mem hk) (category?_eq_none_iff.1 hfound)
    | some found =>
      have hname : found.name = k.name := by simpa using List.find?_some hfound
      have hmem : found ∈ l.categories := List.mem_of_find?_eq_some hfound
      rw [List.inj_on_of_nodup_map hl.names_nodup hmem hk hname]

/-! ## Tables that grow at their ends -/

/-- Another library has all categories and rules of the first, in the same places. -/
structure Grown (l l' : Library) : Prop where
  categories : l.categories.map Category.fixed <+: l'.categories.map Category.fixed
  rules : l.rules <+: l'.rules

namespace Grown

theorem refl (l : Library) : l.Grown l := ⟨List.prefix_rfl, List.prefix_rfl⟩

theorem trans (h : l.Grown l') (h' : l'.Grown l'') : l.Grown l'' :=
  ⟨h.categories.trans h'.categories, h.rules.trans h'.rules⟩

/-- The categories of the first library stand in front, with other remediations perhaps. -/
theorem exists_categories (h : l.Grown l') :
    ∃ kept more, l'.categories = kept ++ more ∧
      List.Forall₂ (fun k k' => k'.fixed = k.fixed) l.categories kept := by
  obtain ⟨more, hmore⟩ := h.categories
  obtain ⟨kept, rest, hsplit, hkept, -⟩ := List.map_eq_append_iff.1 hmore.symm
  refine ⟨kept, rest, hsplit, ?_⟩
  have hboth : List.Forall₂ (· = ·) (kept.map Category.fixed) (l.categories.map Category.fixed) :=
    List.forall₂_eq_eq_eq ▸ hkept
  exact (List.forall₂_map_left_iff.1 (List.forall₂_map_right_iff.1 hboth)).flip

/-- A category of the first library is one of the other, with the same kind and severity. -/
theorem exists_fixed (h : l.Grown l') {k : Category} (hk : k ∈ l.categories) :
    ∃ k' ∈ l'.categories, k'.fixed = k.fixed := by
  have hmem : k.fixed ∈ l'.categories.map Category.fixed :=
    h.categories.subset (List.mem_map_of_mem hk)
  exact List.mem_map.1 hmem

end Grown

/-! ## Single additions -/

/-- One step of a change: a category or a rule of a pack, or other deprecated patterns. -/
inductive Addition : Library → Library → Prop
  | category {l l' : Library} (c : CategorySource) (h : l.addCategory c = .ok l') : Addition l l'
  | rule {l l' : Library} (r : RuleSource) (h : l.addRule r = .ok l') : Addition l l'
  | deprecated (l : Library) (ps : List Pattern) : Addition l { l with deprecated := ps }

/-- Adding a category replaces remediations of categories that are there, or puts a category with a
new name at the end. -/
theorem addCategory_cases {c : CategorySource} (h : l.addCategory c = .ok l') :
    (∃ mended : Category → Category, (∀ k, (mended k).fixed = k.fixed) ∧
      l' = { l with categories := l.categories.map mended }) ∨
    ∃ k : Category, k.name ∉ l.names ∧ k.severity.isKnown = true ∧ k.kind ≠ [] ∧
      l' = { l with categories := l.categories ++ [k] } := by
  unfold addCategory at h
  split at h
  · cases h
  · split at h
    · split at h
      · cases h
      · split at h
        · cases h
          exact .inl ⟨id, fun _ => rfl, by simp⟩
        · cases h
          refine .inl ⟨_, fun k => ?_, rfl⟩
          split <;> rfl
    · next hnone =>
      simp only at h
      split at h
      · cases h
      · next hknown =>
        cases h
        refine .inr ⟨_, category?_eq_none_iff.1 hnone, by simpa using hknown, ?_, rfl⟩
        dsimp only
        split
        · exact List.append_ne_nil_of_left_ne_nil (by decide) _
        · next hkind => simpa using hkind

/-- A rule is added at the end. Its category is there, and its id is new. -/
theorem addRule_cases {r : RuleSource} (h : l.addRule r = .ok l') :
    ∃ rule : Rule, rule.category ∈ l.names ∧ rule.id ≠ [] ∧ (∀ known ∈ l.rules, known.id ≠ rule.id) ∧
      l' = { l with rules := l.rules ++ [rule] } := by
  unfold addRule at h
  split at h
  · cases h
  · next hcategory =>
    split at h
    · cases h
    · next hid =>
      split at h
      · cases h
      · next rule hcompile =>
        cases h
        obtain ⟨hne, hruleId, hruleCategory, -⟩ :=
          RuleSource.of_compile (congrArg Except.toOption hcompile)
        have hmem : r.category ∈ l.names := by
          rw [Bool.not_eq_true, Option.isNone_eq_false_iff, Option.isSome_iff_ne_none, Ne,
            category?_eq_none_iff, not_not] at hcategory
          exact hcategory
        refine ⟨rule, by rwa [hruleCategory], by rwa [hruleId], ?_, rfl⟩
        intro known hknown heq
        exact hid (List.any_eq_true.2 ⟨known, hknown, by simpa using heq.trans hruleId⟩)

/-- A rule that compiles is added when its category is there and its id is new. -/
theorem addRule_eq_ok {source : RuleSource} {rule : Rule}
    (hcategory : (l.category? source.category).isNone = false) (hid : ∀ r ∈ l.rules, r.id ≠ source.id)
    (hrule : source.compile.toOption = some rule) :
    l.addRule source = .ok { l with rules := l.rules ++ [rule] } := by
  have hany : l.rules.any (·.id == source.id) = false := by
    rw [List.any_eq_false]
    intro r hr
    simpa using hid r hr
  unfold addRule
  rw [hcategory, hany]
  rw [eq_ok_of_toOption hrule]
  rfl

theorem Addition.grown (h : Addition l l') : l.Grown l' := by
  cases h with
  | category c h =>
    obtain ⟨mended, hmended, rfl⟩ | ⟨k, -, -, -, rfl⟩ := addCategory_cases h
    · refine ⟨?_, List.prefix_rfl⟩
      have hsame : Category.fixed ∘ mended = Category.fixed := funext hmended
      rw [List.map_map, hsame]
    · exact ⟨by rw [List.map_append]; exact List.prefix_append _ _, List.prefix_rfl⟩
  | rule r h =>
    obtain ⟨rule, -, -, -, rfl⟩ := addRule_cases h
    exact ⟨List.prefix_rfl, List.prefix_append _ _⟩
  | deprecated ps => exact ⟨List.prefix_rfl, List.prefix_rfl⟩

/-- Replacing remediations keeps the tables consistent. -/
theorem WellFormed.map_categories (hl : l.WellFormed) {mended : Category → Category}
    (hmended : ∀ k, (mended k).fixed = k.fixed) :
    WellFormed { l with categories := l.categories.map mended } := by
  have hname k : (mended k).name = k.name := (Category.fixed_eq_iff.1 (hmended k)).1
  have hkind k : (mended k).kind = k.kind := (Category.fixed_eq_iff.1 (hmended k)).2.1
  have hseverity k : (mended k).severity = k.severity := (Category.fixed_eq_iff.1 (hmended k)).2.2
  have hnames : names { l with categories := l.categories.map mended } = l.names := by
    simp [names, hname]
  refine ⟨hnames ▸ hl.names_nodup, ?_, ?_, hl.ids_nodup, hl.id_ne_nil, fun r hr => ?_⟩
  · rw [List.forall_mem_map]
    exact fun k hk => (hseverity k).symm ▸ hl.isKnown_severity k hk
  · rw [List.forall_mem_map]
    exact fun k hk => (hkind k).symm ▸ hl.kind_ne_nil k hk
  · rw [hnames]
    exact hl.category_mem r hr

/-- A category with a new name keeps the tables consistent. -/
theorem WellFormed.append_category (hl : l.WellFormed) {k : Category} (hname : k.name ∉ l.names)
    (hseverity : k.severity.isKnown = true) (hkind : k.kind ≠ []) :
    WellFormed { l with categories := l.categories ++ [k] } := by
  have hnames : names { l with categories := l.categories ++ [k] } = l.names ++ [k.name] := by
    simp [names]
  refine ⟨?_, ?_, ?_, hl.ids_nodup, hl.id_ne_nil, fun r hr => ?_⟩
  · rw [hnames]
    exact List.nodup_append_comm.1 (List.nodup_cons.2 ⟨hname, hl.names_nodup⟩)
  · rw [List.forall_mem_append, List.forall_mem_singleton]
    exact ⟨hl.isKnown_severity, hseverity⟩
  · rw [List.forall_mem_append, List.forall_mem_singleton]
    exact ⟨hl.kind_ne_nil, hkind⟩
  · rw [hnames]
    exact List.mem_append_left _ (hl.category_mem r hr)

/-- A rule with a new id and a category that is there keeps the tables consistent. -/
theorem WellFormed.append_rule (hl : l.WellFormed) {rule : Rule} (hcategory : rule.category ∈ l.names)
    (hne : rule.id ≠ []) (hid : ∀ known ∈ l.rules, known.id ≠ rule.id) :
    WellFormed { l with rules := l.rules ++ [rule] } := by
  have hnew : rule.id ∉ l.rules.map (·.id) := by
    rw [List.mem_map]
    rintro ⟨known, hknown, heq⟩
    exact hid known hknown heq
  refine ⟨hl.names_nodup, hl.isKnown_severity, hl.kind_ne_nil, ?_, ?_, ?_⟩
  · rw [List.map_append, List.map_singleton]
    exact List.nodup_append_comm.1 (List.nodup_cons.2 ⟨hnew, hl.ids_nodup⟩)
  · rw [List.forall_mem_append, List.forall_mem_singleton]
    exact ⟨hl.id_ne_nil, hne⟩
  · rw [List.forall_mem_append, List.forall_mem_singleton]
    exact ⟨hl.category_mem, hcategory⟩

theorem Addition.wellFormed (h : Addition l l') (hl : l.WellFormed) : l'.WellFormed := by
  cases h with
  | category c h =>
    obtain ⟨mended, hmended, rfl⟩ | ⟨k, hname, hseverity, hkind, rfl⟩ := addCategory_cases h
    · exact hl.map_categories hmended
    · exact hl.append_category hname hseverity hkind
  | rule r h =>
    obtain ⟨rule, hcategory, hne, hid, rfl⟩ := addRule_cases h
    exact hl.append_rule hcategory hne hid
  | deprecated ps =>
    exact ⟨hl.names_nodup, hl.isKnown_severity, hl.kind_ne_nil, hl.ids_nodup, hl.id_ne_nil,
      hl.category_mem⟩

/-! ## Sequences of changes -/

/-- A change that is accepted. -/
inductive Change (l l' : Library) : Prop
  | pack (p : RulePack) (h : l.extend p = .ok l')
  | deprecated (sources : List Text) (h : l.withDeprecated sources = .ok l')

/-- The built-in library and what accepted changes make of it. -/
def Reachable (l : Library) : Prop := ReflTransGen Change builtin l

/-- Where each entry is an addition, all of them together are a sequence of additions. -/
theorem additions_of_foldlM {α ε : Type} {add : Library → α → Except ε Library} {entries : List α}
    (hadd : ∀ l a l', add l a = .ok l' → Addition l l') (h : entries.foldlM add l = .ok l') :
    ReflTransGen Addition l l' := by
  induction entries generalizing l with
  | nil =>
    cases h
    exact .refl
  | cons a entries ih =>
    rw [List.foldlM_cons] at h
    cases hnext : add l a with
    | error e =>
      rw [hnext] at h
      cases h
    | ok next =>
      rw [hnext] at h
      exact .head (hadd l a next hnext) (ih h)

theorem additions_of_extend {p : RulePack} (h : l.extend p = .ok l') :
    ReflTransGen Addition l l' := by
  unfold extend at h
  cases hcategories : p.categories.foldlM addCategory l with
  | error e =>
    rw [hcategories] at h
    cases h
  | ok l₁ =>
    cases hrules : p.rules.foldlM addRule l₁ with
    | error e =>
      simp only [hcategories, bind, Except.bind, hrules] at h
      cases h
    | ok l₂ =>
      simp only [hcategories, bind, Except.bind, hrules] at h
      split at h
      · cases h
      · cases h
        have hfirst := additions_of_foldlM (fun _ c _ hc => .category c hc) hcategories
        have hsecond := additions_of_foldlM (fun _ r _ hr => .rule r hr) hrules
        exact (hfirst.trans hsecond).tail (.deprecated l₂ _)

theorem foldlM_pair {α ε : Type} {add : Library → α → Except ε Library} {l₁ l₂ : Library}
    {first second : α} (hfirst : add l first = .ok l₁) (hsecond : add l₁ second = .ok l₂) :
    [first, second].foldlM add l = .ok l₂ := by
  rw [List.foldlM_cons, hfirst]
  show [second].foldlM add l₁ = _
  rw [List.foldlM_cons, hsecond]
  rfl

theorem extend_eq_ok {l₁ l₂ : Library} {p : RulePack}
    (hcategories : p.categories.foldlM addCategory l = .ok l₁)
    (hrules : p.rules.foldlM addRule l₁ = .ok l₂) (hdeprecated : p.deprecated = []) :
    l.extend p = .ok l₂ := by
  unfold extend
  rw [hcategories, hdeprecated]
  show (p.rules.foldlM addRule l₁ >>= fun l => _) = _
  rw [hrules]
  show Except.ok { l₂ with deprecated := l₂.deprecated ++ [] } = _
  rw [List.append_nil]

theorem additions_of_withDeprecated {sources : List Text} (h : l.withDeprecated sources = .ok l') :
    ReflTransGen Addition l l' := by
  unfold withDeprecated at h
  split at h
  · cases h
    exact .refl
  · cases hcompiled : compileDeprecated sources with
    | error e =>
      rw [hcompiled] at h
      cases h
    | ok ps =>
      rw [hcompiled] at h
      cases h
      exact .single (.deprecated l ps)

theorem Change.additions (h : Change l l') : ReflTransGen Addition l l' := by
  cases h with
  | pack p h => exact additions_of_extend h
  | deprecated sources h => exact additions_of_withDeprecated h

theorem grown_of_additions (h : ReflTransGen Addition l l') : l.Grown l' := by
  induction h with
  | refl => exact .refl l
  | tail _ hlast ih => exact ih.trans hlast.grown

theorem WellFormed.of_additions (hl : l.WellFormed) (h : ReflTransGen Addition l l') :
    l'.WellFormed := by
  induction h with
  | refl => exact hl
  | tail _ hlast ih => exact hlast.wellFormed ih

theorem additions_of_changes (h : ReflTransGen Change l l') : ReflTransGen Addition l l' := by
  induction h with
  | refl => exact .refl
  | tail _ hlast ih => exact ih.trans hlast.additions

theorem wellFormed_builtin : builtin.WellFormed := by
  refine ⟨?_, ?_, ?_, ?_, ?_, ?_⟩
  · show (builtinCategories.map (·.name)).Nodup
    decide
  · show ∀ k ∈ builtinCategories, k.severity.isKnown = true
    decide
  · show ∀ k ∈ builtinCategories, k.kind ≠ []
    decide
  · have hsources : builtinRules.Pairwise fun a b => a.id ≠ b.id := by decide
    rw [List.nodup_iff_pairwise_ne, List.pairwise_map]
    show (builtinRules.filterMap fun r => r.compile.toOption).Pairwise _
    refine hsources.filterMap _ ?_
    intro a b hab r hr r' hr'
    rw [(RuleSource.of_compile hr).2.1, (RuleSource.of_compile hr').2.1]
    exact hab
  · intro r hr
    obtain ⟨source, -, hcompile⟩ := List.mem_filterMap.1 hr
    obtain ⟨hne, hid, -⟩ := RuleSource.of_compile hcompile
    rwa [hid]
  · intro r hr
    obtain ⟨source, hsource, hcompile⟩ := List.mem_filterMap.1 hr
    obtain ⟨-, -, hcategory, -⟩ := RuleSource.of_compile hcompile
    have hcategories : ∀ source ∈ builtinRules, source.category ∈ builtinCategories.map (·.name) := by
      decide
    rw [hcategory]
    exact hcategories source hsource

theorem Reachable.wellFormed (h : l.Reachable) : l.WellFormed :=
  wellFormed_builtin.of_additions (additions_of_changes h)

def corpHost : RuleSource := { id := "corp-host", category := "hostname", value := "corp" }

def hostPack : RulePack where
  categories := [{ name := "hostname", severity := "medium" },
    { name := "url", severity := "medium", remediation := "Ask the registry" }]
  rules := [corpHost]

def hostname : Category := ⟨"hostname", "custom_hostname", .medium, []⟩

/-- The built-in library with the categories of the pack. -/
def hostLibrary : Library where
  categories := (builtinCategories ++ [hostname]).map fun k =>
    if (k.name == Text.ofString "url") = true then { k with remediation := "Ask the registry" } else k
  rules := builtin.rules
  deprecated := builtin.deprecated

/-- The pack is accepted, and gives the known category its remediation. -/
theorem exists_extend_hostPack : ∃ l, builtin.extend hostPack = .ok l ∧
    l.category? "url" = some ⟨"url", "hardcoded_url", .medium, "Ask the registry"⟩ := by
  obtain ⟨rule, hrule⟩ : ∃ rule, corpHost.compile.toOption = some rule := by
    have h : corpHost.compile.toOption.isSome = true := by decide
    exact Option.isSome_iff_exists.1 h
  have hcategories : hostPack.categories.foldlM addCategory builtin = .ok hostLibrary := by
    have hadded : addCategory builtin { name := "hostname", severity := "medium" } =
        .ok { builtin with categories := builtinCategories ++ [hostname] } := rfl
    exact foldlM_pair hadded rfl
  have hrules : hostPack.rules.foldlM addRule hostLibrary =
      .ok { hostLibrary with rules := builtin.rules ++ [rule] } := by
    have hid : ∀ r ∈ hostLibrary.rules, r.id ≠ corpHost.id := by
      intro r hr
      obtain ⟨source, hsource, hcompile⟩ := List.mem_filterMap.1 hr
      have hids : ∀ source ∈ builtinRules, source.id ≠ corpHost.id := by decide
      rw [(RuleSource.of_compile hcompile).2.1]
      exact hids source hsource
    show [corpHost].foldlM addRule hostLibrary = _
    rw [List.foldlM_cons, addRule_eq_ok rfl hid hrule]
    rfl
  exact ⟨_, extend_eq_ok hcategories hrules rfl, rfl⟩

end Library

end LiteralAudit
