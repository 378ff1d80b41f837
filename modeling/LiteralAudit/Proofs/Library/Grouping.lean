import LiteralAudit.Proofs.Library.Growth
import Mathlib

/-!
# Findings as groups of matches

`Library.classify` goes through the rules once, keeps a group for each category that has fired, and puts
the groups in the order of the table of categories. The group of a category is changed by its own rules
only (`find?_joinGroup`, `find?_joinGroup_of_ne`), so that behind all rules it holds what those of them
report that fire (`find?_foldl_report`), and the findings can be read category by category
(`classify_eq`). In a library whose tables are consistent every match of every rule is in the finding of
its category and in no other (`classify_groups_matches`).
-/

namespace LiteralAudit.Library

variable {l : Library} {c : Candidate} {category : Text}

/-! ## Values listed once -/

theorem addNew_append (values more further : List Text) :
    addNew values (more ++ further) = addNew (addNew values more) further :=
  List.foldl_append

/-- Of the values that join a list, those remain that it does not hold, each once. -/
theorem addNew_eq (values more : List Text) :
    addNew values more = values ++ (more.filter (!values.contains ·)).eraseDups := by
  induction more generalizing values with
  | nil => simp [addNew]
  | cons v more ih =>
    have hstep : addNew values (v :: more) =
        addNew (if values.contains v then values else values ++ [v]) more := rfl
    rw [hstep]
    cases hv : values.contains v with
    | true => rw [if_pos rfl, ih, List.filter_cons_of_neg (by simpa using hv)]
    | false =>
      rw [if_neg Bool.false_ne_true, ih, List.filter_cons_of_pos (by simpa using hv),
        List.eraseDups_cons, List.append_assoc, List.singleton_append, List.filter_filter]
      have hsame : (fun w => !(values ++ [v]).contains w) = fun w => !w == v && !values.contains w := by
        funext w
        simp [Bool.and_comm, beq_eq_decide]
      rw [hsame]

theorem addNew_nil (values : List Text) : addNew [] values = values.eraseDups := by
  simp [addNew_eq]

/-! ## One group for each category -/

/-- The rules of a category that fire on a literal, with what each reports. -/
def firing (l : Library) (c : Candidate) (category : Text) : List (Rule × List Text) :=
  (l.rules.filter (·.category == category)).filterMap fun r =>
    match r.find c with
    | [] => none
    | values => some (r, values)

/-- The group of a category after one more of its rules has fired. -/
def Group.joined (category : Text) (g? : Option Group) (fired : Rule × List Text) : Option Group :=
  match g? with
  | none => some ⟨category, fired.1, addNew [] fired.2⟩
  | some g => some { g with values := addNew g.values fired.2 }

theorem find?_map_extend (groups : List Group) (category name : Text) (values : List Text) :
    (groups.map (·.extend category values)).find? (·.category == name) =
      (groups.find? (·.category == name)).map (·.extend category values) := by
  have hsame : ((·.category == name) ∘ fun g : Group => g.extend category values) =
      (·.category == name) := by
    funext g
    simp only [Function.comp_apply, Group.extend]
    split <;> rfl
  rw [List.find?_map, hsame]

theorem category_of_find? {groups : List Group} {g : Group}
    (h : groups.find? (·.category == category) = some g) : g.category = category := by
  have hname := List.find?_some h
  simpa using hname

/-- What a rule reports changes the group of its own category. -/
theorem find?_joinGroup (groups : List Group) (r : Rule) (values : List Text) :
    (joinGroup groups r values).find? (·.category == r.category) =
      Group.joined r.category (groups.find? (·.category == r.category)) (r, values) := by
  unfold joinGroup
  cases hg : groups.find? (·.category == r.category) with
  | none =>
    have hany : groups.any (·.category == r.category) = false := by
      simpa [List.any_eq_false] using hg
    rw [hany, if_neg Bool.false_ne_true, List.find?_append, hg]
    simp [Group.joined]
  | some g =>
    have hname : (g.category == r.category) = true := by simpa using category_of_find? hg
    have hany : groups.any (·.category == r.category) = true :=
      List.any_eq_true.2 ⟨g, List.mem_of_find?_eq_some hg, hname⟩
    rw [if_pos hany, find?_map_extend, hg, Option.map_some, Group.extend, if_pos hname]
    rfl

/-- What a rule reports leaves the groups of other categories alone. -/
theorem find?_joinGroup_of_ne {r : Rule} (h : r.category ≠ category) (groups : List Group)
    (values : List Text) :
    (joinGroup groups r values).find? (·.category == category) =
      groups.find? (·.category == category) := by
  unfold joinGroup
  split
  · rw [find?_map_extend]
    cases hg : groups.find? (·.category == category) with
    | none => rfl
    | some g =>
      have hname : g.category = category := category_of_find? hg
      rw [Option.map_some, Group.extend, if_neg (by simpa [hname] using h.symm)]
  · rw [List.find?_append, List.find?_singleton, if_neg (by simpa using h), Option.or_none]

/-- After all rules, each category has the group of its rules that fire. -/
theorem find?_foldl_report (c : Candidate) (rules : List Rule) (groups : List Group) :
    (rules.foldl (report c) groups).find? (·.category == category) =
      (firing ⟨[], rules, []⟩ c category).foldl (Group.joined category)
        (groups.find? (·.category == category)) := by
  induction rules generalizing groups with
  | nil => rfl
  | cons r rules ih =>
    rw [List.foldl_cons, ih]
    unfold firing report
    by_cases hcategory : r.category = category
    · subst hcategory
      rw [List.filter_cons_of_pos (by simp)]
      cases hfound : r.find c with
      | nil => rw [List.filterMap_cons_none (by rw [hfound])]
      | cons v values =>
        rw [List.filterMap_cons_some (by rw [hfound]), List.foldl_cons, find?_joinGroup]
    · rw [List.filter_cons_of_neg (by simpa using hcategory)]
      split
      · rfl
      · rw [find?_joinGroup_of_ne hcategory]

theorem foldl_joined_some (firing : List (Rule × List Text)) (g : Group) :
    firing.foldl (Group.joined category) (some g) =
      some { g with values := firing.foldl (fun vs f => addNew vs f.2) g.values } := by
  induction firing generalizing g with
  | nil => rfl
  | cons f firing ih => rw [List.foldl_cons, Group.joined, ih, List.foldl_cons]

/-- What the rules of one category report of a literal. -/
def finding? (l : Library) (c : Candidate) (k : Category) : Option Finding :=
  match l.firing c k.name with
  | [] => none
  | (r, values) :: rest =>
    some ⟨k, r, ((r, values) :: rest).foldl (fun vs f => addNew vs f.2) []⟩

/-- The findings are those of the categories, in the order of the table. -/
theorem classify_eq (l : Library) (c : Candidate) :
    l.classify c = l.categories.filterMap (l.finding? c) := by
  unfold classify
  dsimp only
  congr 1
  funext k
  have hgroup : (l.rules.foldl (report c) []).find? (·.category == k.name) =
      (l.firing c k.name).foldl (Group.joined k.name) none := find?_foldl_report c l.rules []
  rw [hgroup]
  unfold finding?
  cases l.firing c k.name with
  | nil => rfl
  | cons f rest =>
    rw [List.foldl_cons, Group.joined, foldl_joined_some]
    rfl

theorem category_of_finding? {k : Category} {f : Finding} (hf : l.finding? c k = some f) :
    f.category = k := by
  unfold finding? at hf
  split at hf
  · cases hf
  · cases hf
    rfl

/-! ## What a finding tells -/

/-- A rule of a category reports a value. -/
def Reports (l : Library) (c : Candidate) (category value : Text) : Prop :=
  ∃ r ∈ l.rules, r.category = category ∧ value ∈ r.find c

/-- A rule is the first of its category, in the order of the table, that reports anything. -/
def Represents (l : Library) (c : Candidate) (category : Text) (rule : Rule) : Prop :=
  ∃ before after, l.rules = before ++ rule :: after ∧ rule.category = category ∧ rule.find c ≠ [] ∧
    ∀ r ∈ before, r.category = category → r.find c = []

theorem mem_firing {f : Rule × List Text} :
    f ∈ l.firing c category ↔
      f.1 ∈ l.rules ∧ f.1.category = category ∧ f.1.find c ≠ [] ∧ f.2 = f.1.find c := by
  unfold firing
  rw [List.mem_filterMap]
  constructor
  · rintro ⟨r, hr, hf⟩
    obtain ⟨hmem, hcategory⟩ := List.mem_filter.1 hr
    split at hf
    · cases hf
    · next hne =>
      cases hf
      exact ⟨hmem, by simpa using hcategory, hne, rfl⟩
  · rintro ⟨hmem, hcategory, hne, hvalues⟩
    refine ⟨f.1, List.mem_filter.2 ⟨hmem, by simpa using hcategory⟩, ?_⟩
    split
    · next h => exact absurd h hne
    · rw [← hvalues]

/-- The first of the rules that fire represents the category. -/
theorem represents_of_firing {rule : Rule} {values : List Text} {rest : List (Rule × List Text)}
    (h : l.firing c category = (rule, values) :: rest) : l.Represents c category rule := by
  unfold firing at h
  rw [List.filterMap_filter] at h
  obtain ⟨before, r, after, hrules, hbefore, hr, -⟩ := List.filterMap_eq_cons_iff.1 h
  split at hr
  · next hcategory =>
    split at hr
    · cases hr
    · next hne =>
      cases hr
      refine ⟨before, after, hrules, by simpa using hcategory, hne, ?_⟩
      intro q hq hqcategory
      have hnone := hbefore q hq
      rw [if_pos (by simpa using hqcategory)] at hnone
      split at hnone
      · assumption
      · cases hnone
  · cases hr

theorem mem_classify_of_firing {k : Category} {rule : Rule} {values : List Text}
    {rest : List (Rule × List Text)} (hk : k ∈ l.categories)
    (hfiring : l.firing c k.name = (rule, values) :: rest) :
    ⟨k, rule, ((rule, values) :: rest).foldl (fun vs f => addNew vs f.2) []⟩ ∈ l.classify c := by
  rw [classify_eq]
  refine List.mem_filterMap.2 ⟨k, hk, ?_⟩
  rw [finding?, hfiring]

/-! ## All matches, by category -/

theorem foldl_addNew_eq (firing : List (Rule × List Text)) (values : List Text) :
    firing.foldl (fun vs f => addNew vs f.2) values = addNew values (firing.flatMap (·.2)) := by
  induction firing generalizing values with
  | nil => rfl
  | cons f firing ih => rw [List.foldl_cons, ih, List.flatMap_cons, addNew_append]

/-- A rule that does not fire reports nothing. -/
theorem flatMap_firing (l : Library) (c : Candidate) (category : Text) :
    (l.firing c category).flatMap (·.2) =
      (l.rules.filter (·.category == category)).flatMap (·.find c) := by
  unfold firing
  induction l.rules.filter (·.category == category) with
  | nil => rfl
  | cons r rules ih =>
    rw [List.flatMap_cons, ← ih]
    cases hfound : r.find c with
    | nil => rw [List.filterMap_cons_none (by rw [hfound]), List.nil_append]
    | cons v values => rw [List.filterMap_cons_some (by rw [hfound]), List.flatMap_cons]

theorem values_of_mem_classify {f : Finding} (h : f ∈ l.classify c) :
    f.values = ((l.rules.filter (·.category == f.category.name)).flatMap (·.find c)).eraseDups := by
  rw [classify_eq] at h
  obtain ⟨k, -, hf⟩ := List.mem_filterMap.1 h
  obtain rfl := category_of_finding? hf
  unfold finding? at hf
  split at hf
  · cases hf
  · next rule values rest hfiring =>
    rw [← flatMap_firing, hfiring, ← addNew_nil, ← foldl_addNew_eq]
    exact (congrArg Finding.values (Option.some.inj hf)).symm

/-- What a finding of a literal is. -/
theorem of_mem_classify {f : Finding} (h : f ∈ l.classify c) :
    f.category ∈ l.categories ∧ l.Represents c f.category.name f.rule ∧
      ∀ v, v ∈ f.values ↔ l.Reports c f.category.name v := by
  refine ⟨?_, ?_, fun v => ?_⟩
  · obtain ⟨k, hk, hf⟩ := List.mem_filterMap.1 (classify_eq l c ▸ h)
    rwa [category_of_finding? hf]
  · obtain ⟨k, -, hf⟩ := List.mem_filterMap.1 (classify_eq l c ▸ h)
    unfold finding? at hf
    split at hf
    · cases hf
    · next hfiring =>
      cases hf
      exact represents_of_firing hfiring
  · rw [values_of_mem_classify h, List.mem_eraseDups, List.mem_flatMap]
    simp [Reports, and_assoc]

theorem map_category_classify (l : Library) (c : Candidate) :
    ((l.classify c).map (·.category)).Sublist l.categories := by
  rw [classify_eq]
  induction l.categories with
  | nil => exact .slnil
  | cons k ks ih =>
    cases hf : l.finding? c k with
    | none =>
      rw [List.filterMap_cons_none hf]
      exact ih.cons k
    | some f =>
      rw [List.filterMap_cons_some hf, List.map_cons, category_of_finding? hf]
      exact ih.cons_cons k

/-! ## Literals on which hardly any rule fires -/

theorem firing_eq_nil (h : ∀ r ∈ l.rules, r.category = category → r.find c = []) :
    l.firing c category = [] := by
  refine List.eq_nil_iff_forall_not_mem.2 fun f hf => ?_
  obtain ⟨hmem, hcategory, hne, -⟩ := mem_firing.1 hf
  exact hne (h _ hmem hcategory)

theorem classify_eq_nil (h : ∀ r ∈ l.rules, r.find c = []) : l.classify c = [] := by
  rw [classify_eq, List.filterMap_eq_nil_iff]
  intro k _
  rw [finding?, firing_eq_nil fun r hr _ => h r hr]

/-- Where one rule fires and no other, the findings are those of its category. -/
theorem classify_of_one {before after : List Rule} {rule : Rule}
    (hrules : l.rules = before ++ rule :: after) (hbefore : ∀ r ∈ before, r.find c = [])
    (hafter : ∀ r ∈ after, r.find c = []) (hfound : rule.find c ≠ []) :
    l.classify c = (l.categories.filter (·.name == rule.category)).map
      fun k => ⟨k, rule, (rule.find c).eraseDups⟩ := by
  have hfiring : l.firing c rule.category = [(rule, rule.find c)] := by
    have hnone : ∀ rules : List Rule, (∀ r ∈ rules, r.find c = []) →
        firing ⟨[], rules, []⟩ c rule.category = [] := fun rules h => firing_eq_nil fun r hr _ => h r hr
    have hparts : l.firing c rule.category = firing ⟨[], before, []⟩ c rule.category ++
        ((rule, rule.find c) :: firing ⟨[], after, []⟩ c rule.category) := by
      unfold firing
      rw [hrules, List.filter_append, List.filterMap_append, List.filter_cons_of_pos (by simp),
        List.filterMap_cons_some]
      split
      · next h => exact absurd h hfound
      · rfl
    rw [hparts, hnone before hbefore, hnone after hafter]
    rfl
  rw [classify_eq, ← List.filterMap_eq_map, List.filterMap_filter]
  congr 1
  funext k
  split
  · next hk =>
    rw [finding?, beq_iff_eq.1 hk, hfiring]
    show some (Finding.mk k rule (addNew [] (rule.find c))) = _
    rw [addNew_nil]
    rfl
  · next hk =>
    have hother : l.firing c k.name = [] := by
      refine firing_eq_nil fun r hr hcategory => ?_
      rw [hrules] at hr
      obtain hr | hr := List.mem_append.1 hr
      · exact hbefore r hr
      · obtain rfl | hr := List.mem_cons.1 hr
        · exact absurd (beq_iff_eq.2 hcategory.symm) hk
        · exact hafter r hr
    rw [finding?, hother]

/-- Where every rule has its category, a category in which a rule fires has a finding. -/
theorem WellFormed.exists_finding (hl : l.WellFormed) {r : Rule} (hr : r ∈ l.rules)
    (hfound : r.find c ≠ []) : ∃ f ∈ l.classify c, f.category.name = r.category := by
  obtain ⟨k, hk, hname⟩ := List.mem_map.1 (hl.category_mem r hr)
  have hmem : (r, r.find c) ∈ l.firing c k.name := mem_firing.2 ⟨hr, hname.symm, hfound, rfl⟩
  cases hfiring : l.firing c k.name with
  | nil =>
    rw [hfiring] at hmem
    cases hmem
  | cons fired rest => exact ⟨_, mem_classify_of_firing hk hfiring, hname⟩

/-- In every library that accepted changes make of the built-in one, a literal is classified as the
grouping of all matches of the rules. There is one finding for each category of which a rule fires, in
the order of the table; the first rule that fires represents it, and its values are those of all rules
of the category, one rule after the other and each value once. So a value is in the finding of a category
exactly when a rule of the category reports it. -/
theorem classify_groups_matches (h : l.Reachable) (c : Candidate) :
    ((l.classify c).map (·.category)).Sublist l.categories ∧
    ((l.classify c).map (·.category.name)).Nodup ∧
    (∀ name, (∃ f ∈ l.classify c, f.category.name = name) ↔
      ∃ r ∈ l.rules, r.category = name ∧ r.find c ≠ []) ∧
    (∀ f ∈ l.classify c, l.Represents c f.category.name f.rule ∧
      f.values = ((l.rules.filter (·.category == f.category.name)).flatMap (·.find c)).eraseDups) ∧
    ∀ name v, (∃ f ∈ l.classify c, f.category.name = name ∧ v ∈ f.values) ↔ l.Reports c name v := by
  have hpresent : ∀ r ∈ l.rules, r.find c ≠ [] → ∃ f ∈ l.classify c, f.category.name = r.category :=
    fun r hr hfound => h.wellFormed.exists_finding hr hfound
  have hsublist : ((l.classify c).map (·.category)).Sublist l.categories := map_category_classify l c
  refine ⟨hsublist, ?_, ?_, ?_, ?_⟩
  · have hnames : ((l.classify c).map (·.category.name)).Sublist l.names := by
      have hmap := hsublist.map (·.name)
      rwa [List.map_map] at hmap
    exact hnames.nodup h.wellFormed.names_nodup
  · intro name
    constructor
    · rintro ⟨f, hf, rfl⟩
      obtain ⟨-, ⟨before, after, hrules, hcategory, hfound, -⟩, -⟩ := of_mem_classify hf
      exact ⟨f.rule, hrules ▸ List.mem_append_right _ (List.mem_cons_self ..), hcategory, hfound⟩
    · rintro ⟨r, hr, rfl, hfound⟩
      exact hpresent r hr hfound
  · intro f hf
    exact ⟨(of_mem_classify hf).2.1, values_of_mem_classify hf⟩
  · intro name v
    constructor
    · rintro ⟨f, hf, rfl, hv⟩
      exact ((of_mem_classify hf).2.2 v).1 hv
    · rintro ⟨r, hr, rfl, hv⟩
      obtain ⟨f, hf, hname⟩ := hpresent r hr (List.ne_nil_of_mem hv)
      exact ⟨f, hf, hname, ((of_mem_classify hf).2.2 v).2 ⟨r, hr, hname.symm, hv⟩⟩

/-- A rule for hosts of one network, which a pack puts among the rules for URLs. -/
def corpUrl : RuleSource := { corpHost with category := "url" }

theorem find_corpUrl :
    corpUrl.compile.toOption.map (·.find { value := "git.corp" }) = some [Text.ofString "corp"] := by
  decide

/-- What the rule of a pack reports is found in its category. -/
theorem corp_url_classified : ∃ l, builtin.extend { rules := [corpUrl] } = .ok l ∧
    ∃ f ∈ l.classify { value := "git.corp" }, f.category.name = "url" ∧
      Text.ofString "corp" ∈ f.values := by
  obtain ⟨rule, hrule, hfound⟩ := Option.map_eq_some_iff.1 find_corpUrl
  have hids : ∀ r ∈ builtin.rules, r.id ≠ corpUrl.id := by
    intro r hr
    obtain ⟨known, hknown, hcompile⟩ := List.mem_filterMap.1 hr
    rw [(RuleSource.of_compile hcompile).2.1]
    have hknownIds : ∀ known ∈ builtinRules, known.id ≠ corpUrl.id := by decide
    exact hknownIds known hknown
  have hextend : builtin.extend { rules := [corpUrl] } =
      .ok { builtin with rules := builtin.rules ++ [rule] } := by
    refine extend_eq_ok rfl ?_ rfl
    show [corpUrl].foldlM addRule builtin = _
    rw [List.foldlM_cons, addRule_eq_ok rfl hids hrule]
    rfl
  refine ⟨_, hextend, ?_⟩
  obtain ⟨-, -, -, -, hvalues⟩ :=
    classify_groups_matches (.single (.pack _ hextend)) { value := "git.corp" }
  refine (hvalues "url" "corp").2 ⟨rule, ?_, (RuleSource.of_compile hrule).2.2.1, ?_⟩
  · exact List.mem_append_right _ (List.mem_singleton_self rule)
  · rw [hfound]
    exact List.mem_singleton_self _

end LiteralAudit.Library
