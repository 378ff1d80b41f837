import LiteralAudit.Policy
import LiteralAudit.Proofs.Path.Clean

/-!
# The nearest policy

A search for a policy goes from a directory to its parent, again and again, until a policy file is there or
the directory is its own parent (`Policy.Search`). From an absolute path it always ends, at the root at the
latest (`Path.exists_iterate_parent`), and what it ends with is the policy file of the first directory that
has one (`Policy.Search.eq_some_iff`). `Policy.find` goes through the names of the path instead, and finds the
same (`Policy.search_find`).
-/

namespace LiteralAudit

namespace Path

/-! ## From a directory to the root -/

theorem parent_root : parent "/" = "/" := by decide

theorem Normal.take {rooted : Bool} {ks : List Text} (h : Normal rooted ks) (n : Nat) :
    Normal rooted (ks.take n) := by
  induction ks using List.reverseRecOn with
  | nil => simpa using h
  | append_singleton ks k ih =>
    obtain hle | hlt := Nat.lt_or_ge ks.length n
    · rwa [List.take_of_length_le (by simpa using hle)]
    · rw [List.take_append_of_le_length hlt]
      exact ih (by simpa using h.dropLast)

/-- The directories above an absolute path are spelled from the first of its names. -/
theorem iterate_parent_spell {ks : List Text} (h : Normal true ks) (k : Nat) :
    parent^[k] (spell true ks) = spell true (ks.take (ks.length - k)) := by
  induction k with
  | zero => simp
  | succ k ih =>
    rw [Function.iterate_succ_apply', ih]
    -- The root is its own parent; from any other directory, the last name is taken away.
    obtain hzero | ⟨n, hn⟩ : ks.length - k = 0 ∨ ∃ n, ks.length - k = n + 1 :=
      Nat.eq_zero_or_eq_succ_pred _ |>.imp id fun h => ⟨_, h⟩
    · rw [hzero, show ks.length - (k + 1) = 0 by omega, List.take_zero]
      exact parent_root
    · have hlt : n < ks.length := by omega
      rw [hn, show ks.length - (k + 1) = n by omega, List.take_succ_eq_append_getElem hlt]
      exact parent_spell (h.take n) (h.isPart _ (List.getElem_mem hlt))

/-- From an absolute path, the way up ends at the root, and no directory on it is its own parent before. -/
theorem exists_iterate_parent {ks : List Text} (h : Normal true ks) :
    ∃ n, parent^[n] (spell true ks) = "/" ∧
      ∀ k < n, parent (parent^[k] (spell true ks)) ≠ parent^[k] (spell true ks) := by
  refine ⟨ks.length, ?_, fun k hk heq => ?_⟩
  · rw [iterate_parent_spell h, Nat.sub_self, List.take_zero]
    rfl
  · rw [← Function.iterate_succ_apply' parent, iterate_parent_spell h, iterate_parent_spell h] at heq
    have hlength := congrArg List.length (spell_injective (h.take _) (h.take _) heq)
    rw [List.length_take, List.length_take] at hlength
    omega

end Path

namespace Disk

/-- An absolute path of a directory is spelled from names. -/
theorem exists_absolute_eq_spell {d : Disk} (hcwd : Path.isAbsolute d.cwd = true) (dir : Text) :
    ∃ ks, Path.Normal true ks ∧ d.absolute dir = Path.spell true ks := by
  obtain ⟨p, hp, hclean⟩ : ∃ p, Path.isAbsolute p = true ∧ d.absolute dir = Path.clean p := by
    unfold absolute
    split_ifs with hdir
    · exact ⟨dir, hdir, rfl⟩
    · have hne : d.cwd ≠ [] := by
        intro hnil
        rw [hnil] at hcwd
        cases hcwd
      have hfilter : [d.cwd, dir].filter (!·.isEmpty) = d.cwd :: [dir].filter (!·.isEmpty) :=
        List.filter_cons_of_pos (by simpa using hne)
      refine ⟨Text.join "/" (d.cwd :: [dir].filter (!·.isEmpty)), ?_, ?_⟩
      · rw [Text.join, Path.isAbsolute_append hne, hcwd]
      · rw [Path.join, hfilter]
        rfl
  rw [hclean, Path.clean_eq, hp]
  exact ⟨_, hp ▸ Path.normal_kept p, rfl⟩

end Disk

namespace Policy

/-! ## One directory -/

/-- A file is the policy of a directory: `.yaml` is preferred to `.yml`. -/
def IsPolicyOf (d : Disk) (dir path : Text) : Prop :=
  path = Path.join [dir, ".codespectre-policy.yaml"] ∧ d.present path = true ∨
    path = Path.join [dir, ".codespectre-policy.yml"] ∧ d.present path = true ∧
      d.present (Path.join [dir, ".codespectre-policy.yaml"]) = false

/-- A directory has one of the files. -/
def HasPolicy (d : Disk) (dir : Text) : Prop :=
  d.present (Path.join [dir, ".codespectre-policy.yaml"]) = true ∨
    d.present (Path.join [dir, ".codespectre-policy.yml"]) = true

/-- The policy file in a directory. -/
def policyIn? (d : Disk) (dir : Text) : Option Text :=
  (fileNames.map fun f => Path.join [dir, f]).find? d.present

section One

variable {d : Disk} {dir path path' : Text}

theorem policyIn?_eq (d : Disk) (dir : Text) : policyIn? d dir =
    if d.present (Path.join [dir, ".codespectre-policy.yaml"]) then
      some (Path.join [dir, ".codespectre-policy.yaml"])
    else if d.present (Path.join [dir, ".codespectre-policy.yml"]) then
      some (Path.join [dir, ".codespectre-policy.yml"])
    else none := by
  simp only [policyIn?, fileNames, List.map_cons, List.map_nil, List.find?_cons, List.find?_nil]
  cases d.present (Path.join [dir, ".codespectre-policy.yaml"]) <;>
    cases d.present (Path.join [dir, ".codespectre-policy.yml"]) <;> rfl

theorem isPolicyOf_of_policyIn? (h : policyIn? d dir = some path) : IsPolicyOf d dir path := by
  rw [policyIn?_eq] at h
  split_ifs at h with hyaml hyml
  · obtain rfl := Option.some.inj h
    exact .inl ⟨rfl, hyaml⟩
  · obtain rfl := Option.some.inj h
    exact .inr ⟨rfl, hyml, Bool.eq_false_iff.2 hyaml⟩

theorem not_hasPolicy_of_policyIn? (h : policyIn? d dir = none) : ¬ HasPolicy d dir := by
  rw [policyIn?_eq] at h
  split_ifs at h with hyaml hyml
  exact not_or.2 ⟨hyaml, hyml⟩

theorem IsPolicyOf.hasPolicy (h : IsPolicyOf d dir path) : HasPolicy d dir := by
  obtain ⟨rfl, h⟩ | ⟨rfl, h, -⟩ := h
  · exact .inl h
  · exact .inr h

theorem IsPolicyOf.unique (h : IsPolicyOf d dir path) (h' : IsPolicyOf d dir path') : path = path' := by
  obtain ⟨rfl, hyaml⟩ | ⟨rfl, -, hyaml⟩ := h <;> obtain ⟨rfl, hyaml'⟩ | ⟨rfl, -, hyaml'⟩ := h'
  · rfl
  · rw [hyaml] at hyaml'
    cases hyaml'
  · rw [hyaml] at hyaml'
    cases hyaml'
  · rfl

theorem IsPolicyOf.ne_nil (h : IsPolicyOf d dir path) : path ≠ [] := by
  have hjoin (name : Text) (hname : Path.Plain name) : Path.join [dir, name] ≠ [] := by
    rw [Path.join_eq_spell dir hname]
    exact Path.spell_ne_nil ((Path.normal_kept dir).concat hname)
  obtain ⟨rfl, -⟩ | ⟨rfl, -⟩ := h
  · exact hjoin _ (by decide)
  · exact hjoin _ (by decide)

end One

/-! ## The search -/

/-- A search from a directory up ends with a policy file, or with none at a directory that is its own
parent. -/
inductive Search (d : Disk) : Text → Option Text → Prop
  | found {dir path : Text} : IsPolicyOf d dir path → Search d dir (some path)
  | root {dir : Text} : ¬ HasPolicy d dir → Path.parent dir = dir → Search d dir none
  | up {dir : Text} {result : Option Text} : ¬ HasPolicy d dir → Path.parent dir ≠ dir →
      Search d (Path.parent dir) result → Search d dir result

namespace Search

variable {d : Disk} {dir path : Text}

/-- What a search ends with is the policy of the first directory that has one. -/
theorem nearest (h : Search d dir (some path)) :
    ∃ k, IsPolicyOf d (Path.parent^[k] dir) path ∧ ∀ j < k, ¬ HasPolicy d (Path.parent^[j] dir) := by
  generalize hresult : some path = result at h
  induction h with
  | found hpolicy =>
    obtain rfl := Option.some.inj hresult
    exact ⟨0, hpolicy, fun j hj => absurd hj (Nat.not_lt_zero j)⟩
  | root => cases hresult
  | up hnone _ _ ih =>
    obtain ⟨k, hpolicy, hbefore⟩ := ih hresult
    refine ⟨k + 1, hpolicy, fun j hj => ?_⟩
    cases j with
    | zero => exact hnone
    | succ j => exact hbefore j (Nat.lt_of_succ_lt_succ hj)

/-- A search without result has passed all directories. -/
theorem not_hasPolicy (h : Search d dir none) (k : Nat) : ¬ HasPolicy d (Path.parent^[k] dir) := by
  generalize hresult : none = result at h
  induction h generalizing k with
  | found => cases hresult
  | root hnone hroot => rwa [Function.iterate_fixed hroot]
  | up hnone _ _ ih =>
    cases k with
    | zero => exact hnone
    | succ k => exact ih k hresult

/-- A search ends with the policy of the first directory that has one. -/
theorem eq_some_iff {result : Option Text} (h : Search d dir result) : result = some path ↔
    ∃ k, IsPolicyOf d (Path.parent^[k] dir) path ∧ ∀ j < k, ¬ HasPolicy d (Path.parent^[j] dir) := by
  refine ⟨fun heq => (heq ▸ h).nearest, ?_⟩
  rintro ⟨k, hpolicy, hbefore⟩
  cases result with
  | none => exact absurd hpolicy.hasPolicy (h.not_hasPolicy k)
  | some path' =>
    obtain ⟨k', hpolicy', hbefore'⟩ := h.nearest
    obtain hlt | rfl | hlt := Nat.lt_trichotomy k k'
    · exact absurd hpolicy.hasPolicy (hbefore' k hlt)
    · rw [hpolicy.unique hpolicy']
    · exact absurd hpolicy'.hasPolicy (hbefore k' hlt)

theorem eq_none_iff {result : Option Text} (h : Search d dir result) :
    result = none ↔ ∀ k, ¬ HasPolicy d (Path.parent^[k] dir) := by
  refine ⟨fun heq => (heq ▸ h).not_hasPolicy, fun hnone => ?_⟩
  cases result with
  | none => rfl
  | some path =>
    obtain ⟨k, hpolicy, -⟩ := h.nearest
    exact absurd hpolicy.hasPolicy (hnone k)

theorem ne_nil {result : Option Text} (h : Search d dir result) : result ≠ some [] := by
  intro heq
  obtain ⟨k, hpolicy, -⟩ := h.eq_some_iff.1 heq
  exact hpolicy.ne_nil rfl

end Search

/-- The files are looked for in the directories on the way up. -/
theorem search_find (d : Disk) {ks : List Text} (h : Path.Normal true ks) :
    Search d (Path.spell true ks) (findFrom d ks.reverse) := by
  have hhere (ks : List Text) : findFrom.here d ks.reverse = policyIn? d (Path.spell true ks) := by
    rw [findFrom.here, List.reverse_reverse]
    rfl
  -- By induction on the names: without the last one, they are those of the parent.
  induction ks using List.reverseRecOn with
  | nil =>
    show Search d _ (findFrom.here d [])
    rw [show findFrom.here d [] = _ from hhere []]
    cases hin : policyIn? d (Path.spell true []) with
    | some path => exact .found (isPolicyOf_of_policyIn? hin)
    | none => exact .root (not_hasPolicy_of_policyIn? hin) Path.parent_root
  | append_singleton ks name ih =>
    have hks : Path.Normal true ks := by simpa using h.dropLast
    have hparent := Path.parent_spell hks (h.isPart name (by simp))
    have hfrom : findFrom d (ks ++ [name]).reverse =
        (policyIn? d (Path.spell true (ks ++ [name]))).or (findFrom d ks.reverse) := by
      rw [← hhere, List.reverse_concat]
      rfl
    rw [hfrom]
    cases hin : policyIn? d (Path.spell true (ks ++ [name])) with
    | some path => exact .found (isPolicyOf_of_policyIn? hin)
    | none =>
      refine .up (not_hasPolicy_of_policyIn? hin) ?_ ?_
      · rw [hparent]
        intro heq
        have hlength := congrArg List.length (Path.spell_injective hks h heq)
        simp at hlength
      · rw [hparent]
        exact ih hks

/-- The nearest policy wins: from the cleaned absolute path of a directory, the search goes up to the root,
and what is found is the policy file of the first directory on the way that has one. Nothing is found exactly
when none of them has one. -/
theorem find_nearest {d : Disk} (hcwd : Path.isAbsolute d.cwd = true) (dir : Text) :
    (Path.isAbsolute (d.absolute dir) = true ∧ Path.clean (d.absolute dir) = d.absolute dir) ∧
    (∃ n, Path.parent^[n] (d.absolute dir) = "/" ∧ Path.parent "/" = "/" ∧
      ∀ k < n, Path.parent (Path.parent^[k] (d.absolute dir)) ≠ Path.parent^[k] (d.absolute dir)) ∧
    Search d (d.absolute dir) (find d dir) ∧
    (∀ path, find d dir = some path ↔ ∃ k, IsPolicyOf d (Path.parent^[k] (d.absolute dir)) path ∧
      ∀ j < k, ¬ HasPolicy d (Path.parent^[j] (d.absolute dir))) ∧
    (find d dir = none ↔ ∀ k, ¬ HasPolicy d (Path.parent^[k] (d.absolute dir))) ∧
    find d dir ≠ some [] := by
  obtain ⟨ks, hks, habsolute⟩ := Disk.exists_absolute_eq_spell hcwd dir
  have hsearch : Search d (d.absolute dir) (find d dir) := by
    rw [find, habsolute, Path.parts_spell hks]
    exact search_find d hks
  refine ⟨?_, ?_, hsearch, fun _ => hsearch.eq_some_iff, hsearch.eq_none_iff, hsearch.ne_nil⟩
  · rw [habsolute, Path.isAbsolute_spell hks, Path.clean_spell hks]
    exact ⟨rfl, rfl⟩
  · obtain ⟨n, hroot, hbefore⟩ := Path.exists_iterate_parent hks
    rw [habsolute]
    exact ⟨n, hroot, Path.parent_root, hbefore⟩

/-- A tree with policy files in the working directory and above it. -/
def nestedPolicies : Disk where
  root := .dir [(".codespectre-policy.yml", .file ""),
    ("w", .dir [(".codespectre-policy.yaml", .file ""), (".codespectre-policy.yml", .file ""),
      ("a", .dir [("b", .dir [])])])]
  cwd := "/w"

theorem find_nestedPolicies : find nestedPolicies "a/./b" = some "/w/.codespectre-policy.yaml" := by
  obtain ⟨-, -, -, hfind, -, -⟩ := find_nearest (d := nestedPolicies) (by decide) "a/./b"
  refine (hfind _).2 ⟨2, .inl ⟨by decide, by cbv⟩, fun j hj => ?_⟩
  interval_cases j
  · exact not_or.2 ⟨Bool.eq_false_iff.1 (by cbv), Bool.eq_false_iff.1 (by cbv)⟩
  · exact not_or.2 ⟨Bool.eq_false_iff.1 (by cbv), Bool.eq_false_iff.1 (by cbv)⟩

end Policy

end LiteralAudit
