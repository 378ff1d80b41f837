import LiteralAudit.Proofs.Visit.MoreRules

/-!
# A wider whitelist only filters

Entries of a whitelist act on a whole file, on a whole literal or on one value of some category, and an
issue stays as long as one of its values does. Each of these only allows more when the whitelist has more
entries (`Whitelist.Within.allows`, `Whitelist.Within.isTestFile`). So what is left of a file under a
wider whitelist is a subsequence of what was found, and each issue that is left shows some of its values
(`Visit.fewer_issues_under_wider_whitelist`).
-/

namespace LiteralAudit

open scoped List

/-! ## Wider whitelists -/

/-- Every list of a configuration is contained in the same list of the other. -/
structure WhitelistConfig.Within (c c' : WhitelistConfig) : Prop where
  ports : c.ports ⊆ c'.ports
  paths : c.paths ⊆ c'.paths
  strings : c.strings ⊆ c'.strings
  versions : c.versions ⊆ c'.versions
  testIndicators : c.testIndicators ⊆ c'.testIndicators

theorem mem_iff_of_mapM {ε α β : Type} {f : α → Except ε β} {xs : List α} {ys : List β}
    (h : xs.mapM f = .ok ys) (y : β) : y ∈ ys ↔ ∃ x ∈ xs, f x = .ok y := by
  induction xs generalizing ys with
  | nil =>
    cases h
    simp
  | cons x xs ih =>
    rw [List.mapM_cons] at h
    cases hx : f x with
    | error e =>
      rw [hx] at h
      cases h
    | ok b =>
      cases hxs : xs.mapM f with
      | error e =>
        rw [hx, hxs] at h
        cases h
      | ok bs =>
        rw [hx, hxs] at h
        cases h
        rw [List.mem_cons, List.exists_mem_cons_iff, ih hxs, hx, Except.ok.injEq, eq_comm]

theorem any_of_subset {α : Type} {p : α → Bool} {xs ys : List α} (h : xs ⊆ ys)
    (hxs : xs.any p = true) : ys.any p = true := by
  obtain ⟨x, hx, hp⟩ := List.any_eq_true.1 hxs
  exact List.any_eq_true.2 ⟨x, h hx, hp⟩

namespace Whitelist

/-- Every list of a whitelist is contained in the same list of the other. -/
structure Within (w w' : Whitelist) : Prop where
  ports : w.ports ⊆ w'.ports
  paths : w.paths ⊆ w'.paths
  strings : w.strings ⊆ w'.strings
  versions : w.versions ⊆ w'.versions
  testIndicators : w.testIndicators ⊆ w'.testIndicators

/-- An accepted configuration is taken as it is, its version patterns compiled. -/
theorem of_ofConfig_eq_ok {c : WhitelistConfig} {w : Whitelist} (h : ofConfig c = .ok w) :
    w.ports = c.ports ∧ w.paths = c.paths ∧ w.strings = c.strings ∧
      w.testIndicators = c.testIndicators ∧
      ∀ p, p ∈ w.versions ↔ ∃ s ∈ c.versions, Pattern.compile s = .ok p := by
  unfold ofConfig at h
  simp only [bind, Except.bind, pure, Except.pure, throw, throwThe, MonadExceptOf.throw] at h
  split at h
  · cases h
  · split at h
    · cases h
    · split at h
      · cases h
      · next versions hversions =>
        split at h
        · cases h
        · cases h
          refine ⟨rfl, rfl, rfl, rfl, fun p => ?_⟩
          rw [mem_iff_of_mapM hversions]
          refine exists_congr fun s => and_congr_right fun _ => ?_
          cases Pattern.compile s <;> simp

theorem within_of_ofConfig {c c' : WhitelistConfig} {w w' : Whitelist} (hw : ofConfig c = .ok w)
    (hw' : ofConfig c' = .ok w') (h : c.Within c') : w.Within w' := by
  obtain ⟨hports, hpaths, hstrings, hindicators, hversions⟩ := of_ofConfig_eq_ok hw
  obtain ⟨hports', hpaths', hstrings', hindicators', hversions'⟩ := of_ofConfig_eq_ok hw'
  refine ⟨?_, ?_, ?_, ?_, ?_⟩
  · exact hports ▸ hports' ▸ h.ports
  · exact hpaths ▸ hpaths' ▸ h.paths
  · exact hstrings ▸ hstrings' ▸ h.strings
  · intro p hp
    obtain ⟨s, hs, hcompile⟩ := (hversions p).1 hp
    exact (hversions' p).2 ⟨s, h.versions hs, hcompile⟩
  · exact hindicators ▸ hindicators' ▸ h.testIndicators

namespace Within

variable {w w' : Whitelist}

/-- What is acceptable stays so. -/
theorem allows (h : w.Within w') {category found literal : Text}
    (hw : w.allows category found literal = true) : w'.allows category found literal = true := by
  have hstrings : ∀ t, w.strings.contains t = true → w'.strings.contains t = true := by
    intro t ht
    rw [List.contains_iff_mem] at ht ⊢
    exact h.strings ht
  unfold Whitelist.allows at hw ⊢
  rw [Bool.or_eq_true, Bool.or_eq_true] at hw ⊢
  refine hw.imp (Or.imp (hstrings found) (hstrings literal)) ?_
  intro hcategory
  split_ifs at hcategory ⊢
  · exact any_of_subset h.versions hcategory
  · rw [Option.any_eq_true] at hcategory ⊢
    obtain ⟨n, hn, hport⟩ := hcategory
    exact ⟨n, hn, List.contains_iff_mem.2 (h.ports (List.contains_iff_mem.1 hport))⟩
  · exact any_of_subset h.paths hcategory

theorem isTestFile (h : w.Within w') {path : Text} (hw : w.isTestFile path = true) :
    w'.isTestFile path = true := by
  exact any_of_subset h.testIndicators hw

end Within

end Whitelist

/-! ## What is left of the issues -/

namespace Visit

variable {l : Library} {w? w'? : Option Whitelist} {path source : Text}

/-- All of an issue but its file and description. -/
def told (i : Issue) : Int × Text × Severity × Text × Text :=
  (i.line, i.kind, i.severity, i.pattern, i.fix)

/-- What is left of an issue under another whitelist: the issue of an unreadable file as it is, and of a
literal the issue that shows some of the values. -/
inductive LeftOf (l : Library) (w? w'? : Option Whitelist) (path source : Text) :
    Issue → Issue → Prop
  | unreadable {e : ParseError} (h : extract path source = .error e) :
      LeftOf l w? w'? path source (parseIssue l path e) (parseIssue l path e)
  | fewer {lits : List Literal} {lit : Literal} {f : Library.Finding}
      (hlits : extract path source = .ok lits) (hlit : lit ∈ lits)
      (hf : f ∈ l.classify (candidate lit)) (hvalues : kept w'? lit f <+ kept w? lit f) :
      LeftOf l w? w'? path source (issueOf w'? path lit f) (issueOf w? path lit f)

theorem LeftOf.told_eq {i' i : Issue} (h : LeftOf l w? w'? path source i' i) : told i' = told i := by
  cases h with
  | unreadable _ => rfl
  | fewer _ _ _ _ => rfl

/-- What a whitelist answers, a wider one answers, too. -/
theorem any_of_within {asks : Whitelist → Bool}
    (hasks : ∀ w w' : Whitelist, w.Within w' → asks w = true → asks w' = true)
    (h : ∀ w ∈ w?, ∃ w' ∈ w'?, w.Within w') (hw : w?.any asks = true) : w'?.any asks = true := by
  rw [Option.any_eq_true] at hw ⊢
  obtain ⟨w, hw, hasked⟩ := hw
  obtain ⟨w', hw', hwithin⟩ := h w hw
  exact ⟨w', hw', hasks w w' hwithin hasked⟩

theorem kept_sublist (h : ∀ w ∈ w?, ∃ w' ∈ w'?, w.Within w') (lit : Literal) (f : Library.Finding) :
    kept w'? lit f <+ kept w? lit f := by
  refine List.monotone_filter_right f.values ?_
  intro v hv
  rw [Bool.not_eq_true'] at hv ⊢
  rw [Bool.eq_false_iff] at hv ⊢
  exact fun hallowed => hv (any_of_within (fun _ _ hwithin => hwithin.allows) h hallowed)

theorem leftOf_literalIssues (h : ∀ w ∈ w?, ∃ w' ∈ w'?, w.Within w') {lits : List Literal}
    {lit : Literal} (hlits : extract path source = .ok lits) (hlit : lit ∈ lits) :
    List.SublistForall₂ (LeftOf l w? w'? path source) (literalIssues l w'? path lit)
      (literalIssues l w? path lit) := by
  have hsame : List.SublistForall₂ (fun f' f => f' = f ∧ f ∈ l.classify (candidate lit))
      (l.classify (candidate lit)) (l.classify (candidate lit)) :=
    List.sublistForall₂_iff.2 ⟨_, List.forall₂_same.2 fun f hf => ⟨rfl, hf⟩, List.Sublist.refl _⟩
  rw [literalIssues_eq, literalIssues_eq]
  refine sublistForall₂_filterMap hsame ?_
  rintro f _ ⟨rfl, hf⟩ i' hi'
  obtain ⟨hne, rfl⟩ := issue?_eq_some_iff.1 hi'
  have hvalues := kept_sublist h lit f
  have hne' : kept w? lit f ≠ [] := by
    intro hnil
    exact hne (List.sublist_nil.1 (hnil ▸ hvalues))
  exact ⟨_, issue?_eq_some_iff.2 ⟨hne', rfl⟩, .fewer hlits hlit hf hvalues⟩

/-- Under a wider whitelist, a file has a subsequence of its issues, each with some of its values. -/
theorem leftOf_issues (h : ∀ w ∈ w?, ∃ w' ∈ w'?, w.Within w') (l : Library) (path source : Text) :
    List.SublistForall₂ (LeftOf l w? w'? path source) (issues l w'? path source)
      (issues l w? path source) := by
  by_cases htest' : (w'?.any (·.isTestFile path)) = true
  · rw [issues, if_pos htest']
    exact .nil
  · have htest : ¬ (w?.any (·.isTestFile path)) = true := fun htest =>
      htest' (any_of_within (fun _ _ hwithin => hwithin.isTestFile) h htest)
    rw [issues, issues, if_neg htest', if_neg htest]
    cases hextract : extract path source with
    | error e => exact .cons (.unreadable hextract) .nil
    | ok lits =>
      refine sublistForall₂_flatMap fun lit hlit => ?_
      exact leftOf_literalIssues h hextract hlit

/-- Where every list of one configuration is contained in the same list of the other, and no whitelist
counts as the least, the wider one only filters. What is left of the issues of a file is a subsequence,
in which no issue is new and each one shows some of the values that it showed. -/
theorem fewer_issues_under_wider_whitelist {c? c'? : Option WhitelistConfig}
    {w? w'? : Option Whitelist} (hw : Option.Rel (fun c w => Whitelist.ofConfig c = .ok w) c? w?)
    (hw' : Option.Rel (fun c w => Whitelist.ofConfig c = .ok w) c'? w'?)
    (hc : ∀ c ∈ c?, ∃ c' ∈ c'?, c.Within c') (l : Library) (path source : Text) :
    (issues l w'? path source).map told <+ (issues l w? path source).map told ∧
    List.SublistForall₂ (LeftOf l w? w'? path source) (issues l w'? path source)
      (issues l w? path source) := by
  have h : ∀ w ∈ w?, ∃ w' ∈ w'?, w.Within w' := by
    intro w hmem
    cases hw with
    | none => cases hmem
    | some hc₁ =>
      cases hmem
      obtain ⟨c', hmem', hwithin⟩ := hc _ rfl
      cases hw' with
      | none => cases hmem'
      | some hc₁' =>
        cases hmem'
        exact ⟨_, rfl, Whitelist.within_of_ofConfig hc₁ hc₁' hwithin⟩
  have hleft := leftOf_issues h l path source
  exact ⟨sublist_map_of_sublistForall₂ hleft fun _ _ hleft => hleft.told_eq, hleft⟩

def narrow : WhitelistConfig := { ports := [80], strings := ["localhost"] }

def wide : WhitelistConfig :=
  { ports := [443, 80], paths := ["/tmp"], strings := ["admin", "localhost"],
    testIndicators := ["/tests/"] }

/-- With more ports, paths and strings, and with files that count as tests, less is left. -/
theorem fewer_issues_under_wide : ∃ w w', Whitelist.ofConfig narrow = .ok w ∧
    Whitelist.ofConfig wide = .ok w' ∧ narrow.Within wide ∧
    ∀ source, (issues Library.builtin (some w') "src/a.py" source).map told <+
      (issues Library.builtin (some w) "src/a.py" source).map told := by
  obtain ⟨w, hw⟩ : ∃ w, Whitelist.ofConfig narrow = .ok w := ⟨_, rfl⟩
  obtain ⟨w', hw'⟩ : ∃ w', Whitelist.ofConfig wide = .ok w' := ⟨_, rfl⟩
  have hwithin : narrow.Within wide := by
    refine ⟨?_, ?_, ?_, ?_, ?_⟩ <;> decide
  have hsome : Option.Rel (fun c w => Whitelist.ofConfig c = .ok w) (some narrow) (some w) := .some hw
  have hsome' : Option.Rel (fun c w => Whitelist.ofConfig c = .ok w) (some wide) (some w') := .some hw'
  have hmore : ∀ c ∈ some narrow, ∃ c' ∈ some wide, c.Within c' := by
    rintro c ⟨⟩
    exact ⟨wide, rfl, hwithin⟩
  refine ⟨w, w', hw, hw', hwithin, fun source => ?_⟩
  exact (fewer_issues_under_wider_whitelist hsome hsome' hmore Library.builtin "src/a.py" source).1

end Visit

end LiteralAudit
