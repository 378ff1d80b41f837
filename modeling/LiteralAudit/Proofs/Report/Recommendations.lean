import LiteralAudit.Format.Course
import LiteralAudit.Proofs.Browser.Order
import LiteralAudit.Proofs.Report.Diff
import LiteralAudit.Proofs.Report.Score

/-!
# Recommendations account for the issues

Recommendations are made for the **groups** of a report: the issues of one kind and severity. Among the
known levels no two groups have the same key (`Recommendation.groupKey_eq_iff`), so that whoever goes
through the groups, in whatever order, comes to the same recommendations (`Recommendation.groups_perm`).
The order in which they are shown leaves nothing open: `Recommendation.eq_of_mutual_le`.

The counts of the groups add up to the number of issues, and with the weights of their levels to the points
that make the score and that its explanation shows (`Recommendation.Accounts`).
-/

namespace LiteralAudit

/-! ## Names without repetitions -/

namespace Report

/-- The names seen first, behind those that were seen before. -/
theorem seen_spec (names seen : List Text) (h : seen.Nodup) :
    let all := names.foldl (fun seen n => if seen.contains n then seen else n :: seen) seen
    all.Nodup ∧ ∀ n, n ∈ all ↔ n ∈ seen ∨ n ∈ names := by
  induction names generalizing seen with
  | nil => exact ⟨h, fun n => by simp⟩
  | cons name names ih =>
    rw [List.foldl_cons]
    by_cases hseen : name ∈ seen
    · rw [if_pos (List.contains_iff_mem.2 hseen)]
      obtain ⟨hnodup, hmem⟩ := ih seen h
      refine ⟨hnodup, fun n => ?_⟩
      rw [hmem, List.mem_cons]
      constructor
      · exact Or.imp_right .inr
      · rintro (hn | rfl | hn)
        exacts [.inl hn, .inl hseen, .inr hn]
    · rw [if_neg (mt List.contains_iff_mem.1 hseen)]
      obtain ⟨hnodup, hmem⟩ := ih (name :: seen) (List.nodup_cons.2 ⟨hseen, h⟩)
      refine ⟨hnodup, fun n => ?_⟩
      rw [hmem, List.mem_cons, List.mem_cons, or_assoc, or_left_comm]

theorem nodup_firstSeen (names : List Text) : (firstSeen names).Nodup :=
  List.nodup_reverse.2 (seen_spec names [] List.nodup_nil).1

theorem mem_firstSeen {names : List Text} {n : Text} : n ∈ firstSeen names ↔ n ∈ names := by
  rw [firstSeen, List.mem_reverse, (seen_spec names [] List.nodup_nil).2]
  simp

/-- Names without repetitions are as many as there are different names. -/
theorem length_firstSeen (names : List Text) : (firstSeen names).length = names.toFinset.card := by
  rw [← List.toFinset_card_of_nodup (nodup_firstSeen names)]
  congr 1
  ext n
  rw [List.mem_toFinset, List.mem_toFinset, mem_firstSeen]

end Report

/-! ## Groups -/

theorem Severity.eq_of_rank {s t : Severity} (hs : s.isKnown = true) (h : s.rank = t.rank) : s = t := by
  cases s <;> cases t <;> simp_all [rank, isKnown]

theorem Severity.eq_of_name {s t : Severity} (hs : s.isKnown = true) (ht : t.isKnown = true)
    (h : s.name = t.name) : s = t := by
  have hknown : ∀ {s : Severity}, s.isKnown = true → s ∈ known := by
    intro s h
    cases s with
    | other t => cases h
    | _ => simp [known]
  have hnames : ∀ s ∈ known, ∀ t ∈ known, s.name = t.name → s = t := by decide
  exact hnames s (hknown hs) t (hknown ht) h

namespace Recommendation

/-- The kind and the severity of an issue. -/
def pairOf (i : Issue) : Text × Severity := (i.kind, i.severity)

/-- The issues of one kind and severity. -/
def group (issues : List Issue) (pair : Text × Severity) : List Issue :=
  issues.filter fun i => pairOf i = pair

/-- The recommendation for the issues of one kind and severity. -/
def forPair (remediation : Text → Text) (issues : List Issue) (pair : Text × Severity) : Recommendation :=
  ofGroup remediation { kind := pair.1, severity := pair.2 } (group issues pair)

/-- Every kind with each of the severities that occur with it, in any order. -/
structure Enumerates (issues : List Issue) (pairs : List (Text × Severity)) : Prop where
  nodup : pairs.Nodup
  mem_iff : ∀ pair, pair ∈ pairs ↔ ∃ i ∈ issues, pairOf i = pair

variable {remediation : Text → Text} {issues issues' : List Issue} {pairs : List (Text × Severity)}

theorem exists_enumerates (issues : List Issue) : ∃ pairs, Enumerates issues pairs :=
  ⟨(issues.map pairOf).dedup, List.nodup_dedup _, fun pair => by rw [List.mem_dedup, List.mem_map]⟩

theorem Enumerates.perm (h : Enumerates issues pairs) (hperm : issues'.Perm issues) :
    Enumerates issues' pairs :=
  ⟨h.nodup, fun pair => by simp only [h.mem_iff, hperm.mem_iff]⟩

theorem Enumerates.known (h : Enumerates issues pairs) (hknown : ∀ i ∈ issues, i.severity.isKnown = true) :
    ∀ pair ∈ pairs, pair.2.isKnown = true := by
  intro pair hpair
  obtain ⟨i, hi, rfl⟩ := (h.mem_iff pair).1 hpair
  exact hknown i hi

theorem group_ne_nil (h : Enumerates issues pairs) {pair : Text × Severity} (hpair : pair ∈ pairs) :
    group issues pair ≠ [] := by
  obtain ⟨i, hi, hpairOf⟩ := (h.mem_iff pair).1 hpair
  exact List.ne_nil_of_mem (List.mem_filter.2 ⟨hi, decide_eq_true hpairOf⟩)

/-- The order of the issues does not matter for a group: it is counted, and its files are. -/
theorem forPair_perm (h : issues'.Perm issues) (pair : Text × Severity) :
    forPair remediation issues' pair = forPair remediation issues pair := by
  have hgroup : (group issues' pair).Perm (group issues pair) := h.filter _
  have hfiles : (Report.firstSeen ((group issues' pair).map (·.file))).length =
      (Report.firstSeen ((group issues pair).map (·.file))).length := by
    rw [Report.length_firstSeen, Report.length_firstSeen, List.toFinset_eq_of_perm _ _ (hgroup.map _)]
  simp only [forPair, ofGroup, hgroup.length_eq, hfiles]

/-- The names of the known levels hold no colon. So the last colon of a key is the one that joins it. -/
theorem groupKey_eq_iff {i j : Issue} (hi : i.severity.isKnown = true) (hj : j.severity.isKnown = true) :
    groupKey i = groupKey j ↔ pairOf i = pairOf j := by
  have hcolon : ∀ {s : Severity}, s.isKnown = true → s.name.count (':' : UInt8) = 0 := by
    intro s h
    cases s with
    | other t => cases h
    | _ => decide
  have hkey : ∀ k : Issue, groupKey k = k.kind ++ (':' : UInt8) :: k.severity.name := fun k => by
    rw [groupKey, List.append_assoc]
    rfl
  constructor
  · intro h
    have hcount := congrArg (List.count (':' : UInt8)) h
    rw [hkey, hkey] at h hcount
    simp only [List.count_append, List.count_cons_self, hcolon hi, hcolon hj] at hcount
    obtain ⟨hkind, hname⟩ := append_cons_inj_of_count h (by omega)
    exact Prod.ext hkind (Severity.eq_of_name hi hj hname)
  · intro h
    obtain ⟨hkind, hseverity⟩ := Prod.mk.inj h
    rw [groupKey, groupKey, hkind, hseverity]

/-- The recommendations in the order in which the groups come up. -/
def groups (remediation : Text → Text) (issues : List Issue) : List Recommendation :=
  (Report.firstSeen (issues.map groupKey)).filterMap fun key =>
    match issues.filter (groupKey · == key) with
    | [] => none
    | first :: rest => some (ofGroup remediation first (first :: rest))

/-- However the groups are gone through, each pair of a kind and a severity gives one recommendation. -/
theorem groups_perm (hknown : ∀ i ∈ issues, i.severity.isKnown = true) (h : Enumerates issues pairs) :
    (groups remediation issues).Perm (pairs.map (forPair remediation issues)) := by
  let keyOf (pair : Text × Severity) : Text := groupKey { kind := pair.1, severity := pair.2 }
  have hpairs := h.known hknown
  have hkeys : (Report.firstSeen (issues.map groupKey)).Perm (pairs.map keyOf) := by
    refine (List.perm_ext_iff_of_nodup (Report.nodup_firstSeen _) ?_).2 fun key => ?_
    · exact h.nodup.map_on fun p hp q hq hkey => (groupKey_eq_iff (hpairs p hp) (hpairs q hq)).1 hkey
    · rw [Report.mem_firstSeen, List.mem_map, List.mem_map]
      constructor
      · rintro ⟨i, hi, rfl⟩
        exact ⟨pairOf i, (h.mem_iff _).2 ⟨i, hi, rfl⟩, rfl⟩
      · rintro ⟨pair, hpair, rfl⟩
        obtain ⟨i, hi, rfl⟩ := (h.mem_iff pair).1 hpair
        exact ⟨i, hi, rfl⟩
  refine (hkeys.filterMap _).trans (List.Perm.of_eq ?_)
  rw [List.filterMap_map, ← List.filterMap_eq_map]
  refine List.filterMap_congr fun pair hpair => ?_
  -- A key takes up just the issues of its pair.
  have hgroup : issues.filter (groupKey · == keyOf pair) = group issues pair := by
    refine List.filter_congr fun i hi => ?_
    rw [Bool.eq_iff_iff, beq_iff_eq, decide_eq_true_iff]
    exact groupKey_eq_iff (j := { kind := pair.1, severity := pair.2 }) (hknown i hi) (hpairs pair hpair)
  obtain ⟨first, rest, hcons⟩ := List.exists_cons_of_ne_nil (group_ne_nil h hpair)
  have hfirst : pairOf first = pair := by
    have hmem : first ∈ group issues pair := hcons ▸ List.mem_cons_self
    simpa using (List.mem_filter.1 hmem).2
  obtain rfl := hfirst
  simp only [Function.comp, hgroup, hcons, forPair]
  rfl

/-! ## The order -/

/-- A recommendation comes before another one: it is more severe, or of the same severity and about more
issues, or about as many issues of a kind that comes first. -/
def Before (a b : Recommendation) : Prop :=
  a.severity.rank < b.severity.rank ∨ a.severity.rank = b.severity.rank ∧
    (b.count < a.count ∨ b.count = a.count ∧ Text.cmp a.kind b.kind = .lt)

theorem le_iff (a b : Recommendation) : le a b = true ↔
    a.severity.rank < b.severity.rank ∨ a.severity.rank = b.severity.rank ∧
      (b.count < a.count ∨ b.count = a.count ∧ Text.le a.kind b.kind = true) := by
  unfold le
  by_cases hrank : a.severity.rank = b.severity.rank
  · by_cases hcount : a.count = b.count
    · simp [hrank, hcount]
    · simp [hrank, hcount, Ne.symm hcount]
  · simp [hrank]

theorem before_iff (a b : Recommendation) : Before a b ↔ le b a ≠ true := by
  rw [ne_eq, le_iff, Text.le_iff, Before]
  by_cases hkind : Text.cmp a.kind b.kind = .lt
  · simp only [hkind, ne_eq, not_true_eq_false, and_false, and_true, or_false]
    omega
  · simp only [hkind, ne_eq, not_false_eq_true, and_false, and_true, or_false]
    omega

theorem le_total (a b : Recommendation) : (le a b || le b a) = true := by
  have htext := Text.le_total a.kind b.kind
  rw [Bool.or_eq_true] at htext ⊢
  rw [le_iff, le_iff]
  rcases htext with htext | htext <;> simp only [htext, and_true] <;> omega

theorem le_trans (a b c : Recommendation) (hab : le a b = true) (hbc : le b c = true) :
    le a c = true := by
  rw [le_iff] at hab hbc ⊢
  rcases hab with hab | ⟨hrank, hab | ⟨hcount, hab⟩⟩
  · omega
  · omega
  · rcases hbc with hbc | ⟨hrank', hbc | ⟨hcount', hbc⟩⟩
    · omega
    · omega
    · exact .inr ⟨hrank.trans hrank', .inr ⟨hcount'.trans hcount, Text.le_trans hab hbc⟩⟩

/-- Nothing is left open between the recommendations of one report. -/
theorem eq_of_mutual_le {p q : Text × Severity} (hp : p.2.isKnown = true)
    (hpq : le (forPair remediation issues p) (forPair remediation issues q) = true)
    (hqp : le (forPair remediation issues q) (forPair remediation issues p) = true) : p = q := by
  rw [le_iff] at hpq hqp
  obtain ⟨hrank, hkind, hkind'⟩ : p.2.rank = q.2.rank ∧ Text.le p.1 q.1 = true ∧ Text.le q.1 p.1 = true := by
    simp only [forPair, ofGroup] at hpq hqp
    rcases hpq with _ | ⟨_, _ | ⟨_, hkind⟩⟩ <;> rcases hqp with _ | ⟨_, _ | ⟨_, hkind'⟩⟩ <;>
      first | omega | exact ⟨by omega, hkind, hkind'⟩
  exact Prod.ext (Text.le_antisymm hkind hkind') (Severity.eq_of_rank hp hrank)

/-! ## Sums over the groups -/

/-- What is added for each issue of a group is added for each issue. -/
theorem sum_groups (f : Text × Severity → Int) (hnodup : pairs.Nodup)
    (hpairs : ∀ i ∈ issues, pairOf i ∈ pairs) :
    (pairs.map fun pair => f pair * (group issues pair).length).sum =
      (issues.map fun i => f (pairOf i)).sum := by
  induction issues with
  | nil => simp [group]
  | cons i issues ih =>
    have hmem := hpairs i List.mem_cons_self
    have hstep : ∀ pair, f pair * ((group (i :: issues) pair).length : Int) =
        f pair * (group issues pair).length + if pair = pairOf i then f pair else 0 := by
      intro pair
      by_cases h : pairOf i = pair
      · simp [group, h, mul_add]
      · simp [group, h, Ne.symm h]
    simp only [hstep]
    rw [List.sum_map_add, ih fun j hj => hpairs j (List.mem_cons_of_mem _ hj), List.sum_map_ite_eq,
      @List.count_eq_one_of_mem _ instBEqOfDecidableEq _ _ _ hnodup hmem, List.map_cons, List.sum_cons,
      List.sum_map_zero, one_smul, sub_zero, add_zero, add_comm]

end Recommendation

/-! ## Points -/

namespace Score

theorem weightOf_name {s : Severity} (h : s.isKnown = true) : weightOf s.name = s.weight := by
  cases s with
  | other t => cases h
  | _ => decide

/-- Each known level is weighed under its own name only, and other names weigh nothing. -/
theorem sum_known_weight (name : Text) :
    (Severity.known.map fun s => (if name = s.name then 1 else 0) * s.weight).sum = weightOf name := by
  by_cases h : ∃ s ∈ Severity.known, s.name = name
  · obtain ⟨s, hs, rfl⟩ := h
    revert s
    decide
  · have hnone : Severity.known.find? (·.name == name) = none :=
      List.find?_eq_none.2 fun s hs hname => h ⟨s, hs, beq_iff_eq.1 hname⟩
    have hzero : weightOf name = 0 := by
      rw [weightOf, Severity.ofName, hnone]
      rfl
    rw [hzero]
    apply List.sum_eq_zero
    intro x hx
    obtain ⟨s, hs, rfl⟩ := List.mem_map.1 hx
    have hne : name ≠ s.name := fun hname => h ⟨s, hs, hname.symm⟩
    simp [hne]

end Score

/-- The explanation of a report shows the points of its issues. -/
theorem Explanation.weighted_ofReport (r : Report) :
    (ofReport r).weighted = Number.wrap64 (Score.pointsOf r.issues) := by
  have hsum : (Severity.known.map fun s =>
      ((r.issues.map (·.severity.name)).count s.name : Int) * s.weight).sum = Score.pointsOf r.issues := by
    induction r.issues with
    | nil => simp [Score.pointsOf]
    | cons i issues ih =>
      have hstep : ∀ s : Severity, (((i :: issues).map (·.severity.name)).count s.name : Int) * s.weight =
          ((issues.map (·.severity.name)).count s.name : Int) * s.weight +
            (if i.severity.name = s.name then 1 else 0) * s.weight := by
        intro s
        by_cases h : i.severity.name = s.name
        · simp [h, add_mul]
        · simp [h]
      simp only [hstep]
      rw [List.sum_map_add, ih, Score.sum_known_weight]
      exact add_comm _ _
  have hfold := Number.foldl_wrap64 (fun c : Contribution => c.count * c.severity.weight)
    (ofReport r).contributions 0
  have hcontributions : (ofReport r).contributions =
      Severity.known.map fun s => ⟨s, (Report.countBySeverity r.issues).get s.name⟩ := rfl
  rw [zero_add] at hfold
  refine hfold.trans (congrArg Number.wrap64 ?_)
  rw [← hsum, hcontributions, List.map_map]
  refine congrArg List.sum (List.map_congr_left fun s _ => ?_)
  rw [← (Report.tabulated r.issues).level_eq s.name]
  rfl

/-! ## The account -/

namespace Recommendation

variable {remediation : Text → Text} {issues issues' : List Issue} {pairs : List (Text × Severity)}

/-- The recommendations are those of the groups, one for each, in an order that tells them all apart. -/
structure Accounts (remediation : Text → Text) (issues : List Issue) (shown : List Recommendation) :
    Prop where
  nodup : (shown.map fun x => (x.kind, x.severity)).Nodup
  mem_iff : ∀ kind s, (∃ x ∈ shown, x.kind = kind ∧ x.severity = s) ↔
    ∃ i ∈ issues, i.kind = kind ∧ i.severity = s
  forPair_eq : ∀ x ∈ shown, x = forPair remediation issues (x.kind, x.severity)
  count_eq : ∀ x ∈ shown, x.count = (group issues (x.kind, x.severity)).length
  files_eq : ∀ x ∈ shown, x.files = ((group issues (x.kind, x.severity)).map (·.file)).toFinset.card
  ordered : shown.Pairwise Before
  sum_count : (shown.map (·.count)).sum = issues.length
  sum_points : (shown.map fun x => x.severity.weight * x.count).sum = Score.pointsOf issues

/-- What is sorted from the groups in any order. -/
theorem eq_of_sorted {shown shown' : List Recommendation} (hknown : ∀ pair ∈ pairs, pair.2.isKnown = true)
    (h : shown.Perm (pairs.map (forPair remediation issues)))
    (h' : shown'.Perm (pairs.map (forPair remediation issues)))
    (hsorted : shown.Pairwise fun a b => le a b = true)
    (hsorted' : shown'.Pairwise fun a b => le a b = true) : shown = shown' := by
  refine List.Perm.eq_of_pairwise (fun a b ha hb hab hba => ?_) hsorted hsorted' (h.trans h'.symm)
  obtain ⟨p, hp, rfl⟩ := List.mem_map.1 (h.mem_iff.1 ha)
  obtain ⟨q, -, rfl⟩ := List.mem_map.1 (h'.mem_iff.1 hb)
  rw [eq_of_mutual_le (hknown p hp) hab hba]

theorem accounts_ofIssues (hknown : ∀ i ∈ issues, i.severity.isKnown = true) :
    Accounts remediation issues (ofIssues remediation issues) := by
  obtain ⟨pairs, hpairs⟩ := exists_enumerates issues
  have hperm : (ofIssues remediation issues).Perm (pairs.map (forPair remediation issues)) :=
    (List.mergeSort_perm _ _).trans (groups_perm hknown hpairs)
  have hsorted : (ofIssues remediation issues).Pairwise fun a b => le a b = true :=
    List.pairwise_mergeSort le_trans le_total _
  have hforPair : ∀ x ∈ ofIssues remediation issues,
      (x.kind, x.severity) ∈ pairs ∧ x = forPair remediation issues (x.kind, x.severity) := by
    intro x hx
    obtain ⟨pair, hpair, rfl⟩ := List.mem_map.1 (hperm.mem_iff.1 hx)
    exact ⟨hpair, rfl⟩
  have hnodup : ((ofIssues remediation issues).map fun x => (x.kind, x.severity)).Nodup := by
    rw [(hperm.map fun x => (x.kind, x.severity)).nodup_iff, List.map_map]
    exact (List.map_id pairs).symm ▸ hpairs.nodup
  have hsum : ∀ f : Text × Severity → Int,
      ((ofIssues remediation issues).map fun x => f (x.kind, x.severity) * x.count).sum =
        (issues.map fun i => f (pairOf i)).sum := by
    intro f
    rw [(hperm.map fun x => f (x.kind, x.severity) * x.count).sum_eq, List.map_map,
      ← sum_groups f hpairs.nodup fun i hi => (hpairs.mem_iff _).2 ⟨i, hi, rfl⟩]
    rfl
  refine {
    nodup := hnodup
    mem_iff := fun kind s => ?_
    forPair_eq := fun x hx => (hforPair x hx).2
    count_eq := fun x hx => congrArg Recommendation.count (hforPair x hx).2
    files_eq := fun x hx => ?_
    ordered := ?_
    sum_count := ?_
    sum_points := ?_ }
  · constructor
    · rintro ⟨x, hx, rfl, rfl⟩
      obtain ⟨i, hi, hpair⟩ := (hpairs.mem_iff _).1 (hforPair x hx).1
      exact ⟨i, hi, Prod.mk.inj hpair⟩
    · rintro ⟨i, hi, rfl, rfl⟩
      have hmem := List.mem_map_of_mem (f := forPair remediation issues)
        ((hpairs.mem_iff (pairOf i)).2 ⟨i, hi, rfl⟩)
      exact ⟨_, hperm.mem_iff.2 hmem, rfl, rfl⟩
  · rw [← Report.length_firstSeen]
    exact congrArg Recommendation.files (hforPair x hx).2
  · -- Two that are in order and not of one group stand in it strictly.
    refine (hsorted.and (List.pairwise_map.1 hnodup)).imp_of_mem fun {a b} ha hb hab => ?_
    obtain ⟨hle, hne⟩ := hab
    rw [before_iff]
    intro hge
    rw [(hforPair a ha).2, (hforPair b hb).2] at hle hge
    exact hne (eq_of_mutual_le (hpairs.known hknown _ (hforPair a ha).1) hle hge)
  · simpa using hsum fun _ => 1
  · rw [hsum fun pair => pair.2.weight, Score.pointsOf]
    exact congrArg List.sum (List.map_congr_left fun i hi => (Score.weightOf_name (hknown i hi)).symm)

/-- The recommendations for a report whose levels are known account for its issues. They are what comes out
whichever way the issues are listed, the groups are gone through and their recommendations are sorted. Their
points, in the arithmetic of 64 bits, are those of the explanation, and those that the score of the finalized
report is made from; as long as they fit 64 bits, nothing wraps. -/
theorem recommendations_account_for_issues (remediation : Text → Text) (r : Report)
    (hknown : ∀ i ∈ r.issues, i.severity.isKnown = true) :
    let shown := ofIssues remediation r.issues
    let points := (shown.map fun x => x.severity.weight * x.count).sum
    Accounts remediation r.issues shown ∧
      (∀ issues', issues'.Perm r.issues → ofIssues remediation issues' = shown ∧
        ∀ (pairs : List (Text × Severity)) (found : List Recommendation), Enumerates issues' pairs →
          found.Perm (pairs.map (forPair remediation issues')) →
          found.Pairwise (fun a b => ¬ Before b a) → found = shown) ∧
      (Explanation.ofReport r).weighted = Number.wrap64 points ∧
      (∃ counts, r.finalize.bySeverity? = some counts ∧
        r.finalize.score = Score.score counts r.finalize.files ∧
        Score.points counts = (Explanation.ofReport r).weighted) ∧
      (points < 2 ^ 63 → (Explanation.ofReport r).weighted = points) := by
  intro shown points
  have haccounts : Accounts remediation r.issues shown := accounts_ofIssues hknown
  have hpoints : points = Score.pointsOf r.issues := haccounts.sum_points
  have hweighted : (Explanation.ofReport r).weighted = Number.wrap64 points := by
    rw [hpoints, Explanation.weighted_ofReport]
  refine ⟨haccounts, fun issues' hperm => ?_, hweighted, ⟨_, rfl, rfl, ?_⟩, fun hfits => ?_⟩
  · have hknown' : ∀ i ∈ issues', i.severity.isKnown = true := fun i hi => hknown i (hperm.mem_iff.1 hi)
    have hsame : ∀ pairs : List (Text × Severity), pairs.map (forPair remediation issues') =
        pairs.map (forPair remediation r.issues) := fun pairs =>
      List.map_congr_left fun pair _ => forPair_perm hperm pair
    have hfound : ∀ (pairs : List (Text × Severity)) (found : List Recommendation),
        Enumerates issues' pairs →
        found.Perm (pairs.map (forPair remediation issues')) →
        found.Pairwise (fun a b => le a b = true) → found = shown := by
      intro pairs found hpairs hfound hsorted
      have hpairs' := hpairs.perm hperm.symm
      refine eq_of_sorted (hpairs.known hknown') (hsame pairs ▸ hfound) ?_ hsorted
        (List.pairwise_mergeSort le_trans le_total _)
      exact (List.mergeSort_perm _ _).trans (groups_perm hknown hpairs')
    refine ⟨?_, fun pairs found hpairs hperm hsorted => hfound pairs found hpairs hperm ?_⟩
    · obtain ⟨pairs, hpairs⟩ := exists_enumerates issues'
      exact hfound pairs _ hpairs ((List.mergeSort_perm _ _).trans (groups_perm hknown' hpairs))
        (List.pairwise_mergeSort le_trans le_total _)
    · exact hsorted.imp fun {a b} h => Decidable.not_not.1 (mt (before_iff b a).2 h)
  · rw [Score.points_eq_wrap64, Score.weighted_countBySeverity, Explanation.weighted_ofReport]
  · have hnonneg := (Score.pointsOf_bounds r.issues).1
    rw [hweighted, Number.wrap64_eq_self (by omega) hfits]

/-- Two ports, a password and a path in two files. -/
def fourFindings : Report :=
  { files := 2
    issues? := some [
      { file := "a.py", line := 1, kind := "hardcoded_port", severity := .medium },
      { file := "b.py", line := 1, kind := "hardcoded_port", severity := .medium },
      { file := "a.py", line := 2, kind := "hardcoded_password", severity := .critical },
      { file := "a.py", line := 3, kind := "hardcoded_file_path", severity := .low }] }

theorem account_of_four_findings :
    (∀ i ∈ fourFindings.issues, i.severity.isKnown = true) ∧
      Accounts (fun _ => []) fourFindings.issues (ofIssues (fun _ => []) fourFindings.issues) ∧
      (Explanation.ofReport fourFindings).weighted = 15 := by
  have hknown : ∀ i ∈ fourFindings.issues, i.severity.isKnown = true := by decide
  obtain ⟨haccounts, -, -, -, hfits⟩ :=
    recommendations_account_for_issues (fun _ => []) fourFindings hknown
  have hpoints := haccounts.sum_points
  have hsum : Score.pointsOf fourFindings.issues = 15 := by decide
  rw [hsum] at hpoints
  exact ⟨hknown, haccounts, (hfits (hpoints.trans_lt (by norm_num))).trans hpoints⟩

end Recommendation

end LiteralAudit
