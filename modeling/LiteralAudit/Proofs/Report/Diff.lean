import LiteralAudit.Proofs.Report.RoundTrip
import LiteralAudit.Report

/-!
# What is new and what is resolved

Issues are matched by their keys, one to one. So of each key as many issues are new as there are more of
them than before (`Diff.count_added`), the other way round as many are resolved (`Diff.count_resolved`),
and what is new and what is resolved make up the difference in number (`Diff.length_balance`).

A report that is read from its file has the keys of its issues mended (`Issue.key_mended`). Against such a
report the issues whose keys are not valid UTF-8 are new, and no others (`Diff.length_added_mended`).
-/

namespace LiteralAudit

/-! ## Keys in number -/

namespace Diff

variable {before after : List Issue}

theorem count_unmatched (keys : List Text) (is : List Issue) (a : Text) :
    ((unmatched keys is).1.map (·.key)).count a = (is.map (·.key)).count a - keys.count a ∧
      (unmatched keys is).2.count a = keys.count a - (is.map (·.key)).count a := by
  induction is generalizing keys with
  | nil => simp [unmatched]
  | cons i is ih =>
    rw [unmatched, List.map_cons, List.count_cons]
    split
    · next hmem =>
      have hpos := List.count_pos_iff.2 (List.contains_iff_mem.1 hmem)
      obtain ⟨hadded, hleft⟩ := ih (keys.erase i.key)
      rw [hadded, hleft, List.count_erase]
      by_cases hkey : i.key = a
      · subst hkey
        simp only [beq_self_eq_true, if_true]
        omega
      · simp [beq_eq_false_iff_ne.2 hkey]
    · next hmem =>
      have hnone := List.count_eq_zero_of_not_mem fun h => hmem (List.contains_iff_mem.2 h)
      obtain ⟨hadded, hleft⟩ := ih keys
      dsimp only
      rw [List.map_cons, List.count_cons, hadded, hleft]
      by_cases hkey : i.key = a
      · subst hkey
        omega
      · simp [beq_eq_false_iff_ne.2 hkey]

theorem count_taken (keys : List Text) (is : List Issue) (a : Text) :
    ((taken keys is).map (·.key)).count a = min (keys.count a) ((is.map (·.key)).count a) := by
  induction is generalizing keys with
  | nil => simp [taken]
  | cons i is ih =>
    rw [taken, List.map_cons, List.count_cons]
    split
    · next hmem =>
      have hpos := List.count_pos_iff.2 (List.contains_iff_mem.1 hmem)
      rw [List.map_cons, List.count_cons, ih, List.count_erase]
      by_cases hkey : i.key = a
      · subst hkey
        simp only [beq_self_eq_true, if_true]
        omega
      · simp [beq_eq_false_iff_ne.2 hkey]
    · next hmem =>
      have hnone := List.count_eq_zero_of_not_mem fun h => hmem (List.contains_iff_mem.2 h)
      rw [ih]
      by_cases hkey : i.key = a
      · subst hkey
        omega
      · simp [beq_eq_false_iff_ne.2 hkey]

/-- Of each key as many issues are new as there are more of them than before. -/
theorem count_added (a : Text) : ((ofIssues before after).added.map (·.key)).count a =
    (after.map (·.key)).count a - (before.map (·.key)).count a := (count_unmatched _ _ a).1

theorem count_resolved (a : Text) : ((ofIssues before after).resolved.map (·.key)).count a =
    (before.map (·.key)).count a - (after.map (·.key)).count a := by
  show ((taken (unmatched (before.map (·.key)) after).2 before).map (·.key)).count a = _
  rw [count_taken, (count_unmatched _ _ a).2]
  omega

theorem length_unmatched (keys : List Text) (is : List Issue) : (unmatched keys is).1.length + keys.length =
    (unmatched keys is).2.length + is.length := by
  induction is generalizing keys with
  | nil => simp [unmatched]
  | cons i is ih =>
    rw [unmatched]
    split
    · next hmem =>
      have hmem : i.key ∈ keys := List.contains_iff_mem.1 hmem
      have hlen := List.length_erase_of_mem hmem
      have hpos := List.length_pos_of_mem hmem
      have hrest := ih (keys.erase i.key)
      rw [List.length_cons]
      omega
    · have hrest := ih keys
      simp only [List.length_cons]
      omega

/-- What is new and what is resolved make up the difference in number. -/
theorem length_balance (before after : List Issue) : (ofIssues before after).added.length + before.length =
    (ofIssues before after).resolved.length + after.length := by
  have hperm : ((ofIssues before after).resolved.map (·.key)).Perm
      (unmatched (before.map (·.key)) after).2 := by
    rw [List.perm_iff_count]
    intro a
    rw [count_resolved, (count_unmatched _ _ a).2]
  have hlen := hperm.length_eq
  have hunmatched := length_unmatched (before.map (·.key)) after
  rw [List.length_map] at hlen hunmatched
  rw [hlen]
  exact hunmatched

end Diff

/-! ## Keys in files -/

namespace Issue

/-- The parts of a key are joined by an ASCII character. -/
theorem key_mended (i : Issue) : i.mended.key = i.key.mended := by
  have hbar : ∀ s more : Text, (s ++ Text.ofString "|" ++ more).mended =
      s.mended ++ Text.ofString "|" ++ more.mended := by
    intro s more
    have hbyte : Text.ofString "|" = [124] := rfl
    have hjoined := Text.mended_append_ascii s (d := 124) (by decide) more
    rwa [hbyte, List.append_assoc, List.append_assoc]
  simp only [key, mended, hbar]

end Issue

/-- The keys of a report that is read from a file are mended. -/
theorem Report.keys_mended_named (r : Report) :
    r.mended.named.issues.map (·.key) = r.issues.map fun i => i.key.mended := by
  have hnamed : r.mended.named.issues = r.mended.issues.map Issue.named := by
    show (r.mended.issues?.map _).getD [] = (r.mended.issues?.getD []).map _
    cases r.mended.issues? <;> rfl
  rw [hnamed, issues_mended, List.map_map, List.map_map]
  exact List.map_congr_left fun i _ => i.key_mended

namespace Diff

/-- Against the issues as they are read from a file, those whose keys are not valid UTF-8 are new. -/
theorem length_added_mended {before after : List Issue}
    (h : before.map (·.key) = after.map fun i => i.key.mended) :
    (ofIssues before after).added.length = after.countP (fun i => !i.key.isUtf8) := by
  have hmended : before.map (·.key) = (after.map (·.key)).map Text.mended := by
    rw [h, List.map_map]
    rfl
  have hperm : ((ofIssues before after).added.map (·.key)).Perm
      ((after.map (·.key)).filter fun a => !a.isUtf8) := by
    rw [List.perm_iff_count]
    intro a
    rw [count_added, hmended]
    cases ha : a.isUtf8 with
    | true =>
      -- A valid key is mended to itself, so there are at least as many of it before.
      have hle : (after.map (·.key)).count a ≤ ((after.map (·.key)).map Text.mended).count a.mended :=
        List.count_le_count_map
      rw [Text.mended_eq_self ha] at hle
      rw [Nat.sub_eq_zero_of_le hle, List.count_eq_zero_of_not_mem]
      simp [ha]
    | false =>
      -- No key is mended to one that is not valid.
      have hnone : a ∉ (after.map (·.key)).map Text.mended := by
        intro hmem
        obtain ⟨b, -, rfl⟩ := List.mem_map.1 hmem
        rw [Text.isUtf8_mended] at ha
        cases ha
      rw [List.count_eq_zero_of_not_mem hnone, Nat.sub_zero, List.count_filter (by simp [ha])]
  have hlen := hperm.length_eq
  rw [List.length_map, ← List.countP_eq_length_filter, List.countP_map] at hlen
  exact hlen

end Diff

namespace Trend

/-- Between a report and the same issues as they are read from a file there is no change in number, and
exactly the issues whose keys are not valid UTF-8 are taken for new ones and for resolved ones. -/
theorem ofReports_mended {current previous : Report}
    (h : previous.issues.map (·.key) = current.issues.map fun i => i.key.mended) :
    (ofReports current previous).direction = "stable" ∧
      (ofReports current previous).newIssues = current.issues.countP (fun i => !i.key.isUtf8) ∧
      (ofReports current previous).resolvedIssues = current.issues.countP (fun i => !i.key.isUtf8) := by
  have hlen : previous.issues.length = current.issues.length := by
    simpa using congrArg List.length h
  have hadded := Diff.length_added_mended h
  have hbalance := Diff.length_balance previous.issues current.issues
  have hnew : (ofReports current previous).newIssues =
      ((Diff.ofIssues previous.issues current.issues).added.length : Int) := rfl
  have hresolved : (ofReports current previous).resolvedIssues =
      ((Diff.ofIssues previous.issues current.issues).resolved.length : Int) := rfl
  refine ⟨?_, ?_, ?_⟩
  · simp [ofReports, hlen]
  · rw [hnew, hadded]
  · rw [hresolved]
    omega

end Trend

end LiteralAudit

/-!
## Which issues are matched

Matching uses up one key for each issue, in order. So the differences are those of the two **bags** of keys
(`Diff.Difference`), and of the issues with one key the later report shows as new those that have as many of
them in front as the earlier report has (`Diff.mem_unmatched_iff`).

An issue's **identity** is all that its key is made of. Two identities make the same key only where bars in
the path, the kind or the pattern take the place of those that join the parts (`Identity.eq_of_key_eq`); an
issue can then be matched with one of another identity (`Diff.new_finding_hidden_by_bar`).
-/

namespace LiteralAudit

/-- How many issues have a key. -/
def keyCount (k : Text) (is : List Issue) : Nat := (is.map (·.key)).count k

@[simp] theorem keyCount_nil (k : Text) : keyCount k [] = 0 := rfl

theorem keyCount_cons (k : Text) (i : Issue) (is : List Issue) :
    keyCount k (i :: is) = keyCount k is + if i.key = k then 1 else 0 := by
  simp [keyCount, List.count_cons]

/-! ### Bags of keys -/

namespace Diff

theorem unmatched_sublist (keys : List Text) (is : List Issue) : (unmatched keys is).1.Sublist is := by
  induction is generalizing keys with
  | nil => exact .slnil
  | cons i is ih =>
    rw [unmatched]
    split
    · exact (ih _).cons i
    · exact (ih keys).cons_cons i

theorem taken_sublist (keys : List Text) (is : List Issue) : (taken keys is).Sublist is := by
  induction is generalizing keys with
  | nil => exact .slnil
  | cons i is ih =>
    rw [taken]
    split
    · exact (ih _).cons_cons i
    · exact (ih keys).cons i

/-- The diff is the difference of two lists of issues as bags of keys. -/
structure Difference (before after : List Issue) (d : Diff) : Prop where
  count_added : ∀ k, keyCount k d.added = keyCount k after - keyCount k before
  count_resolved : ∀ k, keyCount k d.resolved = keyCount k before - keyCount k after
  added_sublist : d.added.Sublist after
  resolved_sublist : d.resolved.Sublist before
  unchanged_add_added : d.unchanged + d.added.length = after.length
  unchanged_add_resolved : d.unchanged + d.resolved.length = before.length

theorem difference_ofIssues (before after : List Issue) :
    Difference before after (ofIssues before after) := by
  have hadded : (ofIssues before after).added.Sublist after := unmatched_sublist _ _
  have hunchanged : (ofIssues before after).unchanged =
      after.length - (ofIssues before after).added.length := rfl
  have hlength := hadded.length_le
  have hbalance := length_balance before after
  exact {
    count_added
    count_resolved
    added_sublist := hadded
    resolved_sublist := taken_sublist _ _
    unchanged_add_added := by omega
    unchanged_add_resolved := by omega }

/-- The other way round, what was resolved is new and what was new is resolved. -/
structure Mirrored (d e : Diff) : Prop where
  added : ∀ k, keyCount k e.added = keyCount k d.resolved
  resolved : ∀ k, keyCount k e.resolved = keyCount k d.added

theorem Difference.mirrored {before after : List Issue} {d e : Diff} (hd : Difference before after d)
    (he : Difference after before e) : Mirrored d e :=
  ⟨fun k => by rw [he.count_added, hd.count_resolved], fun k => by rw [he.count_resolved, hd.count_added]⟩

end Diff

/-- A trend tells of a diff how many issues are new and resolved, and in which direction that goes. -/
structure Trend.Follows (t : Trend) (d : Diff) : Prop where
  newIssues : t.newIssues = d.added.length
  resolvedIssues : t.resolvedIssues = d.resolved.length
  balance : t.newIssues - t.resolvedIssues = t.currentIssues - t.previousIssues
  improving_iff : t.direction = "improving" ↔ t.newIssues < t.resolvedIssues
  degrading_iff : t.direction = "degrading" ↔ t.resolvedIssues < t.newIssues
  stable_iff : t.direction = "stable" ↔ t.resolvedIssues = t.newIssues

theorem Trend.follows_ofReports (before after : Report) :
    (ofReports after before).Follows (.ofReports before after) := by
  have hbalance := Diff.length_balance before.issues after.issues
  have hnew : (ofReports after before).newIssues =
      ((Diff.ofIssues before.issues after.issues).added.length : Int) := rfl
  have hresolved : (ofReports after before).resolvedIssues =
      ((Diff.ofIssues before.issues after.issues).resolved.length : Int) := rfl
  have hdirection : (ofReports after before).direction =
      if (after.issues.length : Int) - before.issues.length < 0 then Text.ofString "improving"
      else if (after.issues.length : Int) - before.issues.length > 0 then Text.ofString "degrading"
      else Text.ofString "stable" := rfl
  obtain ⟨hid, his, hds⟩ : Text.ofString "improving" ≠ "degrading" ∧
      Text.ofString "improving" ≠ "stable" ∧ Text.ofString "degrading" ≠ "stable" := by decide
  refine ⟨hnew, hresolved, ?_, ?_, ?_, ?_⟩
  · show _ = (after.issues.length : Int) - before.issues.length
    omega
  all_goals
    rw [hdirection, hnew, hresolved]
    split_ifs with hless hmore
  · exact iff_of_true rfl (by omega)
  · exact iff_of_false hid.symm (by omega)
  · exact iff_of_false his.symm (by omega)
  · exact iff_of_false hid (by omega)
  · exact iff_of_true rfl (by omega)
  · exact iff_of_false hds.symm (by omega)
  · exact iff_of_false his (by omega)
  · exact iff_of_false hds (by omega)
  · exact iff_of_true rfl (by omega)

/-- A new issue has at least as many issues of its key in front of it as there are keys to be used up. -/
theorem Diff.mem_unmatched_iff {keys : List Text} {is : List Issue} {i : Issue} :
    i ∈ (unmatched keys is).1 ↔
      ∃ front back, is = front ++ i :: back ∧ keys.count i.key ≤ keyCount i.key front := by
  induction is generalizing keys with
  | nil => simp [unmatched]
  | cons j is ih =>
    -- The issue is the first one, or stands behind it.
    have hcases : (∃ front back, j :: is = front ++ i :: back ∧ keys.count i.key ≤ keyCount i.key front) ↔
        (i = j ∧ keys.count i.key = 0) ∨ ∃ front back, is = front ++ i :: back ∧
          keys.count i.key ≤ keyCount i.key front + if j.key = i.key then 1 else 0 := by
      constructor
      · rintro ⟨_ | ⟨k, front⟩, back, hsplit, hcount⟩
        · obtain ⟨rfl, -⟩ := List.cons.inj hsplit
          exact .inl ⟨rfl, Nat.le_zero.1 hcount⟩
        · obtain ⟨rfl, htail⟩ := List.cons.inj hsplit
          exact .inr ⟨front, back, htail, keyCount_cons .. ▸ hcount⟩
      · rintro (⟨rfl, hcount⟩ | ⟨front, back, rfl, hcount⟩)
        · exact ⟨[], is, rfl, hcount.le⟩
        · exact ⟨j :: front, back, rfl, keyCount_cons .. ▸ hcount⟩
    rw [hcases, unmatched]
    split
    · next hmem =>
      have hpos := List.count_pos_iff.2 (List.contains_iff_mem.1 hmem)
      rw [ih, List.count_erase, or_iff_right]
      · simp only [beq_iff_eq, Nat.sub_le_iff_le_add]
      · rintro ⟨rfl, hnone⟩
        omega
    · next hmem =>
      have hnone := List.count_eq_zero_of_not_mem fun h => hmem (List.contains_iff_mem.2 h)
      rw [List.mem_cons, ih]
      refine or_congr (and_iff_left_of_imp ?_).symm (exists₂_congr fun front back => and_congr_right fun _ => ?_)
      · rintro rfl
        exact hnone
      · split_ifs with hkey
        · rw [← hkey, hnone]
          simp
        · rfl

/-- All of an issue that its key is made of. -/
structure Identity where
  file : Text
  kind : Text
  pattern : Text
  description : Text
  deriving DecidableEq

def Issue.identity (i : Issue) : Identity := ⟨i.file, i.kind, i.pattern, i.description⟩

namespace Identity

/-- The byte that joins the parts of a key. -/
abbrev bar : UInt8 := '|'

/-- The key that issues of an identity have. -/
def key (t : Identity) : Text :=
  t.file ++ bar :: (t.kind ++ bar :: (t.pattern ++ bar :: t.description))

/-- How many bars stand in the path, the kind and the pattern. -/
def bars (t : Identity) : Nat × Nat × Nat := (t.file.count bar, t.kind.count bar, t.pattern.count bar)

/-- How many issues have an identity. -/
def countIn (t : Identity) (is : List Issue) : Nat := (is.map (·.identity)).count t

end Identity

@[simp] theorem Issue.key_identity (i : Issue) : i.identity.key = i.key := by
  have hbar : Text.ofString "|" = [Identity.bar] := rfl
  simp [Identity.key, identity, key, hbar]

/-- A list with a separator in it is cut apart by the number of separators in front. -/
theorem append_cons_inj_of_count {α : Type} [DecidableEq α] {a : α} {u v u' v' : List α}
    (h : u ++ a :: v = u' ++ a :: v') (hcount : u.count a = u'.count a) : u = u' ∧ v = v' := by
  -- Between the two separators there would be another one.
  have hgap : ∀ {u u' gap w w' : List α}, u' = u ++ gap → a :: w = gap ++ w' → u.count a = u'.count a →
      gap = [] := by
    rintro u _ gap w w' rfl hrest hcount
    cases gap with
    | nil => rfl
    | cons b gap =>
      obtain ⟨rfl, -⟩ := List.cons.inj hrest
      rw [List.count_append, List.count_cons_self] at hcount
      omega
  obtain ⟨gap, hfront, hrest⟩ | ⟨gap, hfront, hrest⟩ := List.append_eq_append_iff.1 h
  · obtain rfl := hgap hfront hrest hcount
    rw [List.append_nil] at hfront
    exact ⟨hfront.symm, (List.cons.inj hrest).2⟩
  · obtain rfl := hgap hfront hrest hcount.symm
    rw [List.append_nil] at hfront
    exact ⟨hfront, (List.cons.inj hrest).2.symm⟩

/-- Where no bars take the place of others, equal keys are those of one identity. -/
theorem Identity.eq_of_key_eq {t u : Identity} (hbars : t.bars = u.bars) (hkey : t.key = u.key) : t = u := by
  obtain ⟨hfile, hkind, hpattern⟩ : t.file.count bar = u.file.count bar ∧
      t.kind.count bar = u.kind.count bar ∧ t.pattern.count bar = u.pattern.count bar := by
    simpa [bars] using hbars
  obtain ⟨hfile, hrest⟩ := append_cons_inj_of_count hkey hfile
  obtain ⟨hkind, hrest⟩ := append_cons_inj_of_count hrest hkind
  obtain ⟨hpattern, hdescription⟩ := append_cons_inj_of_count hrest hpattern
  cases t
  cases u
  simp_all

namespace Diff

variable {before after : List Issue} {t : Identity}

/-- An identity is shown as new if and only if one of its issues has at least as many issues of its key in
front of it as the earlier report has. -/
theorem identity_added_iff : (∃ i ∈ (ofIssues before after).added, i.identity = t) ↔
    ∃ front i back, after = front ++ i :: back ∧ i.identity = t ∧
      keyCount t.key before ≤ keyCount t.key front := by
  have hmem : ∀ i, i ∈ (ofIssues before after).added ↔ ∃ front back, after = front ++ i :: back ∧
      keyCount i.key before ≤ keyCount i.key front := fun i => mem_unmatched_iff
  constructor
  · rintro ⟨i, hi, rfl⟩
    obtain ⟨front, back, hsplit, hcount⟩ := (hmem i).1 hi
    exact ⟨front, i, back, hsplit, rfl, by simpa using hcount⟩
  · rintro ⟨front, i, back, hsplit, rfl, hcount⟩
    exact ⟨i, (hmem i).2 ⟨front, back, hsplit, by simpa using hcount⟩, rfl⟩

/-- As many issues have an identity as its key, or fewer. -/
theorem countIn_le_keyCount (t : Identity) (is : List Issue) : t.countIn is ≤ keyCount t.key is := by
  have hkeys : is.map (·.key) = (is.map (·.identity)).map Identity.key := by simp
  rw [keyCount, hkeys]
  exact List.count_le_count_map

/-- Where the key belongs to the identity alone, both are as frequent. -/
theorem keyCount_eq_countIn (h : ∀ i ∈ before, i.key = t.key → i.identity = t) :
    keyCount t.key before = t.countIn before := by
  rw [keyCount, Identity.countIn, List.count_eq_countP, List.count_eq_countP, List.countP_map,
    List.countP_map]
  refine List.countP_congr fun i hi => ?_
  simp only [Function.comp_apply, beq_iff_eq]
  refine ⟨h i hi, ?_⟩
  rintro rfl
  exact i.key_identity.symm

theorem exists_last {α : Type} {p : α → Bool} {l : List α} (h : ∃ a ∈ l, p a = true) :
    ∃ front a back, l = front ++ a :: back ∧ p a = true ∧ ∀ b ∈ back, p b = false := by
  have hfound : (l.reverse.find? p).isSome := by simpa using h
  obtain ⟨a, ha⟩ := Option.isSome_iff_exists.1 hfound
  obtain ⟨hp, back, front, hsplit, hback⟩ := List.find?_eq_some_iff_append.1 ha
  refine ⟨front.reverse, a, back.reverse, ?_, hp, fun b hb => ?_⟩
  · rw [← List.reverse_reverse l, hsplit]
    simp
  · simpa using hback b (List.mem_reverse.1 hb)

/-- Of an identity that there are more issues of than before, the last one is new, if no other identity had
its key before. -/
theorem identity_added_of_alone (hmore : t.countIn before < t.countIn after)
    (h : ∀ i ∈ before, i.key = t.key → i.identity = t) :
    ∃ i ∈ (ofIssues before after).added, i.identity = t := by
  have hmem : ∃ i ∈ after, (i.identity == t) = true := by
    simpa using List.count_pos_iff.1 (Nat.zero_lt_of_lt hmore)
  obtain ⟨front, i, back, rfl, hi, hback⟩ := exists_last hmem
  obtain rfl := eq_of_beq hi
  refine identity_added_iff.2 ⟨front, i, back, rfl, rfl, ?_⟩
  have hnone : i.identity.countIn back = 0 := by
    refine List.count_eq_zero_of_not_mem fun hin => ?_
    obtain ⟨j, hj, hsame⟩ := List.mem_map.1 hin
    simpa [hsame] using hback j hj
  have hcount : i.identity.countIn (front ++ i :: back) =
      i.identity.countIn front + (i.identity.countIn back + 1) := by
    simp [Identity.countIn]
  have hle := countIn_le_keyCount i.identity front
  rw [keyCount_eq_countIn h]
  omega

/-- Of an identity of which the later report has more issues than the earlier one, a new issue is shown if
and only if one of them has at least as many issues of its key in front of it as the earlier report has.
That is so if the earlier report has its key for no other identity, and for two identities with the same
number of bars in path, kind and pattern the keys are never the same. -/
theorem new_finding_shown_iff {before after : Report} {t : Identity}
    (hmore : t.countIn before.issues < t.countIn after.issues) :
    ((∃ i ∈ (ofReports before after).added, i.identity = t) ↔
      ∃ front i back, after.issues = front ++ i :: back ∧ i.identity = t ∧
        keyCount t.key before.issues ≤ keyCount t.key front) ∧
    ((∀ i ∈ before.issues, i.key = t.key → i.identity = t) →
      ∃ i ∈ (ofReports before after).added, i.identity = t) ∧
    ((∀ i ∈ before.issues, i.identity.bars = t.bars) →
      ∀ i ∈ before.issues, i.key = t.key → i.identity = t) :=
  ⟨identity_added_iff, identity_added_of_alone hmore, fun hbars i hi hkey =>
    Identity.eq_of_key_eq (hbars i hi) (i.key_identity.trans hkey)⟩

/-- A report with an issue for each kind and pattern. -/
def reportOf (found : List (Text × Text)) : Report :=
  { issues? := some (found.map fun (kind, pattern) =>
      { file := "a.py", line := 1, kind, pattern, description := "d" }) }

/-- The kind `a` found by the pattern `b|c`. -/
def barInPattern : Text × Text := ("a", "b|c")

/-- The kind `a|b` found by the pattern `c`, which has the same key. -/
def barInKind : Text × Text := ("a|b", "c")

theorem new_finding_hidden_by_bar :
    let t : Identity := ⟨"a.py", "a|b", "c", "d"⟩
    t.countIn (reportOf [barInPattern]).issues < t.countIn (reportOf [barInKind]).issues ∧
      (ofReports (reportOf [barInPattern]) (reportOf [barInKind])).added = [] ∧
      ¬ ∃ i ∈ (ofReports (reportOf [barInPattern]) (reportOf [barInKind])).added, i.identity = t := by
  decide

theorem second_finding_shown :
    let t : Identity := ⟨"a.py", "a", "b|c", "d"⟩
    t.countIn (reportOf [barInPattern]).issues < t.countIn (reportOf [barInPattern, barInPattern]).issues ∧
      ∃ i ∈ (ofReports (reportOf [barInPattern]) (reportOf [barInPattern, barInPattern])).added,
        i.identity = t := by
  have hmore : Identity.countIn ⟨"a.py", "a", "b|c", "d"⟩ (reportOf [barInPattern]).issues <
      Identity.countIn ⟨"a.py", "a", "b|c", "d"⟩ (reportOf [barInPattern, barInPattern]).issues := by
    decide
  obtain ⟨-, hshown, halone⟩ := new_finding_shown_iff hmore
  exact ⟨hmore, hshown (halone (by decide))⟩

end Diff

end LiteralAudit
