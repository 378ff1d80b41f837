import LiteralAudit.Proofs.Json.Record
import LiteralAudit.Proofs.Report.Counts

/-!
# Records of reports and their fields

Issues, recommendations, trends and reports are written as records (`Issue.toJson_eq`,
`Recommendation.toJson_eq`, `Trend.toJson?_eq`, `Report.toJson?_eq`) and read from their own fields
(`Issue.update?_toJson`, `Recommendation.update?_toJson`, `Trend.update?_fields`,
`Report.ofMembers?_fields`). `Report.HasJson` says which reports JSON can hold. What is read differs from
what was written at most in how its levels and tables are kept (`Report.named`).
-/

namespace LiteralAudit

/-! ## Levels -/

namespace Severity

theorem name_ofName (t : Text) : (ofName t).name = t := by
  unfold ofName
  cases h : known.find? fun s => s.name == t with
  | none => rfl
  | some s =>
    have hname := List.find?_some (p := fun s : Severity => s.name == t) h
    exact beq_iff_eq.1 hname

/-- The level as its name tells it: no level but the four known ones has the name of one of them. -/
def named (s : Severity) : Severity := ofName s.name

end Severity

/-! ## Issues -/

namespace Issue

/-- The fields of an issue, as far as they are written. -/
def fields (i : Issue) : List (String × Option Json) :=
  [("file_path", some (.string i.file)), ("line_number", some (.ofInt i.line)),
    ("issue_type", some (.string i.kind)), ("severity", some (.string i.severity.name)),
    ("description", some (.string i.description)), ("pattern_matched", some (.string i.pattern)),
    ("suggested_fix", if i.fix.isEmpty then none else some (.string i.fix))]

theorem toJson_eq (i : Issue) : i.toJson = .object (Json.membersOf i.fields) := by
  rw [toJson, fields, Json.omitted]
  split <;> rfl

theorem apart_fields (i : Issue) : Json.Apart i.fields := by
  unfold Json.Apart fields
  simp only [List.map_cons, List.map_nil]
  decide

/-- The issue as it is read again. -/
def named (i : Issue) : Issue := { i with severity := i.severity.named }

theorem update?_toJson {i : Issue} (h : Number.fits64 i.line = true) :
    update? {} i.toJson = some i.named := by
  have hfs := apart_fields i
  have hfile := Json.field?_text (n := "file_path") (t := i.file) hfs (by simp [fields])
  have hline := Json.field?_int (n := "line_number") hfs (by simp [fields]) h
  have hkind := Json.field?_text (n := "issue_type") (t := i.kind) hfs (by simp [fields])
  have hseverity := Json.field?_text (n := "severity") (t := i.severity.name) hfs (by simp [fields])
  have hdescription := Json.field?_text (n := "description") (t := i.description) hfs (by simp [fields])
  have hpattern := Json.field?_text (n := "pattern_matched") (t := i.pattern) hfs (by simp [fields])
  have hfix := Json.field?_omitted (n := "suggested_fix") (t := i.fix) hfs (by simp [fields])
  simp only [update?, toJson_eq, Json.members?, bind, Option.bind_some, hfile, hline, hkind, hseverity,
    hdescription, hpattern, hfix]
  rfl

end Issue

/-! ## Tables -/

namespace Json

/-- A table is read entry by entry. -/
theorem counts?_ofCounts {c : Counts} (h : ∀ x ∈ c, Number.fits64 x.2 = true) (d : Option Counts) :
    counts? d (.ofCounts (some c)) = some (c.foldl (fun d x => d.set x.1 x.2) (d.getD [])) := by
  induction c generalizing d with
  | nil => rfl
  | cons x c ih =>
    have hx := int?_ofInt (h x List.mem_cons_self)
    have hmore := ih (fun y hy => h y (List.mem_cons_of_mem x hy)) (some ((d.getD []).set x.1 x.2))
    simp only [counts?, ofCounts, members?, bind, Option.bind_some, Option.getD_some] at hmore
    rw [List.foldl_cons, ← hmore]
    simp only [counts?, ofCounts, members?, bind, Option.bind_some, List.map_cons, List.foldlM_cons]
    simp only [ofInt] at hx ⊢
    simp only [hx, Option.map_some, Option.bind_some]

theorem optional?_counts {fs : List (String × Option Json)} {n : String} {c? : Option Counts}
    (hfs : Apart fs) (hmem : (n, some (.ofCounts c?)) ∈ fs)
    (h : ∀ c ∈ c?, ∀ x ∈ c, Number.fits64 x.2 = true) :
    optional? (membersOf fs) n counts? = some (c?.map Counts.rebuilt) := by
  cases c? with
  | none => exact optional?_null hfs hmem
  | some c => exact optional?_some hfs hmem (counts?_ofCounts (h c rfl) none) (by simp [ofCounts])

end Json

/-! ## Recommendations -/

namespace Recommendation

/-- The fields of a recommendation. -/
def fields (r : Recommendation) : List (String × Option Json) :=
  [("severity", some (.string r.severity.name)), ("issue_type", some (.string r.kind)),
    ("action", some (.string r.action)), ("impact", some (.string r.impact)),
    ("count", some (.ofInt r.count)), ("files", some (.ofInt r.files))]

theorem toJson_eq (r : Recommendation) : r.toJson = .object (Json.membersOf r.fields) := rfl

theorem apart_fields (r : Recommendation) : Json.Apart r.fields := by
  unfold Json.Apart fields
  simp only [List.map_cons, List.map_nil]
  decide

/-- The recommendation as it is read again. -/
def named (r : Recommendation) : Recommendation := { r with severity := r.severity.named }

theorem update?_toJson {r : Recommendation} (hcount : Number.fits64 r.count = true)
    (hfiles : Number.fits64 r.files = true) : update? {} r.toJson = some r.named := by
  have hfs := apart_fields r
  have hseverity := Json.field?_text (n := "severity") (t := r.severity.name) hfs (by simp [fields])
  have hkind := Json.field?_text (n := "issue_type") (t := r.kind) hfs (by simp [fields])
  have haction := Json.field?_text (n := "action") (t := r.action) hfs (by simp [fields])
  have himpact := Json.field?_text (n := "impact") (t := r.impact) hfs (by simp [fields])
  have hcount := Json.field?_int (n := "count") hfs (by simp [fields]) hcount
  have hfiles := Json.field?_int (n := "files") hfs (by simp [fields]) hfiles
  simp only [update?, toJson_eq, Json.members?, bind, Option.bind_some, hseverity, hkind, haction,
    himpact, hcount, hfiles]
  rfl

end Recommendation

/-! ## Trends -/

namespace Trend

/-- The fields of a trend. -/
def fields (t : Trend) : List (String × Option Json) :=
  [("direction", some (.string t.direction)), ("change_percent", some (.ofFloat t.changePercent)),
    ("previous_issues", some (.ofInt t.previousIssues)), ("current_issues", some (.ofInt t.currentIssues)),
    ("previous_score", some (.ofFloat t.previousScore)), ("current_score", some (.ofFloat t.currentScore)),
    ("compared_with", some (.string (t.comparedWith.rfc3339 true))),
    ("new_issues", some (.ofInt t.newIssues)), ("resolved_issues", some (.ofInt t.resolvedIssues))]

def floats (t : Trend) : List Float := [t.changePercent, t.previousScore, t.currentScore]

def integers (t : Trend) : List Int :=
  [t.previousIssues, t.currentIssues, t.newIssues, t.resolvedIssues]

theorem apart_fields (t : Trend) : Json.Apart t.fields := by
  unfold Json.Apart fields
  simp only [List.map_cons, List.map_nil]
  decide

section Written

variable {t : Trend} (hfloats : ∀ x ∈ t.floats, Json.Keeps x) (htime : t.comparedWith.HasText)

include hfloats htime

theorem toJson?_eq : t.toJson? = some (.object (Json.membersOf t.fields)) := by
  have hchange := (hfloats t.changePercent (by simp [floats])).ofFloat?_eq
  have hprevious := (hfloats t.previousScore (by simp [floats])).ofFloat?_eq
  have hcurrent := (hfloats t.currentScore (by simp [floats])).ofFloat?_eq
  have htext := Timestamp.rfc3339?_eq_some htime
  simp only [toJson?, hchange, hprevious, hcurrent, Json.ofTimestamp?, htext, Option.map_some, bind,
    Option.bind_some]
  rfl

theorem update?_fields (hintegers : ∀ i ∈ t.integers, Number.fits64 i = true) :
    update? {} (.object (Json.membersOf t.fields)) = some t := by
  have hfs := apart_fields t
  have hdirection := Json.field?_text (n := "direction") (t := t.direction) hfs (by simp [fields])
  have hchange := Json.field?_float (n := "change_percent") (x := t.changePercent) hfs (by simp [fields])
    (hfloats _ (by simp [floats]))
  have hprevious := Json.field?_int (n := "previous_issues") (i := t.previousIssues) hfs
    (by simp [fields]) (hintegers _ (by simp [integers]))
  have hcurrent := Json.field?_int (n := "current_issues") (i := t.currentIssues) hfs
    (by simp [fields]) (hintegers _ (by simp [integers]))
  have hpreviousScore := Json.field?_float (n := "previous_score") (x := t.previousScore) hfs
    (by simp [fields]) (hfloats _ (by simp [floats]))
  have hcurrentScore := Json.field?_float (n := "current_score") (x := t.currentScore) hfs
    (by simp [fields]) (hfloats _ (by simp [floats]))
  have hcompared := Json.field?_time (n := "compared_with") (t := t.comparedWith) hfs (by simp [fields])
    htime
  have hnew := Json.field?_int (n := "new_issues") (i := t.newIssues) hfs (by simp [fields])
    (hintegers _ (by simp [integers]))
  have hresolved := Json.field?_int (n := "resolved_issues") (i := t.resolvedIssues) hfs
    (by simp [fields]) (hintegers _ (by simp [integers]))
  simp only [update?, Json.members?, bind, Option.bind_some, hdirection, hchange, hprevious, hcurrent,
    hpreviousScore, hcurrentScore, hcompared, hnew, hresolved]
  rfl

end Written

end Trend

/-! ## Reports -/

namespace Report

/-- The fields of a report. -/
def fields (r : Report) : List (String × Option Json) :=
  [("scan_timestamp", some (.string (r.timestamp.rfc3339 true))),
    ("root_path", if r.root.isEmpty then none else some (.string r.root)),
    ("total_files_scanned", some (.ofInt r.files)),
    ("issues", some (r.issues?.elim .null fun is => .array (is.map Issue.toJson))),
    ("issues_by_severity", some (.ofCounts r.bySeverity?)),
    ("issues_by_type", some (.ofCounts r.byKind?)),
    ("validation_score", some (.ofFloat r.score)),
    ("readiness_level", if r.readiness.isEmpty then none else some (.string r.readiness)),
    ("whitelist_applied", some (.bool r.whitelistApplied)),
    ("scan_duration_seconds", some (.ofFloat r.seconds)),
    ("partial", if !r.interrupted then none else some (.bool true)),
    ("trend", r.trend?.map fun t => .object (Json.membersOf t.fields)),
    ("recommendations", if r.recommendations.isEmpty then none else
      some (.array (r.recommendations.map Recommendation.toJson)))]

theorem apart_fields (r : Report) : Json.Apart r.fields := by
  unfold Json.Apart fields
  simp only [List.map_cons, List.map_nil]
  decide

theorem written_fields (r : Report) : Json.written r.fields =
    [("scan_timestamp", Json.string (r.timestamp.rfc3339 true))] ++
    Json.omitted r.root.isEmpty "root_path" (Json.string r.root) ++
    [("total_files_scanned", Json.ofInt r.files),
      ("issues", r.issues?.elim Json.null fun is => Json.array (is.map Issue.toJson)),
      ("issues_by_severity", Json.ofCounts r.bySeverity?), ("issues_by_type", Json.ofCounts r.byKind?),
      ("validation_score", Json.ofFloat r.score)] ++
    Json.omitted r.readiness.isEmpty "readiness_level" (Json.string r.readiness) ++
    [("whitelist_applied", Json.bool r.whitelistApplied), ("scan_duration_seconds", Json.ofFloat r.seconds)] ++
    Json.omitted (!r.interrupted) "partial" (Json.bool true) ++
    (r.trend?.map fun t => ("trend", Json.object (Json.membersOf t.fields))).toList ++
    Json.omitted r.recommendations.isEmpty "recommendations"
      (Json.array (r.recommendations.map Recommendation.toJson)) := by
  have hcut : ∀ a b c d e f g h i j k l m : String × Option Json,
      Json.written [a, b, c, d, e, f, g, h, i, j, k, l, m] =
        Json.written [a] ++ Json.written [b] ++ Json.written [c, d, e, f, g] ++ Json.written [h] ++
          Json.written [i, j] ++ Json.written [k] ++ Json.written [l] ++ Json.written [m] := by
    intros
    simp only [← Json.written_append]
    rfl
  simp only [fields, hcut, Json.omitted_eq_written]
  cases r.trend? <;> rfl

/-- The doubles that stand in a report. -/
def floats (r : Report) : List Float := [r.score, r.seconds] ++ r.trend?.toList.flatMap (·.floats)

/-- The times that stand in a report. -/
def times (r : Report) : List Timestamp := r.timestamp :: r.trend?.toList.map (·.comparedWith)

/-- The tables of a report. -/
def tables (r : Report) : List Counts := r.bySeverity?.toList ++ r.byKind?.toList

/-- The integers that stand in a report. -/
def integers (r : Report) : List Int :=
  r.files :: r.issues.map (·.line) ++ r.tables.flatMap (·.map (·.2)) ++
    r.trend?.toList.flatMap (·.integers) ++ r.recommendations.flatMap fun a => [a.count, a.files]

theorem forall_mem_integers {P : Int → Prop} {r : Report} : (∀ i ∈ r.integers, P i) ↔
    P r.files ∧ (∀ i ∈ r.issues, P i.line) ∧ (∀ c ∈ r.tables, ∀ x ∈ c, P x.2) ∧
      (∀ t ∈ r.trend?, ∀ i ∈ t.integers, P i) ∧ ∀ a ∈ r.recommendations, P a.count ∧ P a.files := by
  simp only [integers, List.forall_mem_append, List.forall_mem_cons, List.forall_mem_map,
    List.forall_mem_flatMap, Option.mem_toList, Option.mem_def, List.not_mem_nil, false_implies, implies_true, and_true,
    and_assoc]

theorem forall_mem_floats {P : Float → Prop} {r : Report} : (∀ x ∈ r.floats, P x) ↔
    P r.score ∧ P r.seconds ∧ ∀ t ∈ r.trend?, ∀ x ∈ t.floats, P x := by
  simp only [floats, List.forall_mem_append, List.forall_mem_cons, List.forall_mem_flatMap,
    Option.mem_toList, Option.mem_def, List.not_mem_nil, false_implies, implies_true, and_true, and_assoc]

theorem forall_mem_times {P : Timestamp → Prop} {r : Report} : (∀ t ∈ r.times, P t) ↔
    P r.timestamp ∧ ∀ t ∈ r.trend?, P t.comparedWith := by
  simp only [times, List.forall_mem_cons, List.forall_mem_map, Option.mem_toList, Option.mem_def]

/-- JSON can hold the report, and its reader every number and time of it. -/
structure HasJson (r : Report) : Prop where
  floats : ∀ x ∈ r.floats, Json.Keeps x
  times : ∀ t ∈ r.times, t.HasText
  integers : ∀ i ∈ r.integers, Number.fits64 i = true

/-- The report as it is read again. -/
def named (r : Report) : Report :=
  { r with
    issues? := r.issues?.map fun is => is.map Issue.named
    bySeverity? := r.bySeverity?.map Counts.rebuilt
    byKind? := r.byKind?.map Counts.rebuilt
    recommendations := r.recommendations.map Recommendation.named }

section Written

variable {r : Report} (h : r.HasJson)

include h

theorem toJson?_eq : r.toJson? = some (.object (Json.membersOf r.fields)) := by
  obtain ⟨hscore, hseconds, htrendFloats⟩ := forall_mem_floats.1 h.floats
  obtain ⟨htime, htrendTime⟩ := forall_mem_times.1 h.times
  have htext := Timestamp.rfc3339?_eq_some htime
  rw [← Json.record_written]
  cases ht : r.trend? with
  | none =>
    simp only [toJson?, ht, Json.ofTimestamp?, htext, hscore.ofFloat?_eq, hseconds.ofFloat?_eq, bind,
      Option.bind_some, Option.map_some, written_fields, Option.map_none]
    cases r.issues? <;> rfl
  | some t =>
    have htrend := Trend.toJson?_eq (htrendFloats t ht) (htrendTime t ht)
    simp only [toJson?, ht, htrend, Json.ofTimestamp?, htext, hscore.ofFloat?_eq, hseconds.ofFloat?_eq,
      bind, Option.bind_some, Option.map_some, written_fields]
    cases r.issues? <;> rfl

theorem optional?_issues : Json.optional? (Json.membersOf r.fields) "issues"
    (Json.list? Issue.update? {}) = some (r.issues?.map fun is => ⟨is.map Issue.named, []⟩) := by
  have hfs := apart_fields r
  have hmem : ("issues", some (r.issues?.elim .null fun is => .array (is.map Issue.toJson))) ∈ r.fields := by
    simp [fields]
  have hlines := (forall_mem_integers.1 h.integers).2.1
  rw [issues] at hlines
  cases hi : r.issues? with
  | none =>
    rw [hi] at hmem
    exact Json.optional?_null hfs hmem
  | some is =>
    rw [hi] at hmem hlines
    have hlist : Json.list? Issue.update? {} none (.array (is.map Issue.toJson)) =
        some ⟨is.map Issue.named, []⟩ :=
      Json.list?_array (fun i hi => Issue.update?_toJson (hlines i hi)) fun _ _ => Json.noConfusion
    exact Json.optional?_some hfs hmem hlist Json.noConfusion

theorem optional?_trend : Json.optional? (Json.membersOf r.fields) "trend"
    (fun t? => Trend.update? (t?.getD {})) = some r.trend? := by
  have hfs := apart_fields r
  have hmem : ("trend", r.trend?.map fun t => .object (Json.membersOf t.fields)) ∈ r.fields := by
    simp [fields]
  cases ht : r.trend? with
  | none =>
    rw [ht] at hmem
    exact Json.optional?_none hfs hmem
  | some t =>
    rw [ht] at hmem
    have hread := Trend.update?_fields ((forall_mem_floats.1 h.floats).2.2 t ht)
      ((forall_mem_times.1 h.times).2 t ht) ((forall_mem_integers.1 h.integers).2.2.2.1 t ht)
    exact Json.optional?_some hfs hmem hread Json.noConfusion

theorem items?_recommendations :
    Json.items? (Json.membersOf r.fields) "recommendations" Recommendation.update? {} =
      some (r.recommendations.map Recommendation.named) := by
  have hfs := apart_fields r
  have hmem : ("recommendations", if r.recommendations.isEmpty then none else
      some (.array (r.recommendations.map Recommendation.toJson))) ∈ r.fields := by simp [fields]
  have hcounts := (forall_mem_integers.1 h.integers).2.2.2.2
  by_cases hnone : r.recommendations.isEmpty = true
  · rw [if_pos hnone] at hmem
    rw [Json.items?, Json.optional?_none hfs hmem, List.isEmpty_iff.1 hnone]
    rfl
  · rw [if_neg hnone] at hmem
    have hlist : Json.list? Recommendation.update? {} none
        (.array (r.recommendations.map Recommendation.toJson)) =
        some ⟨r.recommendations.map Recommendation.named, []⟩ :=
      Json.list?_array (fun a ha => Recommendation.update?_toJson (hcounts a ha).1 (hcounts a ha).2)
        fun _ _ => Json.noConfusion
    rw [Json.items?, Json.optional?_some hfs hmem hlist Json.noConfusion]
    rfl

/-- A report is read from its own fields. -/
theorem ofMembers?_fields : ofMembers? (Json.membersOf r.fields) = some r.named := by
  have hfs := apart_fields r
  obtain ⟨hscore, hseconds, -⟩ := forall_mem_floats.1 h.floats
  obtain ⟨hfiles, -, htables, -, -⟩ := forall_mem_integers.1 h.integers
  have htime := Json.field?_time (n := "scan_timestamp") (t := r.timestamp) hfs (by simp [fields])
    (forall_mem_times.1 h.times).1
  have hroot := Json.field?_omitted (n := "root_path") (t := r.root) hfs (by simp [fields])
  have hfiles := Json.field?_int (n := "total_files_scanned") hfs (by simp [fields]) hfiles
  have hissues := optional?_issues h
  have hseverities := Json.optional?_counts (n := "issues_by_severity") hfs
    (by simp [fields]) fun c hc => htables c (List.mem_append_left _ (Option.mem_toList.2 hc))
  have hkinds := Json.optional?_counts (n := "issues_by_type") hfs
    (by simp [fields]) fun c hc => htables c (List.mem_append_right _ (Option.mem_toList.2 hc))
  have hscore := Json.field?_float (n := "validation_score") hfs (by simp [fields]) hscore
  have hreadiness := Json.field?_omitted (n := "readiness_level") (t := r.readiness) hfs
    (by simp [fields])
  have hwhitelist := Json.field?_bool (n := "whitelist_applied") (b := r.whitelistApplied) hfs
    (by simp [fields])
  have hseconds := Json.field?_float (n := "scan_duration_seconds") hfs (by simp [fields]) hseconds
  have hpartial : Json.field? (Json.membersOf r.fields) "partial" Json.bool? false =
      some r.interrupted := by
    have hmem : ("partial", if !r.interrupted then none else some (.bool true)) ∈ r.fields := by
      simp [fields]
    cases hi : r.interrupted with
    | false =>
      rw [hi] at hmem
      exact Json.field?_none hfs hmem
    | true =>
      rw [hi] at hmem
      exact Json.field?_bool hfs hmem false
  simp only [ofMembers?, bind, Option.bind_some, htime, hroot, hfiles, hissues, hseverities, hkinds,
    hscore, hreadiness, hwhitelist, hseconds, hpartial, optional?_trend h, items?_recommendations h,
    Option.map_map, named]
  rfl

end Written

end Report

end LiteralAudit
