import LiteralAudit.Format
import LiteralAudit.Proofs.Disk.Listing
import LiteralAudit.Proofs.History.FileName
import LiteralAudit.Proofs.Report.Codec

/-!
# Reports are read as they were written

What is read for a report is the report with its texts mended: a byte that belongs to no character comes
back as U+FFFD, and levels and tables as they are kept. Of the texts it is the record that says where they
stand (`Report.mended_fields`), so that one statement about the whole record covers every combination of
fields that are there and fields that are left out.

* `Report.read_json`: both layouts of the writer are read as the mended report.
* `Report.mended_eq_self`, `Report.named_eq_self`: nothing changes in a report whose texts are valid UTF-8,
  and whose levels and tables are as they are kept.
-/

namespace LiteralAudit

/-! ## Mended reports -/

theorem Text.isEmpty_mended (t : Text) : t.mended.isEmpty = t.isEmpty := by
  cases t with
  | nil => rfl
  | cons b t =>
    obtain ⟨c, tail, hbytes⟩ := exists_ofChar (Rune.first b t).char
    show List.isEmpty (ofChar (Rune.first b t).char ++ _) = false
    rw [hbytes]
    rfl

namespace Severity

/-- The level of the mended name. -/
def mended (s : Severity) : Severity := ofName s.name.mended

end Severity

/-- A field that may be left out. -/
theorem Json.fits_of_ite {n : Nat} {j v : Json} {p : Prop} [Decidable p] (h : Json.Fits n j)
    (hv : (if p then none else some j) = some v) : Json.Fits n v := by
  split at hv
  · cases hv
  · cases hv
    exact h

namespace Issue

def mended (i : Issue) : Issue :=
  { i with
    file := i.file.mended
    kind := i.kind.mended
    severity := i.severity.mended
    description := i.description.mended
    pattern := i.pattern.mended
    fix := i.fix.mended }

theorem mended_toJson (i : Issue) : i.toJson.mended = i.mended.toJson := by
  rw [toJson_eq, toJson_eq, Json.mended, Json.mended_membersOf]
  simp only [fields, mended, Severity.mended, Severity.name_ofName, Text.isEmpty_mended, List.map_cons,
    List.map_nil, Option.map_some, Json.mended]
  cases i.fix.isEmpty <;> rfl

theorem fits_toJson (n : Nat) (i : Issue) : Json.Fits (n + 1) i.toJson := by
  rw [toJson_eq]
  refine Json.fits_membersOf ?_
  simp only [fields, List.forall_mem_cons, Option.mem_def, Option.some.injEq, forall_eq']
  refine ⟨.string _, Json.fits_ofInt _ _, .string _, .string _, .string _, .string _,
    fun v hv => Json.fits_of_ite (.string _) hv, by simp⟩

end Issue

namespace Recommendation

def mended (r : Recommendation) : Recommendation :=
  { r with
    severity := r.severity.mended
    kind := r.kind.mended
    action := r.action.mended
    impact := r.impact.mended }

theorem mended_toJson (r : Recommendation) : r.toJson.mended = r.mended.toJson := by
  rw [toJson_eq, toJson_eq, Json.mended, Json.mended_membersOf]
  simp only [fields, mended, Severity.mended, Severity.name_ofName, List.map_cons, List.map_nil,
    Option.map_some, Json.mended]
  rfl

theorem fits_toJson (n : Nat) (r : Recommendation) : Json.Fits (n + 1) r.toJson := by
  rw [toJson_eq]
  refine Json.fits_membersOf ?_
  simp only [fields, List.forall_mem_cons, Option.mem_def, Option.some.injEq, forall_eq']
  exact ⟨.string _, .string _, .string _, .string _, Json.fits_ofInt _ _, Json.fits_ofInt _ _, by simp⟩

end Recommendation

theorem Json.mended_of_number {j : Json} (h : ∃ t, j = .number t) : j.mended = j := by
  obtain ⟨t, rfl⟩ := h
  rfl

theorem Json.Keeps.exists_number {x : Float} (h : Json.Keeps x) : ∃ t, Json.ofFloat x = .number t := by
  obtain ⟨cs, -, hj⟩ := Json.isNumeral_ofFloat? h.ofFloat?_eq
  exact ⟨_, hj⟩

namespace Trend

def mended (t : Trend) : Trend := { t with direction := t.direction.mended }

section

variable {t : Trend} (hfloats : ∀ x ∈ t.floats, Json.Keeps x)

include hfloats

theorem mended_fields : (t.fields.map fun f => (f.1, f.2.map Json.mended)) = t.mended.fields := by
  simp only [floats, List.forall_mem_cons] at hfloats
  obtain ⟨hchange, hprevious, hcurrent, -⟩ := hfloats
  simp only [fields, mended, List.map_cons, List.map_nil, Option.map_some, Json.mended,
    Json.mended_of_number hchange.exists_number, Json.mended_of_number hprevious.exists_number,
    Json.mended_of_number hcurrent.exists_number,
    Text.mended_eq_self (Timestamp.isAscii_rfc3339 t.comparedWith).isUtf8]
  rfl

theorem fits_fields (n : Nat) : Json.Fits (n + 1) (.object (Json.membersOf t.fields)) := by
  simp only [floats, List.forall_mem_cons] at hfloats
  obtain ⟨hchange, hprevious, hcurrent, -⟩ := hfloats
  refine Json.fits_membersOf ?_
  simp only [fields, List.forall_mem_cons, Option.mem_def, Option.some.injEq, forall_eq']
  exact ⟨.string _, Json.fits_ofFloat? hchange.ofFloat?_eq, Json.fits_ofInt _ _, Json.fits_ofInt _ _,
    Json.fits_ofFloat? hprevious.ofFloat?_eq, Json.fits_ofFloat? hcurrent.ofFloat?_eq, .string _,
    Json.fits_ofInt _ _, Json.fits_ofInt _ _, by simp⟩

end

end Trend

/-- A table with its names mended. -/
def Counts.mended (c : Counts) : Counts := c.map fun (k, n) => (k.mended, n)

theorem Json.mended_ofCounts (c? : Option Counts) :
    (Json.ofCounts c?).mended = .ofCounts (c?.map Counts.mended) := by
  cases c? with
  | none => rfl
  | some c =>
    rw [Option.map_some, Json.ofCounts, Json.ofCounts, Json.mended, Json.mendedFields_eq, Counts.mended,
      List.map_map, List.map_map]
    rfl

theorem Json.fits_ofCounts (n : Nat) (c? : Option Counts) : Json.Fits (n + 1) (.ofCounts c?) := by
  cases c? with
  | none => exact .null
  | some c =>
    refine .object fun m hm => ?_
    obtain ⟨x, -, rfl⟩ := List.mem_map.1 hm
    exact Json.fits_ofInt n x.2

namespace Report

/-- The report with all of its texts mended. -/
def mended (r : Report) : Report :=
  { r with
    root := r.root.mended
    issues? := r.issues?.map fun is => is.map Issue.mended
    bySeverity? := r.bySeverity?.map Counts.mended
    byKind? := r.byKind?.map Counts.mended
    readiness := r.readiness.mended
    trend? := r.trend?.map Trend.mended
    recommendations := r.recommendations.map Recommendation.mended }

theorem issues_mended (r : Report) : r.mended.issues = r.issues.map Issue.mended := by
  show (r.issues?.map _).getD [] = (r.issues?.getD []).map _
  cases r.issues? <;> rfl

theorem tables_mended (r : Report) : r.mended.tables = r.tables.map Counts.mended := by
  simp only [tables, mended, List.map_append, Option.toList_map]

theorem ofJson?_object (ms : List (Text × Json)) : ofJson? (.object ms) = ofMembers? ms :=
  Option.bind_some ..

section

variable {r : Report} (h : r.HasJson)

include h

theorem HasJson.mended : r.mended.HasJson := by
  obtain ⟨hfloats, htimes, hintegers⟩ := h
  rw [forall_mem_floats] at hfloats
  rw [forall_mem_times] at htimes
  rw [forall_mem_integers] at hintegers
  obtain ⟨hscore, hseconds, htrendFloats⟩ := hfloats
  obtain ⟨htime, htrendTime⟩ := htimes
  obtain ⟨hfiles, hlines, htables, htrendIntegers, hcounts⟩ := hintegers
  refine ⟨forall_mem_floats.2 ⟨hscore, hseconds, ?_⟩, forall_mem_times.2 ⟨htime, ?_⟩,
    forall_mem_integers.2 ⟨hfiles, ?_, ?_, ?_, ?_⟩⟩
  · intro t' ht'
    obtain ⟨t, ht, rfl⟩ := Option.map_eq_some_iff.1 ht'
    exact htrendFloats t ht
  · intro t' ht'
    obtain ⟨t, ht, rfl⟩ := Option.map_eq_some_iff.1 ht'
    exact htrendTime t ht
  · rw [issues_mended]
    exact List.forall_mem_map.2 hlines
  · intro c' hc'
    rw [tables_mended] at hc'
    obtain ⟨c, hc, rfl⟩ := List.mem_map.1 hc'
    exact List.forall_mem_map.2 (htables c hc)
  · intro t' ht'
    obtain ⟨t, ht, rfl⟩ := Option.map_eq_some_iff.1 ht'
    exact htrendIntegers t ht
  · exact List.forall_mem_map.2 hcounts

theorem mended_fields : (r.fields.map fun f => (f.1, f.2.map Json.mended)) = r.mended.fields := by
  obtain ⟨hscore, hseconds, htrendFloats⟩ := forall_mem_floats.1 h.floats
  have hissues : (r.issues?.elim .null fun is => Json.array (is.map Issue.toJson)).mended =
      r.mended.issues?.elim .null fun is => .array (is.map Issue.toJson) := by
    show _ = (r.issues?.map fun is => is.map Issue.mended).elim Json.null _
    cases r.issues? with
    | none => rfl
    | some is =>
      simp only [Option.elim_some, Option.map_some, Json.mended, Json.mendedItems_eq, List.map_map,
        Function.comp_def, Issue.mended_toJson]
  have htrend : (r.trend?.map fun t => Json.object (Json.membersOf t.fields)).map Json.mended =
      r.mended.trend?.map fun t => .object (Json.membersOf t.fields) := by
    show _ = (r.trend?.map Trend.mended).map _
    cases ht : r.trend? with
    | none => rfl
    | some t =>
      simp only [Option.map_some, Json.mended, Json.mended_membersOf,
        Trend.mended_fields (htrendFloats t ht)]
  have hadvice : (Json.array (r.recommendations.map Recommendation.toJson)).mended =
      .array (r.mended.recommendations.map Recommendation.toJson) := by
    simp only [mended, Json.mended, Json.mendedItems_eq, List.map_map, Function.comp_def,
      Recommendation.mended_toJson]
  have hempty : r.mended.recommendations.isEmpty = r.recommendations.isEmpty := List.isEmpty_map
  simp only [fields, List.map_cons, List.map_nil, Option.map_some, hissues, htrend, hempty, ← hadvice,
    Json.mended_ofCounts, Json.mended_of_number hscore.exists_number,
    Json.mended_of_number hseconds.exists_number, apply_ite (Option.map Json.mended), Option.map_none]
  simp only [mended, Text.isEmpty_mended, Json.mended,
    Text.mended_eq_self (Timestamp.isAscii_rfc3339 r.timestamp).isUtf8]
  rfl

theorem fits_fields : Json.Fits 3 (.object (Json.membersOf r.fields)) := by
  obtain ⟨hscore, hseconds, htrendFloats⟩ := forall_mem_floats.1 h.floats
  refine Json.fits_membersOf ?_
  simp only [fields, List.forall_mem_cons, Option.mem_def, Option.some.injEq, forall_eq']
  refine ⟨.string _, ?_, Json.fits_ofInt _ _, ?_, Json.fits_ofCounts _ _, Json.fits_ofCounts _ _,
    Json.fits_ofFloat? hscore.ofFloat?_eq, ?_, .bool _, Json.fits_ofFloat? hseconds.ofFloat?_eq, ?_, ?_, ?_,
    by simp⟩
  · exact fun v hv => Json.fits_of_ite (.string _) hv
  · cases r.issues? with
    | none => exact .null
    | some is => exact .array (List.forall_mem_map.2 fun i _ => Issue.fits_toJson 0 i)
  · exact fun v hv => Json.fits_of_ite (.string _) hv
  · exact fun v hv => Json.fits_of_ite (.bool _) hv
  · intro v hv
    obtain ⟨t, ht, rfl⟩ := Option.map_eq_some_iff.1 hv
    exact Trend.fits_fields (htrendFloats t ht) 1
  · refine fun v hv => Json.fits_of_ite (.array (List.forall_mem_map.2 fun a _ => ?_)) hv
    exact Recommendation.fits_toJson 0 a

/-- What is written for a report is read as the report with its texts mended. -/
theorem exists_json :
    ∃ j, r.toJson? = some j ∧ Json.Fits 3 j ∧ ofJson? j.mended = some r.mended.named := by
  refine ⟨_, toJson?_eq h, fits_fields h, ?_⟩
  rw [Json.mended, Json.mended_membersOf, mended_fields h, ofJson?_object, ofMembers?_fields h.mended]

/-- Both layouts of a report are read as the report with its texts mended. -/
theorem read_json (pretty : Bool) : ∃ t, Format.json pretty r = .ok t ∧
    (Json.read? t).bind ofJson? = some r.mended.named := by
  obtain ⟨j, hj, hfits, hread⟩ := exists_json h
  have hdepth : 3 ≤ Json.maxDepth := by decide
  refine ⟨_, by rw [Format.json, hj], ?_⟩
  cases pretty with
  | false =>
    rw [if_neg Bool.false_ne_true, Json.read?_compact hfits hdepth]
    exact hread
  | true =>
    rw [if_pos rfl, Json.read?_pretty hfits hdepth]
    exact hread

end

end Report

/-! ## What mending leaves as it is -/

section

variable {α : Type} {f : α → α}

theorem map_eq_self {xs : List α} (h : ∀ x ∈ xs, f x = x) : xs.map f = xs :=
  (List.map_congr_left h).trans (List.map_id' xs)

theorem map?_eq_self {x? : Option α} (h : ∀ x ∈ x?, f x = x) : x?.map f = x? := by
  cases x? with
  | none => rfl
  | some x => exact congrArg some (h x rfl)

end

namespace Issue

def texts (i : Issue) : List Text := [i.file, i.kind, i.severity.name, i.description, i.pattern, i.fix]

end Issue

namespace Recommendation

def texts (r : Recommendation) : List Text := [r.severity.name, r.kind, r.action, r.impact]

end Recommendation

theorem Severity.mended_eq_self {s : Severity} (h : s.named = s) (hname : s.name.isUtf8 = true) :
    s.mended = s := by
  rw [mended, Text.mended_eq_self hname]
  exact h

theorem Issue.mended_eq_self {i : Issue} (h : i.severity.named = i.severity)
    (htexts : ∀ t ∈ i.texts, t.isUtf8 = true) : i.mended = i := by
  simp only [texts, List.forall_mem_cons] at htexts
  obtain ⟨hfile, hkind, hseverity, hdescription, hpattern, hfix, -⟩ := htexts
  rw [mended, Text.mended_eq_self hfile, Text.mended_eq_self hkind, Severity.mended_eq_self h hseverity,
    Text.mended_eq_self hdescription, Text.mended_eq_self hpattern, Text.mended_eq_self hfix]

theorem Recommendation.mended_eq_self {r : Recommendation} (h : r.severity.named = r.severity)
    (htexts : ∀ t ∈ r.texts, t.isUtf8 = true) : r.mended = r := by
  simp only [texts, List.forall_mem_cons] at htexts
  obtain ⟨hseverity, hkind, haction, himpact, -⟩ := htexts
  rw [mended, Severity.mended_eq_self h hseverity, Text.mended_eq_self hkind,
    Text.mended_eq_self haction, Text.mended_eq_self himpact]

theorem Counts.mended_eq_self {c : Counts} (h : ∀ x ∈ c, x.1.isUtf8 = true) : c.mended = c := by
  refine map_eq_self fun x hx => ?_
  obtain ⟨k, n⟩ := x
  exact congrArg (·, n) (Text.mended_eq_self (h _ hx))

namespace Report

/-- The texts that stand in a report. -/
def texts (r : Report) : List Text :=
  [r.root, r.readiness] ++ r.issues.flatMap Issue.texts ++ r.tables.flatMap (·.map (·.1)) ++
    r.trend?.toList.map (·.direction) ++ r.recommendations.flatMap Recommendation.texts

theorem forall_mem_texts {P : Text → Prop} {r : Report} : (∀ t ∈ r.texts, P t) ↔
    P r.root ∧ P r.readiness ∧ (∀ i ∈ r.issues, ∀ t ∈ i.texts, P t) ∧ (∀ c ∈ r.tables, ∀ x ∈ c, P x.1) ∧
      (∀ t ∈ r.trend?, P t.direction) ∧ ∀ a ∈ r.recommendations, ∀ t ∈ a.texts, P t := by
  simp only [texts, List.forall_mem_append, List.forall_mem_cons, List.forall_mem_map,
    List.forall_mem_flatMap, Option.mem_toList, Option.mem_def, List.not_mem_nil, false_implies,
    implies_true, and_true, and_assoc]

/-- The levels that stand in a report. -/
def levels (r : Report) : List Severity :=
  r.issues.map (·.severity) ++ r.recommendations.map (·.severity)

/-- Levels and tables as they are kept: a level that is not known by another name, and tables in order. -/
structure Proper (r : Report) : Prop where
  levels : ∀ s ∈ r.levels, s.named = s
  tables : ∀ c ∈ r.tables, c.Sorted

section

variable {r : Report} (h : r.Proper)

include h

theorem named_eq_self : r.named = r := by
  obtain ⟨hlevels, htables⟩ := h
  simp only [levels, List.forall_mem_append, List.forall_mem_map] at hlevels
  simp only [tables, List.forall_mem_append, Option.mem_toList] at htables
  have hissue : ∀ i ∈ r.issues, i.named = i := fun i hi => by rw [Issue.named, hlevels.1 i hi]
  have hissues : r.issues?.map (fun is => is.map Issue.named) = r.issues? := by
    refine map?_eq_self fun is his => map_eq_self fun i hi => hissue i ?_
    rw [issues, Option.mem_def.1 his]
    exact hi
  have hseverities : r.bySeverity?.map Counts.rebuilt = r.bySeverity? :=
    map?_eq_self fun c hc => Counts.rebuilt_eq_self (htables.1 c hc)
  have hkinds : r.byKind?.map Counts.rebuilt = r.byKind? :=
    map?_eq_self fun c hc => Counts.rebuilt_eq_self (htables.2 c hc)
  have hadvice : r.recommendations.map Recommendation.named = r.recommendations :=
    map_eq_self fun a ha => by rw [Recommendation.named, hlevels.2 a ha]
  rw [named, hissues, hseverities, hkinds, hadvice]

theorem mended_eq_self (htexts : ∀ t ∈ r.texts, t.isUtf8 = true) : r.mended = r := by
  have hlevels := h.levels
  simp only [levels, List.forall_mem_append, List.forall_mem_map] at hlevels
  obtain ⟨hroot, hreadiness, hissue, htables, htrend, hadvice⟩ := forall_mem_texts.1 htexts
  simp only [tables, List.forall_mem_append, Option.mem_toList] at htables
  have hissues : r.issues?.map (fun is => is.map Issue.mended) = r.issues? := by
    refine map?_eq_self fun is his => map_eq_self fun i hi => ?_
    have hmem : i ∈ r.issues := by
      rw [issues, Option.mem_def.1 his]
      exact hi
    exact Issue.mended_eq_self (hlevels.1 i hmem) (hissue i hmem)
  have hseverities : r.bySeverity?.map Counts.mended = r.bySeverity? :=
    map?_eq_self fun c hc => Counts.mended_eq_self (htables.1 c hc)
  have hkinds : r.byKind?.map Counts.mended = r.byKind? :=
    map?_eq_self fun c hc => Counts.mended_eq_self (htables.2 c hc)
  have htrend : r.trend?.map Trend.mended = r.trend? :=
    map?_eq_self fun t ht => by rw [Trend.mended, Text.mended_eq_self (htrend t ht)]
  have hadvice : r.recommendations.map Recommendation.mended = r.recommendations :=
    map_eq_self fun a ha => Recommendation.mended_eq_self (hlevels.2 a ha) (hadvice a ha)
  rw [mended, Text.mended_eq_self hroot, Text.mended_eq_self hreadiness, hissues, hseverities, hkinds,
    htrend, hadvice]

end

end Report

end LiteralAudit
