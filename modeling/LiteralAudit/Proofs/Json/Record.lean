import LiteralAudit.Proofs.Json.RoundTrip
import LiteralAudit.Proofs.Time.Rfc3339
import LiteralAudit.Report.Codec

/-!
# Records in JSON

A record is written as an object whose members have fixed names, some of which may be left out
(`Json.membersOf`). When no two of the names are alike but for their letter case, each field is read from
its own member (`Json.valuesOf_membersOf`), and a field that was left out stays empty.
-/

namespace LiteralAudit.Json

/-! ## Members -/

/-- The members that are written for fields, some of which are left out. -/
def membersOf (fs : List (String × Option Json)) : List (Text × Json) :=
  fs.filterMap fun f => f.2.map (Text.ofString f.1, ·)

/-- The fields that are written. -/
def written (fs : List (String × Option Json)) : List (String × Json) :=
  fs.filterMap fun f => f.2.map (f.1, ·)

theorem record_written (fs : List (String × Option Json)) :
    record (written fs) = .object (membersOf fs) := by
  rw [record, written, membersOf, List.map_filterMap]
  simp only [Option.map_map]
  rfl

theorem written_append (fs gs : List (String × Option Json)) :
    written (fs ++ gs) = written fs ++ written gs := List.filterMap_append

theorem omitted_eq_written (empty : Bool) (name : String) (j : Json) :
    omitted empty name j = written [(name, if empty then none else some j)] := by
  cases empty <;> rfl

/-- A name as it is compared with others. -/
def folded (name : Text) : List Char := name.chars.map foldChar

/-- No two fields have names that are taken for each other. -/
def Apart (fs : List (String × Option Json)) : Prop := (fs.map fun f => folded f.1).Nodup

section Members

variable {fs : List (String × Option Json)} {name : String} {v : Json} {v? : Option Json}

theorem membersOf_cons_some (name : String) (v : Json) (fs : List (String × Option Json)) :
    membersOf ((name, some v) :: fs) = (Text.ofString name, v) :: membersOf fs := rfl

theorem valuesOf_cons (m : Text × Json) (ms : List (Text × Json)) (name : Text) :
    valuesOf (m :: ms) name = if names m.1 name then m.2 :: valuesOf ms name else valuesOf ms name := by
  obtain ⟨k, v⟩ := m
  simp only [valuesOf, List.filter_cons]
  cases names k name <;> rfl

theorem names_iff (m name : Text) : names m name = true ↔ folded m = folded name := beq_iff_eq

theorem valuesOf_of_not_mem (h : folded name ∉ fs.map fun f => folded f.1) :
    valuesOf (membersOf fs) name = [] := by
  induction fs with
  | nil => rfl
  | cons f fs ih =>
    obtain ⟨n, v?⟩ := f
    rw [List.map_cons, List.mem_cons, not_or] at h
    cases v? with
    | none => exact ih h.2
    | some v =>
      have hne : ¬names n name = true := fun heq => h.1 ((names_iff _ _).1 heq).symm
      rw [membersOf_cons_some, valuesOf_cons, if_neg hne]
      exact ih h.2

/-- Each field has the value that was written for it, if any. -/
theorem valuesOf_membersOf (hfs : Apart fs) (h : (name, v?) ∈ fs) :
    valuesOf (membersOf fs) name = v?.toList := by
  induction fs with
  | nil => cases h
  | cons f fs ih =>
    obtain ⟨hnot, hnodup⟩ := List.nodup_cons.1 hfs
    obtain rfl | hmem := List.mem_cons.1 h
    · have hrest := valuesOf_of_not_mem hnot
      cases v? with
      | none => exact hrest
      | some v =>
        have hname : names (Text.ofString name) name = true := (names_iff _ _).2 rfl
        rw [membersOf_cons_some, valuesOf_cons, if_pos hname, hrest]
        rfl
    · obtain ⟨n, w?⟩ := f
      have hmore := ih hnodup hmem
      cases w? with
      | none => exact hmore
      | some w =>
        have hne : ¬names n name = true := by
          intro heq
          have hsame : folded n = folded name := (names_iff _ _).1 heq
          exact hnot (List.mem_map.2 ⟨_, hmem, hsame.symm⟩)
        rw [membersOf_cons_some, valuesOf_cons, if_neg hne]
        exact hmore

/-! ## Fields -/

variable {α : Type} {read? : Json → Option α} {missing a : α}

/-- A field that was written is read by its own reader. -/
theorem field?_some (hfs : Apart fs) (h : (name, some v) ∈ fs) (hread : read? v = some a)
    (hnull : v ≠ .null) : field? (membersOf fs) name read? missing = some a := by
  rw [field?, valuesOf_membersOf hfs h]
  cases v with
  | null => exact absurd rfl hnull
  | _ => simp [hread]

/-- A field that was left out stays as it was. -/
theorem field?_none (hfs : Apart fs) (h : (name, none) ∈ fs) :
    field? (membersOf fs) name read? missing = some missing := by
  rw [field?, valuesOf_membersOf hfs h]
  rfl

/-- A double that JSON can hold, and whose text reads back as it. -/
def Keeps (x : Float) : Prop := (ofFloat? x).bind float? = some x

instance (x : Float) : Decidable (Keeps x) := inferInstanceAs (Decidable (_ = some x))

theorem Keeps.ofFloat?_eq {x : Float} (h : Keeps x) : ofFloat? x = some (ofFloat x) := by
  obtain ⟨j, hj, -⟩ := Option.bind_eq_some_iff.1 h
  rw [ofFloat, hj, Option.getD_some]

theorem Keeps.float?_ofFloat {x : Float} (h : Keeps x) : float? (ofFloat x) = some x := by
  have hwritten := h.ofFloat?_eq
  rwa [Keeps, hwritten, Option.bind_some] at h

section Values

variable {n : String} (hfs : Apart fs)

include hfs

theorem field?_text {t : Text} (h : (n, some (.string t)) ∈ fs) (missing : Text) :
    field? (membersOf fs) n text? missing = some t :=
  field?_some hfs h rfl (by simp)

/-- A text that is left out when it is empty. -/
theorem field?_omitted {t : Text} (h : (n, if t.isEmpty then none else some (.string t)) ∈ fs) :
    field? (membersOf fs) n text? [] = some t := by
  by_cases hempty : t.isEmpty = true
  · rw [if_pos hempty] at h
    rw [field?_none hfs h, List.isEmpty_iff.1 hempty]
  · rw [if_neg hempty] at h
    exact field?_text hfs h []

theorem field?_bool {b : Bool} (h : (n, some (.bool b)) ∈ fs) (missing : Bool) :
    field? (membersOf fs) n bool? missing = some b :=
  field?_some hfs h rfl (by simp)

theorem field?_int {i : Int} (h : (n, some (.ofInt i)) ∈ fs) (hfits : Number.fits64 i = true)
    (missing : Int) : field? (membersOf fs) n int? missing = some i :=
  field?_some hfs h (int?_ofInt hfits) (by simp [ofInt])

theorem field?_float {x : Float} (h : (n, some (.ofFloat x)) ∈ fs) (hkeeps : Keeps x)
    (missing : Float) : field? (membersOf fs) n float? missing = some x := by
  refine field?_some hfs h hkeeps.float?_ofFloat fun hnull => ?_
  have hread := hkeeps.float?_ofFloat
  rw [hnull] at hread
  cases hread

theorem field?_time {t : Timestamp} (h : (n, some (.string (t.rfc3339 true))) ∈ fs) (htext : t.HasText)
    (missing : Timestamp) : field? (membersOf fs) n timestamp? missing = some t :=
  field?_some hfs h (Timestamp.readRfc3339?_rfc3339 htext) (by simp)

end Values

variable {readInto? : Option α → Json → Option α}

theorem optional?_some (hfs : Apart fs) (h : (name, some v) ∈ fs) (hread : readInto? none v = some a)
    (hnull : v ≠ .null) : optional? (membersOf fs) name readInto? = some (some a) := by
  rw [optional?, valuesOf_membersOf hfs h]
  cases v with
  | null => exact absurd rfl hnull
  | _ => simp [hread]

theorem optional?_null (hfs : Apart fs) (h : (name, some .null) ∈ fs) :
    optional? (membersOf fs) name readInto? = some none := by
  rw [optional?, valuesOf_membersOf hfs h]
  rfl

theorem optional?_none (hfs : Apart fs) (h : (name, none) ∈ fs) :
    optional? (membersOf fs) name readInto? = some none := by
  rw [optional?, valuesOf_membersOf hfs h]
  rfl

end Members

/-! ## Writing and mending -/

theorem isUtf8_ofString (s : String) : (Text.ofString s).isUtf8 = true := by
  rw [Text.ofString_eq_ofChars]
  exact Text.isUtf8_ofChars _

/-- The names of fields are valid UTF-8, so that only the values are mended. -/
theorem mended_membersOf (fs : List (String × Option Json)) :
    mendedFields (membersOf fs) = membersOf (fs.map fun f => (f.1, f.2.map mended)) := by
  induction fs with
  | nil => rfl
  | cons f fs ih =>
    obtain ⟨name, v?⟩ := f
    cases v? with
    | none => exact ih
    | some v =>
      rw [membersOf_cons_some, mendedFields, ih, Text.mended_eq_self (isUtf8_ofString name)]
      rfl

theorem fits_membersOf {n : Nat} {fs : List (String × Option Json)}
    (h : ∀ f ∈ fs, ∀ v ∈ f.2, Fits n v) : Fits (n + 1) (.object (membersOf fs)) := by
  refine .object fun m hm => ?_
  obtain ⟨f, hf, hm⟩ := List.mem_filterMap.1 hm
  obtain ⟨v, hv, rfl⟩ := Option.map_eq_some_iff.1 hm
  exact h f hf v hv

theorem fits_ofInt (n : Nat) (i : Int) : Fits n (ofInt i) := by
  obtain ⟨cs, hcs, hwritten⟩ := isNumeral_ofInt i
  rw [ofInt, hwritten]
  exact .number hcs

theorem fits_ofFloat? {n : Nat} {x : Float} {j : Json} (h : ofFloat? x = some j) : Fits n j := by
  obtain ⟨cs, hcs, rfl⟩ := isNumeral_ofFloat? h
  exact .number hcs

/-! ## Lists -/

/-- A list is read item by item when nothing was there before. -/
theorem list?_array {α β : Type} {read? : α → Json → Option α} {blank : α} {write : β → Json}
    {result : β → α} {xs : List β} (hread : ∀ x ∈ xs, read? blank (write x) = some (result x))
    (hnull : ∀ x ∈ xs, write x ≠ .null) :
    list? read? blank none (.array (xs.map write)) = some ⟨xs.map result, []⟩ := by
  have hitems : ∀ item? : α × Json → Option α, (∀ x ∈ xs, item? (blank, write x) = some (result x)) →
      ((List.replicate (xs.map write).length blank).zip (xs.map write)).mapM item? =
        some (xs.map result) := by
    intro item? hitem
    clear hread hnull
    induction xs with
    | nil => rfl
    | cons x xs ih =>
      have hmore := ih fun y hy => hitem y (List.mem_cons_of_mem x hy)
      simp only [List.map_cons, List.length_cons, List.replicate_succ, List.zip_cons_cons,
        List.mapM_cons, hitem x List.mem_cons_self, hmore]
      rfl
  cases hxs : xs.map write with
  | nil =>
    rw [List.map_eq_nil_iff.1 hxs]
    rfl
  | cons j js =>
    have hslots : ([] : List α).take (j :: js).length ++
        List.replicate ((j :: js).length - ([] : List α).length) blank =
          List.replicate (j :: js).length blank := rfl
    rw [hxs] at hitems
    simp only [list?, Option.getD_none, List.append_nil, hslots, List.drop_nil]
    rw [hitems]
    · rfl
    · intro x hx
      have hne := hnull x hx
      rw [← hread x hx]
      split
      · next heq => exact absurd (Prod.mk.inj heq).2 hne
      · next heq =>
        obtain ⟨rfl, rfl⟩ := Prod.mk.inj heq
        rfl

end LiteralAudit.Json
