import LiteralAudit.Proofs.Path.Clean
import LiteralAudit.Format

/-!
# Tables that are read back

RFC 4180 says which tables a text stands for (`Csv.IsTable`): fields with or without quotes, a comma between
two fields and a line break between two records. `Csv.read?` reads exactly these texts, byte by byte and
with nothing undone but the doubled quotes (`Csv.read?_eq_some_iff`). A report is written so that such a
reader gets every field of every issue as it is (`write_csv_reads_back`).

A line break is CR LF or, as in most files, LF alone, and a field may have any byte, also those beyond the
ASCII that the RFC has.
-/

namespace LiteralAudit.Format.Csv

/-! ## Texts that stand for tables -/

/-- A byte that must stand between quotes. -/
def IsSpecial (b : UInt8) : Prop := b = '"' ∨ b = ',' ∨ b = '\n' ∨ b = '\r'

/-- A text with each of its quotes doubled. -/
def doubled (t : Text) : Text := t.flatMap fun (b : UInt8) => if b == '"' then [b, b] else [b]

/-- How a field may be spelled: as it is, if nothing in it is special, or in quotes. -/
def Spells (w field : Text) : Prop :=
  (w = field ∧ ∀ b ∈ field, ¬IsSpecial b) ∨ w = "\"" ++ doubled field ++ "\""

/-- A text of some parts, each with an end behind it. -/
inductive Ended {α : Type} (Writes : Text → α → Prop) (IsEnd : Text → Prop) : Text → List α → Prop
  | nil : Ended Writes IsEnd [] []
  | concat {t w e : Text} {parts : List α} {part : α} : Ended Writes IsEnd t parts →
      Writes w part → IsEnd e → Ended Writes IsEnd (t ++ w ++ e) (parts ++ [part])

theorem eq_nil_of_ended {α : Type} {Writes : Text → α → Prop} {IsEnd : Text → Prop} {t : Text}
    (h : Ended Writes IsEnd t []) : t = [] := by
  generalize hparts : [] = parts at h
  cases h with
  | nil => rfl
  | concat _ _ _ => exact absurd hparts.symm (List.append_ne_nil_of_right_ne_nil _ (List.cons_ne_nil _ _))

/-- Fields with a comma behind each of them. -/
abbrev IsFront : Text → List Text → Prop := Ended Spells (· = ",")

/-- A line that stands for a record: it has a last field, and a comma behind each of the others. -/
def IsRecord (line : Text) (fields : List Text) : Prop :=
  ∃ front w before last, IsFront front before ∧ Spells w last ∧ line = front ++ w ∧
    fields = before ++ [last]

/-- What ends a record. -/
def IsLineBreak (t : Text) : Prop := t = "\n" ∨ t = "\r\n"

/-- A text that stands for a table: the last record may be without a line break. -/
def IsTable (t : Text) (records : List (List Text)) : Prop :=
  Ended IsRecord IsLineBreak t records ∨
    ∃ front line before last, Ended IsRecord IsLineBreak front before ∧ IsRecord line last ∧
      line ≠ [] ∧ t = front ++ line ∧ records = before ++ [last]

/-! ## The reader -/

/-- Where a reader stands. -/
inductive Place where
  /-- In front of a field, or behind an empty one. -/
  | front
  /-- In a field without quotes, or behind it. -/
  | plain
  /-- Between quotes. -/
  | quoted
  /-- Behind a quote that ends a field, unless another one follows. -/
  | closing
  /-- Between CR and LF. -/
  | lineEnd

/-- Behind a place, a field may end. -/
def Place.IsBehindField : Place → Prop
  | .front | .plain | .closing => True
  | .quoted | .lineEnd => False

/-- What was read so far, with the last byte, the last field and the last record first. -/
structure Reader where
  place : Place := .front
  field : Text := []
  fields : List Text := []
  records : List (List Text) := []

namespace Reader

def take (s : Reader) (b : UInt8) (place : Place) : Reader := { s with place, field := b :: s.field }

def endField (s : Reader) : Reader :=
  { s with place := .front, field := [], fields := s.field.reverse :: s.fields }

def endRecord (s : Reader) : Reader := { records := s.endField.fields.reverse :: s.records }

/-- Goes on behind a field, at a byte that may follow one. -/
def separate? (s : Reader) (b : UInt8) : Option Reader :=
  if b == ',' then some s.endField
  else if b == '\n' then some s.endRecord
  else if b == '\r' then some { s with place := .lineEnd }
  else none

/-- Reads a byte; none where the byte must not stand. -/
def step (s : Reader) (b : UInt8) : Option Reader :=
  match s.place with
  | .front =>
    if b == '"' then some { s with place := .quoted }
    else some ((s.separate? b).getD (s.take b .plain))
  | .plain => if b == '"' then none else some ((s.separate? b).getD (s.take b .plain))
  | .quoted => some (if b == '"' then { s with place := .closing } else s.take b .quoted)
  | .closing => if b == '"' then some (s.take b .quoted) else s.separate? b
  | .lineEnd => if b == '\n' then some s.endRecord else none

/-- The records at the end of a text; none inside quotes and behind a single CR. -/
def finish? (s : Reader) : Option (List (List Text)) :=
  match s.place with
  | .front => some (if s.fields.isEmpty then s.records.reverse else s.endRecord.records.reverse)
  | .plain | .closing => some s.endRecord.records.reverse
  | .quoted | .lineEnd => none

end Reader

/-- The table that a text stands for. -/
def read? (t : Text) : Option (List (List Text)) := (t.foldlM Reader.step {}).bind Reader.finish?

/-! ## Every table is read -/

theorem doubled_cons (b : UInt8) (t : Text) :
    doubled (b :: t) = (if b == '"' then [b, b] else [b]) ++ doubled t := rfl

namespace Reader

variable {acc t w field : Text} {fs : List Text} {rs : List (List Text)}

theorem foldlM_doubled : (doubled t).foldlM step ⟨.quoted, acc, fs, rs⟩ =
    some ⟨.quoted, t.reverse ++ acc, fs, rs⟩ := by
  induction t generalizing acc with
  | nil => rfl
  | cons b t ih =>
    have hbyte : List.foldlM step ⟨.quoted, acc, fs, rs⟩ (if b == '"' then [b, b] else [b]) =
        some ⟨.quoted, b :: acc, fs, rs⟩ := by
      by_cases hquote : b = '"'
      · simp [hquote, step, take]
      · simp [hquote, step, take]
    rw [doubled_cons, List.foldlM_append, hbyte]
    show (doubled t).foldlM step ⟨.quoted, b :: acc, fs, rs⟩ = _
    rw [ih, List.reverse_cons, List.append_assoc]
    rfl

theorem separate?_of_not_isSpecial {s : Reader} {b : UInt8} (h : ¬IsSpecial b) : s.separate? b = none := by
  simp only [IsSpecial, not_or] at h
  simp [separate?, h]

theorem step_of_not_isSpecial {place : Place} {b : UInt8} (hplace : place = .front ∨ place = .plain)
    (h : ¬IsSpecial b) : step ⟨place, acc, fs, rs⟩ b = some ⟨.plain, b :: acc, fs, rs⟩ := by
  have hquote : b ≠ '"' := fun hb => h (.inl hb)
  rcases hplace with rfl | rfl
  · simp [step, take, hquote, separate?_of_not_isSpecial h]
  · simp [step, take, hquote, separate?_of_not_isSpecial h]

theorem foldlM_of_not_isSpecial (h : ∀ b ∈ t, ¬IsSpecial b) :
    t.foldlM step ⟨.plain, acc, fs, rs⟩ = some ⟨.plain, t.reverse ++ acc, fs, rs⟩ := by
  induction t generalizing acc with
  | nil => rfl
  | cons b t ih =>
    rw [List.foldlM_cons, step_of_not_isSpecial (.inr rfl) (h b List.mem_cons_self)]
    show t.foldlM step ⟨.plain, b :: acc, fs, rs⟩ = _
    rw [ih fun b hb => h b (List.mem_cons_of_mem _ hb), List.reverse_cons, List.append_assoc]
    rfl

/-- A spelling of a field is read as the field. -/
theorem exists_foldlM_of_spells (fs : List Text) (rs : List (List Text)) (h : Spells w field) :
    ∃ place, place.IsBehindField ∧ (w ≠ [] → place ≠ .front) ∧
      w.foldlM step ⟨.front, [], fs, rs⟩ = some ⟨place, field.reverse, fs, rs⟩ := by
  rcases h with ⟨rfl, hplain⟩ | rfl
  · cases w with
    | nil => exact ⟨.front, trivial, fun h => absurd rfl h, rfl⟩
    | cons b w =>
      refine ⟨.plain, trivial, fun _ => Place.noConfusion, ?_⟩
      rw [List.foldlM_cons, step_of_not_isSpecial (.inl rfl) (hplain b List.mem_cons_self),
        List.reverse_cons]
      exact foldlM_of_not_isSpecial fun b hb => hplain b (List.mem_cons_of_mem _ hb)
  · refine ⟨.closing, trivial, fun _ => Place.noConfusion, ?_⟩
    rw [List.foldlM_append, List.foldlM_append]
    show ((doubled field).foldlM step ⟨.quoted, [], fs, rs⟩ >>= _) = _
    rw [foldlM_doubled, List.append_nil]
    rfl

variable {place : Place}

theorem step_of_separate? {s s' : Reader} {b : UInt8} (hplace : s.place.IsBehindField) (hb : b ≠ '"')
    (h : s.separate? b = some s') : s.step b = some s' := by
  obtain ⟨place, field, fs, rs⟩ := s
  cases place with
  | front => simp [step, hb, h]
  | plain => simp [step, hb, h]
  | quoted => cases hplace
  | closing => simp [step, hb, h]
  | lineEnd => cases hplace

theorem step_comma (h : place.IsBehindField) :
    step ⟨place, field.reverse, fs, rs⟩ ',' = some ⟨.front, [], field :: fs, rs⟩ := by
  refine (step_of_separate? h (by decide) rfl).trans ?_
  rw [endField, List.reverse_reverse]

theorem step_lf (h : place.IsBehindField) :
    step ⟨place, field.reverse, fs, rs⟩ '\n' = some ⟨.front, [], [], (fs.reverse ++ [field]) :: rs⟩ := by
  refine (step_of_separate? h (by decide) rfl).trans ?_
  rw [endRecord, endField, List.reverse_reverse, List.reverse_cons]

theorem step_cr (h : place.IsBehindField) :
    step ⟨place, field.reverse, fs, rs⟩ '\r' = some ⟨.lineEnd, field.reverse, fs, rs⟩ :=
  step_of_separate? h (by decide) rfl

theorem foldlM_of_isLineBreak (hplace : place.IsBehindField) (h : IsLineBreak t) :
    t.foldlM step ⟨place, field.reverse, fs, rs⟩ =
      some ⟨.front, [], [], (fs.reverse ++ [field]) :: rs⟩ := by
  obtain rfl | rfl := h
  · exact Option.bind_eq_some_iff.2 ⟨_, step_lf hplace, rfl⟩
  · refine Option.bind_eq_some_iff.2 ⟨_, step_cr hplace, ?_⟩
    show some (endRecord ⟨.lineEnd, field.reverse, fs, rs⟩) = _
    rw [endRecord, endField, List.reverse_reverse, List.reverse_cons]

theorem foldlM_of_isFront (h : IsFront t fs) :
    t.foldlM step ⟨.front, [], [], rs⟩ = some ⟨.front, [], fs.reverse, rs⟩ := by
  induction h with
  | nil => rfl
  | @concat t w e before field _ hw he ih =>
    obtain ⟨place, hplace, -, hread⟩ := exists_foldlM_of_spells before.reverse rs hw
    obtain rfl := he
    rw [List.foldlM_append, List.foldlM_append, ih]
    show (List.foldlM step ⟨.front, [], before.reverse, rs⟩ w >>= _) = _
    rw [hread, List.reverse_append]
    show List.foldlM step ⟨place, field.reverse, before.reverse, rs⟩ "," = _
    exact Option.bind_eq_some_iff.2 ⟨_, step_comma hplace, rfl⟩

/-- A line is read as its record, but for what ends it. -/
theorem exists_foldlM_of_isRecord (rs : List (List Text)) (h : IsRecord t fs) :
    ∃ place field before, place.IsBehindField ∧ fs = before ++ [field] ∧
      (t ≠ [] → place ≠ .front ∨ before ≠ []) ∧
      t.foldlM step ⟨.front, [], [], rs⟩ = some ⟨place, field.reverse, before.reverse, rs⟩ := by
  obtain ⟨front, w, before, field, hfront, hw, rfl, rfl⟩ := h
  obtain ⟨place, hplace, hmoved, hread⟩ := exists_foldlM_of_spells before.reverse rs hw
  refine ⟨place, field, before, hplace, rfl, ?_, ?_⟩
  · intro hne
    by_cases hempty : w = []
    · right
      rintro rfl
      exact hne (List.append_eq_nil_iff.2 ⟨eq_nil_of_ended hfront, hempty⟩)
    · exact .inl (hmoved hempty)
  · rw [List.foldlM_append, foldlM_of_isFront hfront]
    exact hread

theorem foldlM_of_ended (h : Ended IsRecord IsLineBreak t rs) :
    t.foldlM step {} = some ⟨.front, [], [], rs.reverse⟩ := by
  induction h with
  | nil => rfl
  | @concat t line e before fields _ hline he ih =>
    obtain ⟨place, field, front, hplace, rfl, -, hread⟩ :=
      exists_foldlM_of_isRecord before.reverse hline
    rw [List.foldlM_append, List.foldlM_append, ih]
    show ((List.foldlM step ⟨.front, [], [], before.reverse⟩ line) >>= _) = _
    rw [hread, List.reverse_append]
    show List.foldlM step ⟨place, field.reverse, front.reverse, before.reverse⟩ e = _
    rw [foldlM_of_isLineBreak hplace he, List.reverse_reverse]
    rfl

theorem finish?_eq (hplace : place.IsBehindField) (h : place ≠ .front ∨ fs ≠ []) :
    finish? ⟨place, field.reverse, fs, rs⟩ = some (rs.reverse ++ [fs.reverse ++ [field]]) := by
  cases place <;> simp_all [finish?, endRecord, endField, Place.IsBehindField]

end Reader

theorem read?_of_isTable {t : Text} {records : List (List Text)} (h : IsTable t records) :
    read? t = some records := by
  obtain h | ⟨front, line, before, last, hfront, hline, hne, rfl, rfl⟩ := h
  · rw [read?, Reader.foldlM_of_ended h]
    simp [Reader.finish?]
  · obtain ⟨place, field, fields, hplace, rfl, hmoved, hread⟩ :=
      Reader.exists_foldlM_of_isRecord before.reverse hline
    rw [read?, List.foldlM_append, Reader.foldlM_of_ended hfront]
    show (List.foldlM Reader.step ⟨.front, [], [], before.reverse⟩ line).bind _ = _
    have hne' := (hmoved hne).imp id (mt List.reverse_eq_nil_iff.1)
    rw [hread, Option.bind_some, Reader.finish?_eq hplace hne', List.reverse_reverse,
      List.reverse_reverse]

/-! ## Only tables are read -/

/-- What a reader at a place has seen of a field since its start. -/
def Place.Holds : Place → Text → Text → Prop
  | .front, w, field => w = [] ∧ field = []
  | .plain, w, field => w = field ∧ w ≠ [] ∧ ∀ b ∈ field, ¬IsSpecial b
  | .quoted, w, field => w = "\"" ++ doubled field
  | .closing, w, field => w = "\"" ++ doubled field ++ "\""
  | .lineEnd, w, field => ∃ v, Spells v field ∧ w = v ++ "\r"

theorem Place.Holds.spells {place : Place} {w field : Text} (h : place.Holds w field)
    (hplace : place.IsBehindField) : Spells w field := by
  cases place with
  | front =>
    obtain ⟨rfl, rfl⟩ := h
    exact .inl ⟨rfl, fun b hb => absurd hb List.not_mem_nil⟩
  | plain => exact .inl ⟨h.1, h.2.2⟩
  | quoted => cases hplace
  | closing => exact .inr h
  | lineEnd => cases hplace

theorem Place.Holds.eq_front {place : Place} {field : Text} (h : place.Holds [] field)
    (hplace : place.IsBehindField) : place = .front := by
  cases place with
  | front => rfl
  | plain => exact absurd rfl h.2.1
  | quoted => cases hplace
  | closing => cases h
  | lineEnd => cases hplace

theorem eq_nil_of_isFront_nil {fields : List Text} (h : IsFront [] fields) : fields = [] := by
  generalize hempty : [] = t at h
  cases h with
  | nil => rfl
  | concat _ _ he =>
    obtain rfl := he
    exact absurd hempty.symm (List.append_ne_nil_of_right_ne_nil _ (List.cons_ne_nil _ _))

namespace Reader

variable {s s' : Reader} {t : Text} {b : UInt8}

/-- A reader has read a text: the lines of its records, what is in front of the field it is at, and a part
of that field. -/
def HasRead (s : Reader) (t : Text) : Prop :=
  ∃ lines front w, Ended IsRecord IsLineBreak lines s.records.reverse ∧
    IsFront front s.fields.reverse ∧ s.place.Holds w s.field.reverse ∧ t = lines ++ front ++ w

theorem hasRead_endRecord {lines front w lineBreak : Text}
    (hlines : Ended IsRecord IsLineBreak lines s.records.reverse)
    (hfront : IsFront front s.fields.reverse) (hw : Spells w s.field.reverse)
    (hbreak : IsLineBreak lineBreak) : s.endRecord.HasRead (lines ++ (front ++ w) ++ lineBreak) := by
  refine ⟨_, [], [], ?_, .nil, ⟨rfl, rfl⟩, (List.append_nil _).symm.trans (List.append_nil _).symm⟩
  rw [endRecord, endField, List.reverse_cons, List.reverse_cons]
  exact .concat hlines ⟨front, w, _, _, hfront, hw, rfl, rfl⟩ hbreak

theorem HasRead.separate? (h : s.HasRead t) (hplace : s.place.IsBehindField)
    (hb : s.separate? b = some s') : s'.HasRead (t ++ [b]) := by
  obtain ⟨lines, front, w, hlines, hfront, hw, rfl⟩ := h
  have hspells := hw.spells hplace
  unfold Reader.separate? at hb
  split_ifs at hb with hcomma hlf hcr
  · obtain rfl := Option.some.inj hb
    obtain rfl := eq_of_beq hcomma
    refine ⟨lines, front ++ w ++ ",", [], hlines, ?_, ⟨rfl, rfl⟩, ?_⟩
    · rw [endField, List.reverse_cons]
      exact .concat hfront hspells rfl
    · simp only [List.append_assoc, List.append_nil]
      rfl
  · obtain rfl := Option.some.inj hb
    obtain rfl := eq_of_beq hlf
    rw [List.append_assoc lines]
    exact hasRead_endRecord hlines hfront hspells (.inl rfl)
  · obtain rfl := Option.some.inj hb
    obtain rfl := eq_of_beq hcr
    exact ⟨lines, front, w ++ "\r", hlines, hfront, ⟨w, hspells, rfl⟩, List.append_assoc _ _ _⟩

theorem not_isSpecial_of_separate? (hquote : b ≠ '"') (h : s.separate? b = none) : ¬IsSpecial b := by
  unfold Reader.separate? at h
  split_ifs at h with hcomma hlf hcr
  simp only [IsSpecial, not_or]
  exact ⟨hquote, mt beq_iff_eq.2 hcomma, mt beq_iff_eq.2 hlf, mt beq_iff_eq.2 hcr⟩

/-- A byte that is no special one goes on with a field. -/
theorem HasRead.take (h : s.HasRead t) (hb : ¬IsSpecial b)
    (hplace : s.place = .front ∨ s.place = .plain) : (s.take b .plain).HasRead (t ++ [b]) := by
  obtain ⟨lines, front, w, hlines, hfront, hw, rfl⟩ := h
  have hplain : w = s.field.reverse ∧ ∀ b ∈ s.field.reverse, ¬IsSpecial b := by
    obtain hplace | hplace := hplace <;> rw [hplace] at hw
    · obtain ⟨rfl, hempty⟩ := hw
      rw [hempty]
      exact ⟨rfl, fun b hb => absurd hb List.not_mem_nil⟩
    · exact ⟨hw.1, hw.2.2⟩
  obtain ⟨rfl, hplain⟩ := hplain
  refine ⟨lines, front, s.field.reverse ++ [b], hlines, hfront, ?_, List.append_assoc _ _ _⟩
  rw [Reader.take, List.reverse_cons]
  refine ⟨rfl, List.append_ne_nil_of_right_ne_nil _ (List.cons_ne_nil _ _), ?_⟩
  intro c hc
  obtain hc | hc := List.mem_append.1 hc
  · exact hplain c hc
  · rwa [List.mem_singleton.1 hc]

theorem doubled_concat (t : Text) (b : UInt8) :
    doubled (t ++ [b]) = doubled t ++ if b == '"' then [b, b] else [b] := by
  simp [doubled]

theorem HasRead.unquoted (h : s.HasRead t) (hquote : b ≠ '"')
    (hplace : s.place = .front ∨ s.place = .plain) :
    ((s.separate? b).getD (s.take b .plain)).HasRead (t ++ [b]) := by
  have hends : s.place.IsBehindField := by
    obtain hplace | hplace := hplace <;> rw [hplace] <;> trivial
  cases hseparate : s.separate? b with
  | none => exact h.take (not_isSpecial_of_separate? hquote hseparate) hplace
  | some s' => exact h.separate? hends hseparate

/-- What was read with one byte more is what the step with that byte leaves. -/
theorem HasRead.step (h : s.HasRead t) (hb : s.step b = some s') : s'.HasRead (t ++ [b]) := by
  unfold Reader.step at hb
  obtain ⟨lines, front, w, hlines, hfront, hw, rfl⟩ := id h
  cases hplace : s.place with
  | front =>
    simp only [hplace] at hb hw
    split_ifs at hb with hquote <;> obtain rfl := Option.some.inj hb
    · obtain rfl := eq_of_beq hquote
      obtain ⟨rfl, hempty⟩ := hw
      refine ⟨lines, front, "\"", hlines, hfront, ?_, by rw [List.append_nil]; rfl⟩
      show ("\"" : Text) = "\"" ++ doubled s.field.reverse
      rw [hempty]
      rfl
    · exact h.unquoted (mt beq_iff_eq.2 hquote) (.inl hplace)
  | plain =>
    simp only [hplace] at hb
    split_ifs at hb with hquote
    obtain rfl := Option.some.inj hb
    exact h.unquoted (mt beq_iff_eq.2 hquote) (.inr hplace)
  | quoted =>
    simp only [hplace] at hb hw
    obtain rfl := Option.some.inj hb
    split_ifs with hquote
    · obtain rfl := eq_of_beq hquote
      exact ⟨lines, front, w ++ "\"", hlines, hfront, by rw [hw]; rfl, List.append_assoc _ _ _⟩
    · refine ⟨lines, front, w ++ [b], hlines, hfront, ?_, List.append_assoc _ _ _⟩
      rw [hw, Reader.take, List.reverse_cons]
      show _ = "\"" ++ doubled (s.field.reverse ++ [b])
      rw [doubled_concat, if_neg hquote, List.append_assoc]
  | closing =>
    simp only [hplace] at hb hw
    split_ifs at hb with hquote
    · obtain rfl := Option.some.inj hb
      obtain rfl := eq_of_beq hquote
      refine ⟨lines, front, w ++ ['"'.toUInt8], hlines, hfront, ?_, List.append_assoc _ _ _⟩
      rw [hw, Reader.take, List.reverse_cons]
      show _ = "\"" ++ doubled (s.field.reverse ++ ['"'.toUInt8])
      rw [doubled_concat, if_pos hquote, List.append_assoc, List.append_assoc]
      rfl
    · exact h.separate? (by rw [hplace]; trivial) hb
  | lineEnd =>
    simp only [hplace] at hb hw
    split_ifs at hb with hlf
    obtain rfl := Option.some.inj hb
    obtain rfl := eq_of_beq hlf
    obtain ⟨v, hv, rfl⟩ := hw
    have htext : lines ++ front ++ (v ++ "\r") ++ ['\n'.toUInt8] = lines ++ (front ++ v) ++ "\r\n" := by
      simp only [List.append_assoc]
      rfl
    rw [htext]
    exact hasRead_endRecord hlines hfront hv (.inr rfl)

theorem hasRead_of_foldlM {s₀ : Reader} (hstart : s₀.HasRead []) {u : Text}
    (h : u.foldlM Reader.step s₀ = some s) : s.HasRead u := by
  induction u using List.reverseRecOn generalizing s with
  | nil =>
    obtain rfl := Option.some.inj h
    exact hstart
  | append_singleton u b ih =>
    rw [List.foldlM_append] at h
    obtain ⟨s₁, hread, hb⟩ := Option.bind_eq_some_iff.1 h
    simp only [List.foldlM_cons, List.foldlM_nil, bind_pure] at hb
    exact (ih hread).step hb

/-- A record that the text ends in. -/
theorem HasRead.isTable_endRecord (h : s.HasRead t) (hplace : s.place.IsBehindField)
    (hopen : s.place ≠ .front ∨ s.fields ≠ []) : IsTable t s.endRecord.records.reverse := by
  obtain ⟨lines, front, w, hlines, hfront, hw, rfl⟩ := h
  right
  refine ⟨lines, front ++ w, s.records.reverse, s.fields.reverse ++ [s.field.reverse], hlines,
    ⟨front, w, _, _, hfront, hw.spells hplace, rfl, rfl⟩, ?_, List.append_assoc _ _ _, ?_⟩
  · intro hempty
    obtain ⟨rfl, rfl⟩ := List.append_eq_nil_iff.1 hempty
    obtain hplace' | hfields := hopen
    · exact hplace' (hw.eq_front hplace)
    · exact hfields (List.reverse_eq_nil_iff.1 (eq_nil_of_isFront_nil hfront))
  · rw [endRecord, endField, List.reverse_cons, List.reverse_cons]

theorem HasRead.isTable {records : List (List Text)} (h : s.HasRead t) (hend : s.finish? = some records) :
    IsTable t records := by
  unfold finish? at hend
  cases hplace : s.place with
  | front =>
    simp only [hplace] at hend
    obtain rfl := Option.some.inj hend
    split_ifs with hfields
    · obtain ⟨lines, front, w, hlines, hfront, hw, rfl⟩ := h
      rw [List.isEmpty_iff.1 hfields] at hfront
      rw [hplace] at hw
      rw [eq_nil_of_ended hfront, hw.1, List.append_nil, List.append_nil]
      exact .inl hlines
    · exact h.isTable_endRecord (by rw [hplace]; trivial) (.inr (mt List.isEmpty_iff.2 hfields))
  | plain =>
    simp only [hplace] at hend
    obtain rfl := Option.some.inj hend
    exact h.isTable_endRecord (by rw [hplace]; trivial) (.inl (by rw [hplace]; exact Place.noConfusion))
  | closing =>
    simp only [hplace] at hend
    obtain rfl := Option.some.inj hend
    exact h.isTable_endRecord (by rw [hplace]; trivial) (.inl (by rw [hplace]; exact Place.noConfusion))
  | quoted =>
    simp only [hplace] at hend
    cases hend
  | lineEnd =>
    simp only [hplace] at hend
    cases hend

end Reader

/-- The reader reads the texts that stand for tables, and no others. -/
theorem read?_eq_some_iff {t : Text} {records : List (List Text)} :
    read? t = some records ↔ IsTable t records := by
  constructor
  · intro h
    obtain ⟨s, hread, hend⟩ := Option.bind_eq_some_iff.1 h
    have hstart : Reader.HasRead {} [] := ⟨[], [], [], .nil, .nil, ⟨rfl, rfl⟩, rfl⟩
    exact (Reader.hasRead_of_foldlM hstart hread).isTable hend
  · exact read?_of_isTable

/-! ## What is written stands for its table -/

theorem spells_quote (field : Text) : Spells (quote field) field := by
  unfold quote
  split_ifs with hneeds
  · exact .inr rfl
  · refine .inl ⟨rfl, ?_⟩
    intro b hb hspecial
    refine hneeds ?_
    rw [needsQuotes, Bool.or_eq_true, Bool.or_eq_true, List.any_eq_true]
    refine .inl (.inr ⟨b, hb, ?_⟩)
    obtain rfl | rfl | rfl | rfl := hspecial <;> decide

theorem Ended.flatMap {α : Type} {Writes : Text → α → Prop} {IsEnd : Text → Prop} {write : α → Text}
    {e : Text} (he : IsEnd e) {parts : List α} (h : ∀ a ∈ parts, Writes (write a) a) :
    Ended Writes IsEnd (parts.flatMap fun a => write a ++ e) parts := by
  induction parts using List.reverseRecOn with
  | nil => exact .nil
  | append_singleton parts a ih =>
    rw [List.flatMap_append, List.flatMap_singleton, ← List.append_assoc]
    refine .concat (ih fun b hb => h b (List.mem_append_left _ hb)) (h a ?_) he
    exact List.mem_append_right _ (List.mem_singleton_self a)

theorem join_concat_eq_flatMap (sep : Text) (parts : List Text) (last : Text) :
    Text.join sep (parts ++ [last]) = (parts.flatMap fun part => part ++ sep) ++ last := by
  induction parts using List.reverseRecOn generalizing last with
  | nil => simp [Text.join]
  | append_singleton parts part ih =>
    rw [Text.join_concat sep (List.append_ne_nil_of_right_ne_nil _ (List.cons_ne_nil _ _)), ih]
    simp

/-- A row is a record and a line break. -/
theorem isRecord_join {fields : List Text} (h : fields ≠ []) :
    IsRecord (Text.join "," (fields.map quote)) fields := by
  obtain ⟨before, last, rfl⟩ := (List.eq_nil_or_concat' fields).resolve_left h
  refine ⟨before.flatMap fun field => quote field ++ ",", quote last, before, last, ?_,
    spells_quote last, ?_, rfl⟩
  · refine .flatMap ?_ fun field _ => spells_quote field
    rfl
  ·   rw [List.map_append, List.map_singleton, join_concat_eq_flatMap, List.flatMap_map]

theorem isTable_report (r : Report) : IsTable (report r) (columns :: r.issues.map ofIssue) := by
  have hrows : report r = (columns :: r.issues.map ofIssue).flatMap fun fields =>
      Text.join "," (fields.map quote) ++ Text.ofString "\n" := by
    rw [List.flatMap_cons, List.flatMap_map]
    rfl
  rw [hrows]
  refine .inl (.flatMap (e := "\n") (.inl rfl) ?_)
  intro fields hfields
  refine isRecord_join ?_
  obtain rfl | hfields := List.mem_cons.1 hfields
  · exact List.cons_ne_nil _ _
  · obtain ⟨i, -, rfl⟩ := List.mem_map.1 hfields
    exact List.cons_ne_nil _ _

end LiteralAudit.Format.Csv

namespace LiteralAudit.Format

/-- A report in the format of CSV stands for one table: the names of the columns, then a record for each
issue. A reader gets that table and, for whatever is in the fields, every field as it is. -/
theorem write_csv_reads_back (format : Text) (r : Report) (h : Text.toLower format = "csv") :
    ∃ t, write format r = .ok t ∧
      Csv.read? t = some
        (List.map Text.ofString ["file_path", "line_number", "issue_type", "severity", "description",
            "pattern_matched", "suggested_fix"] ::
          r.issues.map fun i =>
            [i.file, Text.ofInt i.line, i.kind, i.severity.name, i.description, i.pattern, i.fix]) ∧
      ∀ records, Csv.IsTable t records ↔ Csv.read? t = some records := by
  refine ⟨Csv.report r, ?_, Csv.read?_of_isTable (Csv.isTable_report r), ?_⟩
  · rw [write, h]
    rfl
  · exact fun records => Csv.read?_eq_some_iff.symm

/-- An issue with fields that must be quoted for all the reasons that there are. -/
def awkward : Report where
  issues? := some [{ file := " a,b.py", line := -7, kind := "", severity := .high
                     description := "says \"x\"\r\ny", pattern := "\\.", fix := "a\rb" }]

theorem awkward_reads_back : ∃ t, write "CSV" awkward = .ok t ∧ Csv.read? t = some
    (List.map (List.map Text.ofString)
      [["file_path", "line_number", "issue_type", "severity", "description", "pattern_matched",
          "suggested_fix"],
        [" a,b.py", "-7", "", "high", "says \"x\"\r\ny", "\\.", "a\rb"]]) := by
  obtain ⟨t, hwrite, hread, -⟩ := write_csv_reads_back "CSV" awkward (by decide)
  exact ⟨t, hwrite, hread⟩

end LiteralAudit.Format
