import LiteralAudit.History
import LiteralAudit.Proofs.Disk.Listing
import LiteralAudit.Proofs.Time.RunStamp

/-!
# The files of a history

Reports are kept in one directory, each in a file named for the second of its scan. The name is one that
any directory can hold (`plain_fileName`, `isName_fileName`), it is read back as that second
(`stampOf?_fileName`), and no other second has it (`fileName_eq_iff`). What is loaded for a scan is what the
file of that name is read as (`load_of_lookup`).
-/

namespace LiteralAudit.History

/-- The file of the report of a scan, as its directory lists it. -/
def fileName (t : Timestamp) : Text := t.runStamp ++ reportSuffix

/-! ## Paths -/

/-- The parts of the directory of the reports. -/
def runsParts (dir : Text) : List Text := Path.kept dir ++ [Text.ofString "runs"]

theorem normal_runsParts (dir : Text) : Path.Normal (Path.isAbsolute dir) (runsParts dir) :=
  (Path.normal_kept dir).concat (by decide)

theorem runsParts_ne_nil (dir : Text) : runsParts dir ≠ [] := by
  simp [runsParts]

theorem runsDir_eq (dir : Text) :
    runsDir dir = Path.spell (Path.isAbsolute dir) (runsParts dir) :=
  Path.join_eq_spell dir (by decide)

theorem runPath_eq (dir : Text) {t : Timestamp} (h : Path.Plain (fileName t)) :
    runPath dir t = Path.spell (Path.isAbsolute dir) (runsParts dir ++ [fileName t]) := by
  have hnormal := normal_runsParts dir
  have hjoin := Path.join_eq_spell (runsDir dir) h
  rw [runsDir_eq, Path.isAbsolute_spell hnormal, Path.kept_spell hnormal, ← runsDir_eq] at hjoin
  exact hjoin

/-! ## Names -/

theorem fileName_eq (t : Timestamp) : fileName t =
    Timestamp.yearText t.utc.clock.date.year ++ (Timestamp.stampTail t.utc.clock ++ reportSuffix) := by
  rw [fileName, Timestamp.runStamp_eq, List.append_assoc]

theorem length_fileName (t : Timestamp) :
    (fileName t).length = (Timestamp.yearText t.utc.clock.date.year).length + 27 := by
  have hsuffix : reportSuffix.length = 12 := rfl
  rw [fileName_eq, List.length_append, List.length_append,
    Timestamp.length_stampTail t.utc.clock_valid, hsuffix]

/-- A byte that a name can hold. -/
def IsNameByte (b : UInt8) : Prop := b ≠ '/' ∧ b ≠ 0

theorem isNameByte_of_isDigit {b : UInt8} (h : Text.isDigit b = true) : IsNameByte b := by
  constructor <;>
  · rintro rfl
    revert h
    decide

theorem isNameByte_of_mem_fileName {t : Timestamp} {b : UInt8} (h : b ∈ fileName t) : IsNameByte b := by
  have hdash : IsNameByte ('-' : UInt8) := ⟨by decide, by decide⟩
  have hT : IsNameByte ('T' : UInt8) := ⟨by decide, by decide⟩
  have hpadded : ∀ {w n : Nat}, b ∈ Timestamp.padded w n → IsNameByte b := fun h =>
    isNameByte_of_isDigit (Timestamp.isDigit_of_mem_padded h)
  have hall : (reportSuffix.all fun b => b != '/' && b != 0) = true := rfl
  have hsuffix : ∀ b ∈ reportSuffix, IsNameByte b := by
    simpa [IsNameByte] using hall
  rw [fileName_eq, List.mem_append, List.mem_append] at h
  obtain h | h | h := h
  · unfold Timestamp.yearText at h
    split at h
    · obtain h | h := List.mem_append.1 h
      · rw [List.mem_singleton.1 h]
        exact hdash
      · exact hpadded h
    · exact hpadded h
  · simp only [Timestamp.stampTail, List.mem_cons, List.mem_append] at h
    obtain rfl | h | rfl | h | rfl | h | rfl | h | rfl | h := h
    all_goals first | exact hdash | exact hT | exact hpadded h
  · exact hsuffix b h

theorem plain_fileName (t : Timestamp) : Path.Plain (fileName t) := by
  have hlen := length_fileName t
  have hne : ∀ name : Text, name.length < 27 → fileName t ≠ name := by
    rintro name hshort rfl
    omega
  exact ⟨⟨hne [] (by decide), fun h => (isNameByte_of_mem_fileName h).1 rfl⟩, hne _ (by decide),
    hne _ (by decide)⟩

theorem noNul_fileName (t : Timestamp) : (fileName t).contains 0 = false := by
  rw [List.contains_eq_mem, decide_eq_false_iff_not]
  exact fun h => (isNameByte_of_mem_fileName h).2 rfl

theorem isName_fileName {t : Timestamp} (h : t.HasShortYear) : Disk.IsName (fileName t) := by
  have hplain := plain_fileName t
  refine ⟨by simpa using hplain.ne_dot, by simpa using hplain.ne_up, ?_⟩
  rw [length_fileName, h.length_yearText]
  decide

theorem fileName_eq_iff {t t' : Timestamp} (h : t.HasShortYear) :
    fileName t' = fileName t ↔ t'.seconds = t.seconds := by
  rw [fileName, fileName, List.append_left_inj]
  exact ⟨Timestamp.seconds_eq_of_runStamp_eq h, Timestamp.runStamp_congr⟩

/-- The file of a scan, or a link in its place, is listed for the second of it. -/
theorem stampOf?_fileName_of_not_dir {t : Timestamp} {e : Entry} (h : t.HasShortYear)
    (he : e.isDir = false) : stampOf? (fileName t) e = some ⟨t.seconds, 0, 0⟩ := by
  have hends : (fileName t).endsWith reportSuffix = true :=
    List.isSuffixOf_iff_suffix.2 (List.suffix_append ..)
  have hdrop : Text.dropBack reportSuffix (fileName t) = t.runStamp := by
    rw [Text.dropBack, if_pos hends, fileName, List.length_append, Nat.add_sub_cancel,
      List.take_left]
  rw [stampOf?, hends, hdrop, Timestamp.readRunStamp?_runStamp h, he]
  rfl

theorem stampOf?_fileName {t : Timestamp} (h : t.HasShortYear) (content : Text) :
    stampOf? (fileName t) (.file content) = some ⟨t.seconds, 0, 0⟩ :=
  stampOf?_fileName_of_not_dir h rfl

/-! ## What a file is read as -/

section Read

variable {d : Disk} {dir content : Text} {t : Timestamp}

theorem loadFile_of_contentOf {path : Text} (h : d.contentOf path = .ok content) :
    loadFile d path =
      ((Json.read? content).bind Report.ofJson?).elim (.error (.malformed path)) .ok := by
  rw [loadFile, h]
  dsimp only
  cases (Json.read? content).bind Report.ofJson? <;> rfl

theorem contentOf_runPath {es : List (Text × Entry)} (hname : Disk.IsName (fileName t))
    (hread : d.readDir (runsDir dir) = .ok es) (hlookup : es.lookup (fileName t) = some (.file content)) :
    d.contentOf (runPath dir t) = .ok content := by
  rw [runsDir_eq] at hread
  rw [runPath_eq dir (plain_fileName t)]
  exact Disk.contentOf_of_lookup_file (normal_runsParts dir) (runsParts_ne_nil dir) (plain_fileName t)
    hname (noNul_fileName t) hread hlookup

/-- The report of a scan is what its file is read as. -/
theorem load_of_lookup {es : List (Text × Entry)} (hname : Disk.IsName (fileName t))
    (hread : d.readDir (runsDir dir) = .ok es) (hlookup : es.lookup (fileName t) = some (.file content)) :
    load d dir t =
      ((Json.read? content).bind Report.ofJson?).elim (.error (.malformed (runPath dir t))) .ok :=
  loadFile_of_contentOf (contentOf_runPath hname hread hlookup)

end Read

end LiteralAudit.History
