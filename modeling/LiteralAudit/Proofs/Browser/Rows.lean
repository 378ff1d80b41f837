import LiteralAudit.Proofs.Browser.Selected
import LiteralAudit.Proofs.Number.Digits
import Mathlib.Data.List.SplitBy

/-!
# The rows of the table

Each issue that is shown is a row of cells. The kind and the file are cut to fit their columns, at an end
that says less, and the level and the line are never cut (`Browser.row_cells`).

The rows stand in runs of one file (`Browser.runs`). A jump passes the rows that go on with the run of the
cursor (`passFile?_forth`, `passFile?_back`), and on the way back also those of the run before, up to its
first row (`runStart?_of_inRun`). So it goes from run to run, also where a file has several
(`Browser.jumps_by_runs`).
-/

namespace LiteralAudit

namespace Text

/-! ## Texts that are cut -/

theorem isUtf8_toUpper (t : Text) : t.toUpper.isUtf8 = true := by
  unfold toUpper
  split_ifs with h
  · refine IsAscii.isUtf8 fun b hb => ?_
    obtain ⟨c, hc, rfl⟩ := List.mem_map.1 hb
    have hascii : c < 0x80 := by simpa using List.all_eq_true.1 h c hc
    split_ifs with hlower
    · rw [isLower, Bool.and_eq_true, decide_eq_true_eq] at hlower
      have hle : (32 : UInt8) ≤ c := UInt8.le_trans (by decide) hlower.1
      rw [UInt8.toNat_sub_of_le _ _ hle]
      exact (Nat.sub_le _ _).trans_lt hascii
    · exact hascii
  · exact isUtf8_ofChars _

theorem length_ofInt_le (width : Nat) (hw : 1 < width) {i : Int} (hlow : -10 ^ (width - 1) < i)
    (hlt : i < 10 ^ width) : (ofInt i).length ≤ width := by
  cases i with
  | ofNat n =>
    rw [Int.ofNat_eq_natCast] at hlt
    refine (length_ofNat_le_iff (by omega)).2 ?_
    exact_mod_cast hlt
  | negSucc n =>
    have hdigits : (ofNat (n + 1)).length ≤ width - 1 := by
      refine (length_ofNat_le_iff (by omega)).2 ?_
      rw [Int.negSucc_eq, neg_lt_neg_iff] at hlow
      exact_mod_cast hlow
    rw [ofInt, List.length_cons]
    omega

/-- A text that is cut keeps its start. -/
theorem exists_truncated? {n : Nat} (h : 3 < n) (t : Text) : ∃ cell, t.truncated? n = some cell ∧
    cell.length ≤ n ∧ (t.length ≤ n → cell = t) ∧
    (n < t.length → ∃ front back, t = front ++ back ∧ front.length = n - 3 ∧ cell = front ++ "...") := by
  rw [truncated?]
  obtain hle | hlt := le_or_gt t.length n
  · rw [if_pos (by omega)]
    exact ⟨t, rfl, hle, fun _ => rfl, fun hlt => absurd hle (by omega)⟩
  · have hdots : (Text.ofString "...").length = 3 := rfl
    have hfront : (t.take (n - 3)).length = n - 3 := by rw [List.length_take]; omega
    rw [if_neg (by omega), if_neg (by omega), if_neg (by omega), Int.toNat_natCast]
    refine ⟨_, rfl, ?_, fun hle => absurd hle (by omega), fun _ => ?_⟩
    · rw [List.length_append, hfront, hdots]
      omega
    · exact ⟨t.take (n - 3), t.drop (n - 3), (List.take_append_drop _ _).symm, hfront, rfl⟩

/-- A path that is cut keeps its end. -/
theorem exists_truncatedLeft? {n : Nat} (h : 3 < n) (t : Text) : ∃ cell, t.truncatedLeft? n = some cell ∧
    cell.length ≤ n ∧ (t.length ≤ n → cell = t) ∧
    (n < t.length → ∃ front back, t = front ++ back ∧ back.length = n - 3 ∧ cell = "..." ++ back) := by
  rw [truncatedLeft?]
  obtain hle | hlt := le_or_gt t.length n
  · rw [if_pos (by omega)]
    exact ⟨t, rfl, hle, fun _ => rfl, fun hlt => absurd hle (by omega)⟩
  · have hdots : (Text.ofString "...").length = 3 := rfl
    have hback : (t.drop (t.length - n + 3)).length = n - 3 := by rw [List.length_drop]; omega
    rw [if_neg (by omega), if_neg (by omega), if_neg (by omega), Int.toNat_natCast]
    refine ⟨_, rfl, ?_, fun hle => absurd hle (by omega), fun _ => ?_⟩
    · rw [List.length_append, hback, hdots]
      omega
    · exact ⟨t.take (t.length - n + 3), t.drop (t.length - n + 3), (List.take_append_drop _ _).symm,
        hback, rfl⟩

end Text

namespace Browser

/-! ## Cells -/

/-- The cells of an issue. The level and the line are never cut. The kind keeps its start and the file its
end, with three dots for what is cut, so that they fit their columns; they are valid text unless they are
cut within a character. -/
theorem row_cells (i : Issue) (hkind : i.kind.isUtf8 = true) (hfile : i.file.isUtf8 = true) :
    columns.map (·.width) = [10, 30, 36, 6] ∧
    ∃ kind file, row i = [i.severity.name.toUpper, kind, file, Text.ofInt i.line] ∧
      (i.severity.name.toUpper.isUtf8 = true ∧ (i.severity.isKnown → i.severity.name.toUpper.length ≤ 10)) ∧
      ((Text.ofInt i.line).isUtf8 = true ∧
        (-100000 < i.line → i.line < 1000000 → (Text.ofInt i.line).length ≤ 6)) ∧
      kind.length ≤ 30 ∧ file.length ≤ 36 ∧
      (i.kind.length ≤ 30 → kind = i.kind ∧ kind.isUtf8 = true) ∧
      (30 < i.kind.length → ∃ front back, i.kind = front ++ back ∧ front.length = 27 ∧
        kind = front ++ "..." ∧ (front.isUtf8 = true → kind.isUtf8 = true)) ∧
      (i.file.length ≤ 36 → file = i.file ∧ file.isUtf8 = true) ∧
      (36 < i.file.length → ∃ front back, i.file = front ++ back ∧ back.length = 33 ∧
        file = "..." ++ back ∧ (back.isUtf8 = true → file.isUtf8 = true)) := by
  obtain ⟨kind, hcell, hkindle, hwhole, hcut⟩ := Text.exists_truncated? (n := 30) (by decide) i.kind
  obtain ⟨file, hcell', hfilele, hwhole', hcut'⟩ := Text.exists_truncatedLeft? (n := 36) (by decide) i.file
  have hdots : Text.isUtf8 "..." = true := by decide
  refine ⟨rfl, kind, file, ?_, ⟨Text.isUtf8_toUpper _, ?_⟩, ⟨(Text.isAscii_ofInt _).isUtf8, ?_⟩, hkindle,
    hfilele, ?_, ?_, ?_, ?_⟩
  · have hkind' : i.kind.truncated? 30 = some kind := hcell
    have hfile' : i.file.truncatedLeft? 36 = some file := hcell'
    simp only [row, hkind', hfile', Option.get_some]
  · intro hknown
    cases hs : i.severity with
    | critical | high | medium | low => decide
    | other name => simp [hs, Severity.isKnown, Severity.rank] at hknown
  · exact fun hlow hlt => Text.length_ofInt_le 6 (by decide) hlow hlt
  · intro hle
    rw [hwhole hle]
    exact ⟨rfl, hkind⟩
  · intro hlt
    obtain ⟨front, back, heq, hlen, rfl⟩ := hcut hlt
    refine ⟨front, back, heq, hlen, rfl, fun hfront => ?_⟩
    rw [Text.isUtf8_append hfront, hdots]
  · intro hle
    rw [hwhole' hle]
    exact ⟨rfl, hfile⟩
  · intro hlt
    obtain ⟨front, back, heq, hlen, rfl⟩ := hcut' hlt
    refine ⟨front, back, heq, hlen, rfl, fun hback => ?_⟩
    rw [Text.isUtf8_append hdots, hback]

/-- A finding with a kind and a file that are both cut. -/
def lengthy : Issue where
  file := "services/payments/internal/café/settings.py"
  line := 120
  kind := "hardcoded_password_in_settings_file"
  severity := .critical

theorem lengthy_cells :
    row lengthy = [Text.ofString "CRITICAL", "hardcoded_password_in_setti...",
      "...yments/internal/café/settings.py", "120"] ∧
      ∀ cell ∈ row lengthy, cell.isUtf8 = true := by
  obtain ⟨-, kind, file, hrow, ⟨hlevel, -⟩, ⟨hline, -⟩, -, -, -, hkind, -, hfile⟩ :=
    row_cells lengthy (by decide) (by decide)
  obtain ⟨front, back, heq, hlen, rfl, hvalid⟩ := hkind (by decide)
  obtain ⟨front', back', heq', hlen', rfl, hvalid'⟩ := hfile (by decide)
  have hkind' : lengthy.kind = "hardcoded_password_in_setti" ++ Text.ofString "ngs_file" := by decide
  have hfile' : lengthy.file = "services/pa" ++ Text.ofString "yments/internal/café/settings.py" := by decide
  have hfront := (List.append_inj (heq.symm.trans hkind') hlen).1
  have hback := (List.append_inj' (heq'.symm.trans hfile') hlen').2
  subst hfront hback
  refine ⟨hrow, ?_⟩
  rw [hrow]
  simp only [List.forall_mem_cons]
  exact ⟨hlevel, hvalid (by decide), hvalid' (by decide), hline, List.forall_mem_nil _⟩

/-- A finding of a level that is not known, far down in its file. -/
def wide : Issue := { file := "a.py", line := 1000000, kind := "k", severity := .other "catastrophic" }

/-- A finding with a kind and a file of two-byte letters. -/
def torn : Issue where
  file := "éééééééééééééééééééé"
  line := 1
  kind := "éééééééééééééééééééé"
  severity := .low

/-- Cells of issues with a valid kind and a valid file may be wider than their columns and may be torn. -/
theorem wide_and_torn :
    (wide.kind.isUtf8 = true ∧ wide.file.isUtf8 = true ∧
      ¬ ∀ p ∈ (row wide).zip columns, p.1.length ≤ p.2.width) ∧
    (torn.kind.isUtf8 = true ∧ torn.file.isUtf8 = true ∧ ¬ ∀ cell ∈ row torn, cell.isUtf8 = true) := by
  decide

/-! ## Runs of one file -/

/-- The longest runs of rows of one file, in order: the rows of a run have the same file
(`file_eq_of_mem_run`), and those of the next one have another (`file_ne_of_mem_next`). -/
def runs (is : List Issue) : List (List Issue) := is.splitBy fun a b => a.file == b.file

/-- The row that a run begins on; behind the last run, the number of rows. -/
def firstRow (is : List Issue) (k : Nat) : Nat := ((runs is).take k).flatten.length

/-- A row is in a run. -/
structure InRun (is : List Issue) (k : Nat) (i : Int) : Prop where
  lt_length : k < (runs is).length
  firstRow_le : firstRow is k ≤ i
  lt_firstRow : i < firstRow is (k + 1)

/-- The file of a row; there is none when there is no such row. -/
def fileAt? (is : List Issue) (i : Int) : Option Text := (item? is i).map (·.file)

theorem getElem?_flatten_add {α : Type} {xss : List (List α)} {k m : Nat} (hk : k < xss.length)
    (hm : m < xss[k].length) : xss.flatten[(xss.take k).flatten.length + m]? = some xss[k][m] := by
  have hsplit : xss.flatten = (xss.take k).flatten ++ (xss[k] ++ (xss.drop (k + 1)).flatten) := by
    rw [← List.flatten_cons, ← List.drop_eq_getElem_cons hk, ← List.flatten_append, List.take_append_drop]
  rw [hsplit, List.getElem?_append_right (Nat.le_add_right _ _), Nat.add_sub_cancel_left,
    List.getElem?_append_left hm, List.getElem?_eq_getElem hm]

section Runs

variable {is : List Issue} {k : Nat} {i : Int}

theorem flatten_runs (is : List Issue) : (runs is).flatten = is := List.flatten_splitBy _ is

theorem firstRow_zero (is : List Issue) : firstRow is 0 = 0 := rfl

theorem firstRow_length (is : List Issue) : firstRow is (runs is).length = is.length := by
  rw [firstRow, List.take_length, flatten_runs]

theorem firstRow_succ (h : k < (runs is).length) :
    firstRow is (k + 1) = firstRow is k + (runs is)[k].length := by
  rw [firstRow, List.take_succ_eq_append_getElem h, List.flatten_append, List.length_append, firstRow]
  simp

theorem length_pos_of_run (h : k < (runs is).length) : 0 < (runs is)[k].length :=
  List.length_pos_iff.2 (List.ne_nil_of_mem_splitBy (List.getElem_mem h))

theorem inRun_firstRow (h : k < (runs is).length) : InRun is k (firstRow is k) := by
  have hpos := length_pos_of_run h
  have hnext := firstRow_succ h
  exact ⟨h, le_rfl, by omega⟩

theorem inRun_last (h : k < (runs is).length) : InRun is k (firstRow is (k + 1) - 1) := by
  have hpos := length_pos_of_run h
  have hnext := firstRow_succ h
  exact ⟨h, by omega, by omega⟩

/-- Every row is in a run. -/
theorem exists_inRun (hlow : 0 ≤ i) (hlt : i < is.length) : ∃ k, InRun is k i := by
  -- By induction on the number of runs that the row is before the end of.
  have hbefore : ∀ n ≤ (runs is).length, i < firstRow is n → ∃ k, InRun is k i := by
    intro n hn hi
    induction n with
    | zero =>
      rw [firstRow_zero] at hi
      omega
    | succ n ih =>
      obtain hfront | hrow := lt_or_ge i (firstRow is n)
      · exact ih (by omega) hfront
      · exact ⟨n, hn, hrow, hi⟩
  exact hbefore _ le_rfl (by rwa [firstRow_length])

theorem item?_firstRow_add (h : k < (runs is).length) {m : Nat} (hm : m < (runs is)[k].length) :
    item? is ((firstRow is k + m : Nat) : Int) = some ((runs is)[k])[m] := by
  have hrow := getElem?_flatten_add h hm
  rw [flatten_runs] at hrow
  rw [item?, if_pos (Int.natCast_nonneg _), Int.toNat_natCast]
  exact hrow

/-- The rows of a run are of one file. -/
theorem file_eq_of_mem_run {run : List Issue} (h : run ∈ runs is) {a b : Issue} (ha : a ∈ run)
    (hb : b ∈ run) : a.file = b.file := by
  have hchain : (run.map (·.file)).IsChain (· = ·) := by
    rw [List.isChain_map]
    simpa only [beq_iff_eq] using List.isChain_of_mem_splitBy h
  exact (List.isChain_iff_pairwise.1 hchain).forall_of_forall (fun _ _ => rfl) (List.mem_map_of_mem ha)
    (List.mem_map_of_mem hb)

/-- A run and the next one are of different files. -/
theorem file_ne_of_mem_next (h : k + 1 < (runs is).length) {a b : Issue} (ha : a ∈ (runs is)[k])
    (hb : b ∈ (runs is)[k + 1]) : a.file ≠ b.file := by
  have hchain := List.isChain_getLast_head_splitBy (fun a b : Issue => a.file == b.file) is
  obtain ⟨hrun, hnext, hne⟩ := List.isChain_iff_getElem.1 hchain k h
  have hlast : a.file = _ := file_eq_of_mem_run (List.getElem_mem _) ha (List.getLast_mem hrun)
  have hhead : b.file = _ := file_eq_of_mem_run (List.getElem_mem _) hb (List.head_mem hnext)
  rw [hlast, hhead]
  simpa using hne

theorem exists_item?_of_inRun (hk : k < (runs is).length) (h : InRun is k i) :
    ∃ x ∈ (runs is)[k], item? is i = some x := by
  obtain ⟨-, hlow, hlt⟩ := h
  have hnext := firstRow_succ hk
  obtain ⟨m, hm⟩ := Int.le.dest hlow
  have hlen : m < (runs is)[k].length := by omega
  refine ⟨_, List.getElem_mem hlen, ?_⟩
  rw [← hm]
  exact item?_firstRow_add hk hlen

theorem exists_fileAt?_of_inRun (h : InRun is k i) : ∃ file, fileAt? is i = some file := by
  obtain ⟨x, -, hx⟩ := exists_item?_of_inRun h.lt_length h
  exact ⟨x.file, by rw [fileAt?, hx, Option.map_some]⟩

theorem fileAt?_of_inRun {j : Int} (hi : InRun is k i) (hj : InRun is k j) :
    fileAt? is i = fileAt? is j := by
  obtain ⟨x, hx, hix⟩ := exists_item?_of_inRun hi.lt_length hi
  obtain ⟨y, hy, hjy⟩ := exists_item?_of_inRun hj.lt_length hj
  rw [fileAt?, fileAt?, hix, hjy, Option.map_some, Option.map_some,
    file_eq_of_mem_run (List.getElem_mem hi.lt_length) hx hy]

theorem fileAt?_ne_of_next {j : Int} (hi : InRun is k i) (hj : InRun is (k + 1) j) :
    fileAt? is i ≠ fileAt? is j := by
  obtain ⟨x, hx, hix⟩ := exists_item?_of_inRun hi.lt_length hi
  obtain ⟨y, hy, hjy⟩ := exists_item?_of_inRun hj.lt_length hj
  rw [fileAt?, fileAt?, hix, hjy, Option.map_some, Option.map_some, ne_eq, Option.some_inj]
  exact file_ne_of_mem_next hj.lt_length hx hy

end Runs

/-! ## From run to run -/

section Passing

variable {is : List Issue} {file : Text} {k : Nat} {i : Int}

theorem fileAt?_eq_none (h : i < 0 ∨ is.length ≤ i) : fileAt? is i = none := by
  rw [fileAt?, item?]
  split_ifs with hlow
  · rw [List.getElem?_eq_none (by omega)]
    rfl
  · rfl

theorem exists_item?_of_fileAt? (h : fileAt? is i = some file) :
    (0 ≤ i ∧ i < is.length) ∧ ∃ x, item? is i = some x ∧ x.file = file := by
  refine ⟨?_, Option.map_eq_some_iff.1 h⟩
  by_contra hout
  rw [fileAt?_eq_none (by omega)] at h
  cases h

theorem InRun.lt_rows (h : InRun is k i) : i < is.length := by
  obtain ⟨file, hfile⟩ := exists_fileAt?_of_inRun h
  exact (exists_item?_of_fileAt? hfile).1.2

/-- Rows of a file are passed, up to the first one that is not. -/
theorem passFile?_eq {way : Way} {n : Nat} (hpass : ∀ m < n, fileAt? is (i + m * way.step) = some file)
    (hstop : fileAt? is (i + n * way.step) ≠ some file) :
    passFile? is file way i = some (i + n * way.step) := by
  induction n generalizing i with
  | zero =>
    rw [Nat.cast_zero, zero_mul, add_zero] at hstop ⊢
    rw [passFile?]
    split_ifs with hin
    · obtain ⟨x, hx⟩ := exists_item? hin.1 hin.2
      rw [fileAt?, hx, Option.map_some, ne_eq, Option.some_inj] at hstop
      rw [hx, Option.bind_some, if_neg (by simpa using hstop)]
    · rfl
  | succ n ih =>
    -- The first row is passed; the others are those from the next row on.
    have hstep : ∀ m : Nat, i + way.step + m * way.step = i + (m + 1 : Nat) * way.step := fun m => by
      push_cast
      ring
    have hhere : fileAt? is i = some file := by simpa using hpass 0 (Nat.succ_pos n)
    obtain ⟨hin, x, hx, hfile⟩ := exists_item?_of_fileAt? hhere
    rw [passFile?, if_pos hin, hx, Option.bind_some, if_pos (by simpa using hfile), ← hstep]
    refine ih (fun m hm => ?_) (by rwa [hstep])
    rw [hstep]
    exact hpass (m + 1) (Nat.succ_lt_succ hm)

/-- The first row of a file is behind the row that passing its rows ends on. -/
theorem runStart?_eq (hlow : 0 ≤ i) (hle : i ≤ is.length) :
    runStart? is file i = (passFile? is file .back (i - 1)).map (· + 1) := by
  fun_induction runStart? is file i with
  | case1 i hpos ih =>
    obtain ⟨above, habove⟩ : ∃ x, item? is (i - 1) = some x := exists_item? (by omega) (by omega)
    rw [passFile?, if_pos ⟨by omega, by omega⟩, habove, Option.bind_some, Option.bind_some]
    split_ifs
    · exact ih (by omega) (by omega)
    · rw [Option.map_some, Int.sub_add_cancel]
  | case2 i hpos =>
    rw [passFile?, if_neg (by omega), Option.map_some, Int.sub_add_cancel]

theorem passFile?_forth (h : InRun is k i) (hfile : fileAt? is i = some file) :
    passFile? is file .forth (i + 1) = some (firstRow is (k + 1) : Int) := by
  have hlow := h.firstRow_le
  have hlt := h.lt_firstRow
  obtain ⟨n, hn⟩ := Int.le.dest (show i + 1 ≤ (firstRow is (k + 1) : Int) by omega)
  have hpass : ∀ m < n, fileAt? is (i + 1 + m * Way.forth.step) = some file := by
    intro m hm
    rw [Way.step, mul_one, ← hfile]
    exact fileAt?_of_inRun ⟨h.lt_length, by omega, by omega⟩ h
  have hstop : fileAt? is (i + 1 + n * Way.forth.step) ≠ some file := by
    rw [Way.step, mul_one, hn, ← hfile]
    obtain hnext | hlast := Nat.lt_or_eq_of_le (show k + 1 ≤ _ from h.lt_length)
    · exact (fileAt?_ne_of_next h (inRun_firstRow hnext)).symm
    · rw [hlast, firstRow_length, fileAt?_eq_none (.inr le_rfl), hfile]
      exact (Option.some_ne_none _).symm
  rw [passFile?_eq hpass hstop, Way.step, mul_one, hn]

theorem passFile?_back (h : InRun is k i) (hfile : fileAt? is i = some file) :
    passFile? is file .back (i - 1) = some (firstRow is k - 1 : Int) := by
  have hlow := h.firstRow_le
  have hlt := h.lt_firstRow
  obtain ⟨n, hn⟩ := Int.le.dest hlow
  have hpass : ∀ m < n, fileAt? is (i - 1 + m * Way.back.step) = some file := by
    intro m hm
    rw [Way.step, ← hfile]
    exact fileAt?_of_inRun ⟨h.lt_length, by omega, by omega⟩ h
  have hend : i - 1 + n * Way.back.step = firstRow is k - 1 := by
    rw [Way.step]
    omega
  have hstop : fileAt? is (i - 1 + n * Way.back.step) ≠ some file := by
    rw [hend, ← hfile]
    cases k with
    | zero =>
      rw [firstRow_zero, fileAt?_eq_none (.inl (by decide)), hfile]
      exact (Option.some_ne_none _).symm
    | succ k => exact fileAt?_ne_of_next (inRun_last (Nat.lt_of_succ_lt h.lt_length)) h
  rw [passFile?_eq hpass hstop, hend]

theorem runStart?_of_inRun (h : InRun is k i) (hfile : fileAt? is i = some file) :
    runStart? is file i = some (firstRow is k : Int) := by
  obtain ⟨hin, -⟩ := exists_item?_of_fileAt? hfile
  rw [runStart?_eq hin.1 hin.2.le, passFile?_back h hfile, Option.map_some, Int.sub_add_cancel]

end Passing

/-- The browser with the cursor put on a row that is shown, and the file of the row as its status. -/
def landed (w : Widgets) (b : Browser) (i : Nat) : Browser :=
  { b with grid := w.select b.grid i, status := (fileAt? b.shown i).getD [] }

section Jump

variable {w : Widgets} {moves : Message → Bool} {b : Browser} {k : Nat}

theorem cursor_landed (hw : w.Clamping moves) (hrows : b.grid.rows = b.shown.map row)
    (h : k < (runs b.shown).length) :
    (b.landed w (firstRow b.shown k)).grid.cursor = firstRow b.shown k := by
  have hlt := (inRun_firstRow h).lt_rows
  rw [landed, hw.cursor_select, hrows, List.length_map]
  omega

/-- What is done when a row has been found: the file of the row becomes the status. -/
theorem bind_landed (w : Widgets) (b : Browser) {i : Nat} (h : (i : Int) < b.shown.length) :
    ((item? b.shown i).bind fun there => some { b with grid := w.select b.grid i, status := there.file }) =
      some (b.landed w i) := by
  obtain ⟨there, hthere⟩ := exists_item? (Int.natCast_nonneg i) h
  rw [hthere, Option.bind_some, landed, fileAt?, hthere]
  rfl

variable (h : InRun b.shown k b.grid.cursor)

include h

theorem jump?_forth (w : Widgets) : b.jump? w .forth = some
    (if k + 1 < (runs b.shown).length then b.landed w (firstRow b.shown (k + 1))
      else { b with status := "No more files" }) := by
  obtain ⟨file, hfile⟩ := exists_fileAt?_of_inRun h
  obtain ⟨hin, here, hhere, rfl⟩ := exists_item?_of_fileAt? hfile
  rw [jump?, if_neg (by omega), hhere]
  simp only [Option.bind_eq_bind, Option.bind_some, Way.step, passFile?_forth h hfile]
  by_cases hnext : k + 1 < (runs b.shown).length
  · have hlt := (inRun_firstRow hnext).lt_rows
    obtain ⟨there, hthere⟩ := exists_item? (Int.natCast_nonneg _) hlt
    rw [if_pos hnext, if_neg (by omega), ← bind_landed w b hlt, hthere, Option.bind_some]
  · have hlast : k + 1 = (runs b.shown).length := by
      have := h.lt_length
      omega
    rw [if_neg hnext, hlast, firstRow_length, if_pos (.inr le_rfl)]

theorem jump?_back (w : Widgets) : b.jump? w .back = some
    (if 0 < k then b.landed w (firstRow b.shown (k - 1)) else { b with status := "No more files" }) := by
  obtain ⟨file, hfile⟩ := exists_fileAt?_of_inRun h
  obtain ⟨hin, here, hhere, rfl⟩ := exists_item?_of_fileAt? hfile
  rw [jump?, if_neg (by omega), hhere]
  simp only [Option.bind_eq_bind, Option.bind_some, Way.step, ← Int.sub_eq_add_neg, passFile?_back h hfile]
  cases k with
  | zero =>
    rw [firstRow_zero, if_neg (Nat.lt_irrefl 0), if_pos (.inl (by decide))]
  | succ k =>
    -- The row before the run is the last one of the run that is jumped to.
    have hlast := inRun_last (Nat.lt_of_succ_lt h.lt_length)
    obtain ⟨before, hbefore⟩ := exists_fileAt?_of_inRun hlast
    obtain ⟨hrow, there, hthere, rfl⟩ := exists_item?_of_fileAt? hbefore
    have hlt := (inRun_firstRow hlast.lt_length).lt_rows
    rw [if_pos (Nat.succ_pos k), if_neg (by omega), hthere, Option.bind_some,
      runStart?_of_inRun hlast hbefore, Option.bind_some, Nat.add_sub_cancel]
    exact bind_landed w b hlt

end Jump

section Keys

variable {w : Widgets} {b b' : Browser} {m : Message} {e : Effect}

theorem run?_cons (h : b.update? w m = some (b', e)) (ms : List Message) :
    b.run? w (m :: ms) = b'.run? w ms := by
  rw [run?, List.foldlM_cons, h]
  rfl

variable (hmode : b.mode = .normal) (typed : List Char) (ms : List Message)

include hmode

theorem run?_forth (h : b.jump? w .forth = some b') :
    b.run? w (.key ⟨"n", typed⟩ :: ms) = b'.run? w ms := by
  refine run?_cons (e := {}) ?_ ms
  rw [update?, press?, hmode]
  show (b.jump? w .forth).map _ = _
  rw [h, Option.map_some]

theorem run?_back (h : b.jump? w .back = some b') :
    b.run? w (.key ⟨"N", typed⟩ :: ms) = b'.run? w ms := by
  refine run?_cons (e := {}) ?_ ms
  rw [update?, press?, hmode]
  show (b.jump? w .back).map _ = _
  rw [h, Option.map_some]

end Keys

/-- After `n` has moved the cursor, `N` puts it on the first row of the run that it was in. -/
theorem back_after_forth {w : Widgets} {moves : Message → Bool} (hw : w.Clamping moves) {b : Browser}
    (hrows : b.grid.rows = b.shown.map row) {k : Nat} (h : InRun b.shown k b.grid.cursor)
    (hmode : b.mode = .normal) (typed typed' : List Char) :
    ∃ b₁ b₂, b.run? w [.key ⟨"n", typed⟩] = some b₁ ∧
      b.run? w [.key ⟨"n", typed⟩, .key ⟨"N", typed'⟩] = some b₂ ∧
      (b₁.grid.cursor ≠ b.grid.cursor → b₂.grid.cursor = firstRow b.shown k) := by
  have hforth := jump?_forth h w
  by_cases hnext : k + 1 < (runs b.shown).length
  · rw [if_pos hnext] at hforth
    -- The browser after `n` is on the first row of the next run, and shows the same rows.
    generalize hb₁ : b.landed w (firstRow b.shown (k + 1)) = b₁ at hforth
    have hshown : b₁.shown = b.shown := by rw [← hb₁]; rfl
    have hrows₁ : b₁.grid.rows = b₁.shown.map row := by
      rw [hshown, ← hrows, ← hb₁]
      exact hw.rows_select ..
    have hrun : InRun b₁.shown (k + 1) b₁.grid.cursor := by
      rw [hshown, ← hb₁, cursor_landed hw hrows hnext]
      exact inRun_firstRow hnext
    have hback := jump?_back hrun w
    rw [if_pos (Nat.succ_pos k), Nat.add_sub_cancel] at hback
    have hmode₁ : b₁.mode = .normal := by rw [← hb₁]; exact hmode
    refine ⟨b₁, b₁.landed w (firstRow b₁.shown k), run?_forth hmode typed [] hforth, ?_, fun _ => ?_⟩
    · rw [run?_forth hmode typed _ hforth]
      exact run?_back hmode₁ typed' [] hback
    · rw [cursor_landed hw hrows₁ (Nat.lt_of_succ_lt hrun.lt_length), hshown]
  · rw [if_neg hnext] at hforth
    have hback := run?_back (b := { b with status := "No more files" }) hmode typed' []
      (jump?_back (b := { b with status := "No more files" }) h w)
    exact ⟨{ b with status := "No more files" }, _, run?_forth hmode typed [] hforth,
      (run?_forth hmode typed _ hforth).trans hback, fun hmoved => absurd rfl hmoved⟩

/-- The cursor jumps by runs of rows of one file, whatever is shown and in whichever order: forth to the
first row of the next run, and back to the first row of the one before. When there is no such run it stays,
and the status says so. So after `n` has moved the cursor, `N` puts it on the first row of the run that it
was in. -/
theorem jumps_by_runs {w : Widgets} {moves : Message → Bool} (hw : w.Clamping moves) {b : Browser}
    (hrows : b.grid.rows = b.shown.map row) (hlow : 0 ≤ b.grid.cursor)
    (hlt : b.grid.cursor < b.shown.length) :
    ∃ k, InRun b.shown k b.grid.cursor ∧
      (∀ j < (runs b.shown).length,
        (b.landed w (firstRow b.shown j)).grid.cursor = firstRow b.shown j) ∧
      b.jump? w .forth = some (if k + 1 < (runs b.shown).length then b.landed w (firstRow b.shown (k + 1))
        else { b with status := "No more files" }) ∧
      b.jump? w .back = some (if 0 < k then b.landed w (firstRow b.shown (k - 1))
        else { b with status := "No more files" }) ∧
      (b.mode = .normal → ∀ typed typed', ∃ b₁ b₂, b.run? w [.key ⟨"n", typed⟩] = some b₁ ∧
        b.run? w [.key ⟨"n", typed⟩, .key ⟨"N", typed'⟩] = some b₂ ∧
        (b₁.grid.cursor ≠ b.grid.cursor → b₂.grid.cursor = firstRow b.shown k)) := by
  obtain ⟨k, hk⟩ := exists_inRun hlow hlt
  exact ⟨k, hk, fun j hj => cursor_landed hw hrows hj, jump?_forth hk w, jump?_back hk w,
    back_after_forth hw hrows hk⟩

/-- Issues from the most severe on, so that those of one file are in two runs. -/
def mixed : List Issue :=
  [{ file := "a.py", line := 1, severity := .high }, { file := "a.py", line := 2, severity := .high },
    { file := "b.py", severity := .medium }, { file := "a.py", line := 3, severity := .low }]

/-- A browser that shows them, with the cursor on the second row. -/
def onSecond : Browser where
  report := { issues? := some mixed }
  issues := mixed
  kinds := []
  grid := { columns := columns, rows := mixed.map row, cursor := 1, height := 14 }
  shown := mixed

theorem jumps_in_mixed : ∃ b₁ b₂, onSecond.run? .standard [.key ⟨"n", ['n']⟩] = some b₁ ∧
    onSecond.run? .standard [.key ⟨"n", ['n']⟩, .key ⟨"N", ['N']⟩] = some b₂ ∧
    b₁.grid.cursor = 2 ∧ b₁.status = "b.py" ∧ b₂.grid.cursor = 0 := by
  obtain ⟨k, hk, hlanded, hforth, -, hboth⟩ :=
    jumps_by_runs Widgets.clamping_standard (b := onSecond) rfl (by decide) (by decide)
  obtain ⟨b₁, b₂, hrun₁, hrun₂, hmoved⟩ := hboth rfl ['n'] ['N']
  have hfirst : k = 0 := by
    have hlt : k < 3 := hk.lt_length
    have hle : (firstRow mixed k : Int) ≤ 1 := hk.firstRow_le
    interval_cases k
    · rfl
    · exact absurd hle (by decide)
    · exact absurd hle (by decide)
  subst hfirst
  have hb₁ : b₁ = onSecond.landed .standard 2 :=
    Option.some.inj (hrun₁.symm.trans (run?_forth rfl ['n'] [] hforth))
  have hcursor : b₁.grid.cursor = 2 := by
    rw [hb₁]
    exact hlanded 1 (by decide)
  refine ⟨b₁, b₂, hrun₁, hrun₂, hcursor, ?_, hmoved ?_⟩
  · rw [hb₁]
    decide
  · rw [hcursor]
    decide

end Browser

end LiteralAudit
