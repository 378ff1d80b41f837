import LiteralAudit.Proofs.Browser.Shown

/-!
# The selected issue

The cursor of the table is brought into the range of the rows whenever it is put somewhere, and stands
before the rows when there are none (`Browser.Widgets.Clamping`). Rows that are made anew bring it back
only when it is behind the last of them. So the cursor that an empty list has left before the rows stays
there when the list has issues again, until a key moves it: `Browser.cursor_change` says so for one
message, and `Browser.selected?_eq_none_iff` for all messages since the start.
-/

namespace LiteralAudit.Browser

/-- Where the table puts its cursor. `moves` tells the messages that move it. -/
structure Widgets.Clamping (w : Widgets) (moves : Message → Bool) : Prop extends w.Lawful where
  cursor_setRows (g : Grid) (rows : List (List Text)) : (w.setRows g rows).cursor = g.cursor
  cursor_select (g : Grid) (n : Int) :
    (w.select g n).cursor = min (max n 0) ((g.rows.length : Int) - 1)
  cursor_resize (g : Grid) (width height : Int) : (w.resize g width height).cursor = g.cursor
  cursor_moved (g : Grid) (m : Message) : moves m = true →
    ∃ n, (w.table g m).cursor = min (max n 0) ((g.rows.length : Int) - 1)
  cursor_kept (g : Grid) (m : Message) : moves m = false → (w.table g m).cursor = g.cursor

/-- The messages that move the cursor of the table. -/
def isMove : Message → Bool
  | .key k => k.isAny Grid.moveKeys
  | _ => false

theorem Widgets.clamping_standard : Widgets.standard.Clamping isMove where
  toLawful := lawful_standard
  cursor_setRows := Grid.cursor_setRows
  cursor_select := Grid.cursor_select
  cursor_resize := Grid.cursor_resize
  cursor_moved g m hm := by
    cases m with
    | key k => exact Grid.clamped_press hm
    | resized width height => cases hm
    | other content => cases hm
  cursor_kept g m hm := by
    cases m with
    | key k => exact congrArg Grid.cursor (Grid.press_of_not_move hm)
    | resized width height => rfl
    | other content => rfl

/-! ## One message -/

/-- The cursor is on a row or directly before the first one. -/
structure InRange (b : Browser) : Prop where
  before_le : -1 ≤ b.grid.cursor
  lt_length : b.grid.cursor < b.shown.length

theorem InRange.unselected_iff {b : Browser} (h : b.InRange) :
    b.selected? = none ↔ b.grid.cursor = -1 := by
  have := h.before_le
  have := h.lt_length
  unfold selected?
  split
  · next hon => simp only [reduceCtorEq, false_iff]; omega
  · next hoff => simp only [true_iff]; omega

/-- A cursor that is put somewhere is before the rows only when there are none. -/
theorem inRange_of_put (b' : Browser) {n : Int}
    (h : b'.grid.cursor = min (max n 0) ((b'.shown.length : Int) - 1)) :
    b'.InRange ∧ (b'.grid.cursor = -1 ↔ b'.shown = []) := by
  rw [← List.length_eq_zero_iff]
  exact ⟨⟨by omega, by omega⟩, by omega⟩

/-- A cursor that is not behind the rows stays where it is. -/
theorem InRange.of_kept {b : Browser} (hb : b.InRange) (b' : Browser)
    (h : b'.grid.cursor =
      if b.grid.cursor ≥ b'.shown.length then (b'.shown.length : Int) - 1 else b.grid.cursor) :
    b'.InRange ∧ (b'.grid.cursor = -1 ↔ b'.shown = [] ∨ b.grid.cursor = -1) := by
  obtain ⟨hlow, -⟩ := hb
  rw [← List.length_eq_zero_iff]
  split at h
  · exact ⟨⟨by omega, by omega⟩, by omega⟩
  · exact ⟨⟨by omega, by omega⟩, by omega⟩

section Change

variable {w : Widgets} {moves : Message → Bool} (hw : w.Clamping moves) {report : Report}
  {b b' : Browser} {m : Message}

include hw

/-- New rows bring the cursor back to the last one when it is behind them. -/
theorem cursor_rebuild (b : Browser) : (rebuild w b).grid.cursor =
    if b.grid.cursor ≥ b.selection.length then (b.selection.length : Int) - 1 else b.grid.cursor := by
  simp only [rebuild, hw.cursor_setRows]
  split
  · rw [hw.cursor_select, hw.rows_setRows, List.length_map]
    omega
  · rw [hw.cursor_setRows]

/-- The cursor stays in range. It is before the rows when there are none, and when it was there before
and no message has moved it. -/
theorem cursor_change (hs : Sound report b) (hb : b.InRange) (h : Change w b m b') :
    b'.InRange ∧ (b'.grid.cursor = -1 ↔
      b'.shown = [] ∨ b.grid.cursor = -1 ∧ ¬(b.leavesToTable m = true ∧ moves m = true)) := by
  have hrows : b.grid.rows.length = b.shown.length := by rw [hs.rows, List.length_map]
  have hbehind : ¬ b.grid.cursor ≥ b.shown.length := not_le.2 hb.lt_length
  cases h with
  | rebuilt filter order mode input status hm =>
    have hkept := hb.of_kept { rebuild w { b with filter, order, mode, input } with status }
      (cursor_rebuild hw { b with filter, order, mode, input })
    simpa [hm] using hkept
  | edited mode choice input status clipboard hm =>
    have hkept := hb.of_kept { b with mode, choice, input, status, clipboard }
      (if_neg hbehind).symm
    simpa [hm] using hkept
  | resized width height lines hm =>
    have hcursor := hw.cursor_resize b.grid width lines
    have hkept := hb.of_kept { b with width, height, grid := w.resize b.grid width lines }
      (hcursor.trans (if_neg hbehind).symm)
    simpa [hm] using hkept
  | jumped i status hm hcursor =>
    have hselect := hw.cursor_select b.grid i
    rw [hrows] at hselect
    have hput := inRange_of_put { b with grid := w.select b.grid i, status } hselect
    have hnot : b.grid.cursor ≠ -1 := by omega
    simpa [hnot] using hput
  | left hm =>
    cases hmove : moves m with
    | true =>
      obtain ⟨n, hn⟩ := hw.cursor_moved b.grid m hmove
      rw [hrows] at hn
      have hput := inRange_of_put { b with grid := w.table b.grid m } hn
      simpa [hm] using hput
    | false =>
      have hcursor := hw.cursor_kept b.grid m hmove
      have hkept := hb.of_kept { b with grid := w.table b.grid m }
        (hcursor.trans (if_neg hbehind).symm)
      simpa using hkept

/-- The browser starts with the cursor on the first row, or before it when there is none. -/
theorem inRange_start (report : Report) (history : List Int) :
    (start report history w).InRange ∧
      ((start report history w).grid.cursor = -1 ↔ (start report history w).shown = []) := by
  refine inRange_of_put _ (n := 0) ?_
  rw [start, cursor_rebuild hw]
  simp only [rebuild]
  split <;> omega

end Change

/-! ## All messages since the start -/

/-- The browser after the first `i` messages. -/
def after (w : Widgets) (b : Browser) (ms : List Message) (i : Nat) : Browser :=
  (ms.take i).foldl (fun b m => (b.update m w).1) b

/-- Since a moment at which nothing was shown, no message has moved the cursor. -/
def LeftBefore (w : Widgets) (moves : Message → Bool) (b : Browser) (ms : List Message) : Prop :=
  ∃ i ≤ ms.length, (b.after w ms i).shown = [] ∧ ∀ j m, i ≤ j → ms[j]? = some m →
    ¬((b.after w ms j).leavesToTable m = true ∧ moves m = true)

section Run

variable {w : Widgets} {moves : Message → Bool} {b : Browser} {ms : List Message}

theorem after_append_of_le (m : Message) {i : Nat} (h : i ≤ ms.length) :
    b.after w (ms ++ [m]) i = b.after w ms i := by
  rw [after, after, List.take_append_of_le_length h]

theorem after_length (w : Widgets) (b : Browser) (ms : List Message) :
    b.after w ms ms.length = ms.foldl (fun b m => (b.update m w).1) b := by
  rw [after, List.take_length]

theorem leftBefore_nil_iff : LeftBefore w moves b [] ↔ b.shown = [] := by
  simp [LeftBefore, after]

theorem leftBefore_concat_iff {b₁ b₂ : Browser} {m : Message} (h₁ : b.after w ms ms.length = b₁)
    (h₂ : b.after w (ms ++ [m]) (ms ++ [m]).length = b₂) :
    LeftBefore w moves b (ms ++ [m]) ↔
      b₂.shown = [] ∨ LeftBefore w moves b ms ∧ ¬(b₁.leavesToTable m = true ∧ moves m = true) := by
  constructor
  · rintro ⟨i, hi, hempty, hstill⟩
    rw [List.length_append, List.length_singleton] at hi
    obtain hi | rfl := Nat.lt_or_eq_of_le hi
    · have hi : i ≤ ms.length := by omega
      rw [after_append_of_le m hi] at hempty
      refine .inr ⟨⟨i, hi, hempty, ?_⟩, ?_⟩
      · intro j m' hij hm'
        have hj := (List.getElem?_eq_some_iff.1 hm').1
        rw [← after_append_of_le m hj.le]
        exact hstill j m' hij (by rw [List.getElem?_append_left hj, hm'])
      · rw [← h₁, ← after_append_of_le m le_rfl]
        exact hstill ms.length m hi (by simp)
    · left
      rwa [← h₂, List.length_append, List.length_singleton]
  · rintro (hempty | ⟨⟨i, hi, hempty, hstill⟩, hm⟩)
    · refine ⟨(ms ++ [m]).length, le_rfl, by rwa [h₂], ?_⟩
      intro j m' hj hm'
      rw [List.getElem?_eq_none hj] at hm'
      cases hm'
    · refine ⟨i, by simp; omega, by rwa [after_append_of_le m hi], ?_⟩
      intro j m' hij hm'
      obtain hj | hj := Nat.lt_or_ge j ms.length
      · rw [after_append_of_le m hj.le]
        exact hstill j m' hij (by rwa [List.getElem?_append_left hj] at hm')
      · have hlen := (List.getElem?_eq_some_iff.1 hm').1
        obtain rfl : j = ms.length := by simp at hlen; omega
        obtain rfl : m = m' := by simpa using hm'
        rwa [after_append_of_le m le_rfl, h₁]

/-- The cursor of a browser after messages tells whether an empty list has left it before the rows. -/
structure Tracked (w : Widgets) (moves : Message → Bool) (b : Browser) (ms : List Message)
    (b' : Browser) : Prop where
  after_eq : b.after w ms ms.length = b'
  inRange : b'.InRange
  before_iff : b'.grid.cursor = -1 ↔ LeftBefore w moves b ms

theorem Tracked.concat {report : Report} {b₁ b₂ : Browser} {m : Message} (hw : w.Clamping moves)
    (hs : Sound report b₁) (hchange : Change w b₁ m b₂) (hupdate : (b₁.update m w).1 = b₂)
    (h : Tracked w moves b ms b₁) : Tracked w moves b (ms ++ [m]) b₂ := by
  obtain ⟨hrange, hbefore⟩ := cursor_change hw hs h.inRange hchange
  have hafter : b.after w (ms ++ [m]) (ms ++ [m]).length = b₂ := by
    rw [after_length, List.foldl_concat, ← after_length, h.after_eq, hupdate]
  refine ⟨hafter, hrange, ?_⟩
  rw [hbefore, h.before_iff, leftBefore_concat_iff h.after_eq hafter]

end Run

/-- All messages come to an end, and leave a browser whose cursor is tracked. -/
theorem exists_tracked {w : Widgets} {moves : Message → Bool} (hw : w.Clamping moves)
    (report : Report) (history : List Int) (ms : List Message) :
    ∃ b, (start report history w).run? w ms = some b ∧ Sound report b ∧
      Tracked w moves (start report history w) ms b := by
  obtain ⟨hrange, hbefore⟩ := inRange_start hw report history
  have hstart : Tracked w moves (start report history w) [] (start report history w) :=
    ⟨rfl, hrange, hbefore.trans leftBefore_nil_iff.symm⟩
  obtain ⟨b, hrun, -, hs, htracked⟩ := (Sound.start hw.toLawful report history).run_induction
    hw.toLawful hstart (fun _ _ _ _ hs hchange hupdate h => h.concat hw hs hchange hupdate) ms
  exact ⟨b, hrun, hs, htracked⟩

/-- For every report and all messages that reach a browser for it: when issues are shown, none of them is
selected exactly when there was a moment at which none was shown and no message has moved the cursor of
the table since then. -/
theorem selected?_eq_none_iff {w : Widgets} {moves : Message → Bool} (hw : w.Clamping moves)
    (report : Report) (history : List Int) (ms : List Message) :
    ∃ b, (start report history w).run? w ms = some b ∧
      (b.shown ≠ [] → (b.selected? = none ↔ ∃ i ≤ ms.length,
        ((start report history w).after w ms i).shown = [] ∧ ∀ j m, i ≤ j → ms[j]? = some m →
          ¬(((start report history w).after w ms j).leavesToTable m = true ∧ moves m = true))) := by
  obtain ⟨b, hrun, -, htracked⟩ := exists_tracked hw report history ms
  exact ⟨b, hrun, fun _ => htracked.inRange.unselected_iff.trans htracked.before_iff⟩

/-- A browser for a report with one finding shows it when the filter admits it. -/
theorem Sound.shown_of_one {report : Report} {b : Browser} {i : Issue} (hs : Sound report b)
    (hone : report.issues = [i]) : b.shown = if b.filter.admits i then [i] else [] := by
  have hperm := (b.order.isStableSort_sort (b.issues.filter b.filter.admits)).perm
  rw [← selection, ← hs.shown, hs.issues, hone, List.filter_singleton] at hperm
  cases hadmits : b.filter.admits i with
  | true => exact List.perm_singleton.1 (by simpa [hadmits] using hperm)
  | false => exact List.perm_nil.1 (by simpa [hadmits] using hperm)

/-- The key `v` hides the finding of a report with one finding of low severity. `esc` shows it again, and
a key that moves the cursor selects it. -/
theorem selected_again_after_down :
    ∃ b, (start { issues? := some [{ severity := .low }] } []).run? .standard
        [.key ⟨"v", ['v']⟩, .key ⟨"esc", []⟩, .key ⟨"down", []⟩] = some b ∧
      b.shown = [{ severity := .low }] ∧ b.selected? ≠ none := by
  obtain ⟨b, hrun, hnone⟩ := selected?_eq_none_iff Widgets.clamping_standard
    { issues? := some [{ severity := .low }] } []
    [.key ⟨"v", ['v']⟩, .key ⟨"esc", []⟩, .key ⟨"down", []⟩]
  obtain ⟨b', hrun', hs, htracked⟩ := exists_tracked Widgets.clamping_standard
    { issues? := some [{ severity := .low }] } []
    [.key ⟨"v", ['v']⟩, .key ⟨"esc", []⟩, .key ⟨"down", []⟩]
  obtain rfl := Option.some.inj (hrun.symm.trans hrun')
  have hfilter : some b.filter = some {} := by
    rw [← Option.map_some, ← hrun]
    rfl
  have hshown : b.shown = [{ severity := .low }] := by
    rw [hs.shown_of_one rfl, Option.some.inj hfilter]
    decide
  refine ⟨b, hrun, hshown, ?_⟩
  have hne : b.shown ≠ [] := by rw [hshown]; exact List.cons_ne_nil _ _
  rw [ne_eq, hnone hne]
  rintro ⟨i, hi, hempty, hstill⟩
  obtain hi | rfl := Nat.lt_or_eq_of_le hi
  · exact hstill 2 (.key ⟨"down", []⟩) (Nat.le_of_lt_succ hi) rfl ⟨rfl, rfl⟩
  · exact hne (htracked.after_eq ▸ hempty)

/-- Without that key, the finding is shown and not selected. -/
theorem shown_not_selected :
    ∃ b, (start { issues? := some [{ severity := .low }] } []).run? .standard
        [.key ⟨"v", ['v']⟩, .key ⟨"esc", []⟩] = some b ∧
      b.shown = [{ severity := .low }] ∧ b.selected? = none := by
  obtain ⟨b₁, hrun₁, hs₁, htracked₁⟩ := exists_tracked Widgets.clamping_standard
    { issues? := some [{ severity := .low }] } [] [.key ⟨"v", ['v']⟩]
  obtain ⟨b, hrun, hs, htracked⟩ := exists_tracked Widgets.clamping_standard
    { issues? := some [{ severity := .low }] } [] [.key ⟨"v", ['v']⟩, .key ⟨"esc", []⟩]
  have hfilter₁ : some b₁.filter = some { severity? := some .critical } := by
    rw [← Option.map_some, ← hrun₁]
    rfl
  have hfilter : some b.filter = some {} := by
    rw [← Option.map_some, ← hrun]
    rfl
  have hempty : b₁.shown = [] := by
    rw [hs₁.shown_of_one rfl, Option.some.inj hfilter₁]
    decide
  have hshown : b.shown = [{ severity := .low }] := by
    rw [hs.shown_of_one rfl, Option.some.inj hfilter]
    decide
  refine ⟨b, hrun, hshown, ?_⟩
  rw [htracked.inRange.unselected_iff, htracked.before_iff]
  refine ⟨1, by decide, ?_, ?_⟩
  · rwa [← htracked₁.after_eq] at hempty
  · intro j m hj hm
    obtain ⟨hlt, rfl⟩ := List.getElem?_eq_some_iff.1 hm
    obtain rfl : j = 1 := by simp at hlt; omega
    have hesc : (⟨"esc", []⟩ : Key).isAny ["esc"] = true := by decide
    simp [leavesToTable_of_isAny _ hesc (by decide)]

end LiteralAudit.Browser
