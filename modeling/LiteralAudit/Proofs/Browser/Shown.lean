import LiteralAudit.Proofs.Browser.Order

/-!
# What a browser shows

`Browser.Change` says once what a message can do to a browser: the filter or the order is set and the rows
are made anew, a mode or a text is set, the table gets another size, the cursor jumps, or the table sees
the message. It covers every message that reaches a browser whose choice is one of its kinds
(`Browser.exists_change`), so that no index is ever out of range; and each of the changes keeps that the
browser shows what the filter and the order make of the issues (`Browser.Sound.change`).

The table and the search box may do what they like, as long as the rows of the table are those that it was
given (`Browser.Widgets.Lawful`). `Browser.run?_shows_selection` is what follows for every sequence of
messages.
-/

namespace LiteralAudit

theorem Key.isAny_of_subset {k : Key} {ns ms : List String} (h : k.isAny ns = true) (hsub : ns ⊆ ms) :
    k.isAny ms = true := by
  obtain ⟨n, hn, hk⟩ := List.any_eq_true.1 h
  exact List.any_eq_true.2 ⟨n, hsub hn, hk⟩

namespace Browser

/-! ## Rows of other files -/

theorem exists_passFile? (is : List Issue) (file : Text) (way : Way) (i : Int) :
    ∃ j, passFile? is file way i = some j := by
  fun_induction passFile? is file way i with
  | case1 i hi ih =>
    obtain ⟨here, hhere⟩ := exists_item? hi.1 hi.2
    rw [hhere, Option.bind_some]
    split
    · exact ih
    · exact ⟨i, rfl⟩
  | case2 i hi => exact ⟨i, rfl⟩

/-- The first of the rows of a file is one of the rows. -/
theorem exists_runStart? {is : List Issue} (file : Text) {i : Int} (hi : 0 ≤ i)
    (hlt : i < is.length) : ∃ j, runStart? is file i = some j ∧ 0 ≤ j ∧ j < is.length := by
  fun_induction runStart? is file i with
  | case1 i hpos ih =>
    obtain ⟨above, habove⟩ : ∃ x, item? is (i - 1) = some x := exists_item? (by omega) (by omega)
    rw [habove, Option.bind_some]
    split
    · exact ih (by omega) (by omega)
    · exact ⟨i, rfl, hi, hlt⟩
  | case2 i hpos => exact ⟨i, rfl, hi, hlt⟩

/-! ## What a message does -/

/-- The keys that the browser does not leave to the table. -/
def ownKeys : List String :=
  ["q", "ctrl+c"] ++ ["/"] ++ ["t"] ++ ["v"] ++ ["s"] ++ ["c"] ++ ["n"] ++ ["N"] ++ ["esc"]

/-- The browser leaves a message to the table. -/
def leavesToTable (b : Browser) : Message → Bool
  | .key k =>
    match b.mode with
    | .normal => !k.isAny ownKeys
    | _ => false
  | .resized _ _ => false
  | .other _ =>
    match b.mode with
    | .search => false
    | _ => true

theorem leavesToTable_of_isAny {k : Key} {ns : List String} (b : Browser) (h : k.isAny ns = true)
    (hsub : ns ⊆ ownKeys) : b.leavesToTable (.key k) = false := by
  rw [leavesToTable]
  split
  · rw [Key.isAny_of_subset h hsub, Bool.not_true]
  · rfl

/-- What a message can make of a browser. -/
inductive Change (w : Widgets) (b : Browser) (m : Message) : Browser → Prop where
  /-- The filter or the order is set, and the rows are made anew. -/
  | rebuilt (filter : Filter) (order : Order) (mode : Mode) (input : LineEditor) (status : Text) :
      b.leavesToTable m = false →
      Change w b m { rebuild w { b with filter, order, mode, input } with status }
  | edited (mode : Mode) (choice : Int) (input : LineEditor) (status clipboard : Text) :
      b.leavesToTable m = false → 0 ≤ choice → choice ≤ b.kinds.length →
      Change w b m { b with mode, choice, input, status, clipboard }
  | resized (width height lines : Int) : b.leavesToTable m = false →
      Change w b m { b with width, height, grid := w.resize b.grid width lines }
  /-- The cursor goes from one row to another. -/
  | jumped (i : Int) (status : Text) : b.leavesToTable m = false →
      0 ≤ b.grid.cursor → b.grid.cursor < b.shown.length → 0 ≤ i → i < b.shown.length →
      Change w b m { b with grid := w.select b.grid i, status }
  | left : b.leavesToTable m = true → Change w b m { b with grid := w.table b.grid m }

section Change

variable {w : Widgets} {b : Browser} {m : Message} {k : Key}
  (hlow : 0 ≤ b.choice) (hhigh : b.choice ≤ b.kinds.length)

include hlow hhigh

theorem exists_jump? (way : Way) (hm : b.leavesToTable m = false) :
    ∃ b', b.jump? w way = some b' ∧ Change w b m b' := by
  have hsame : ∀ status, Change w b m { b with status } := fun status =>
    .edited b.mode b.choice b.input status b.clipboard hm hlow hhigh
  unfold jump?
  split
  · exact ⟨b, rfl, hsame b.status⟩
  · next hrange =>
    obtain ⟨here, hhere⟩ : ∃ x, item? b.shown b.grid.cursor = some x :=
      exists_item? (by omega) (by omega)
    obtain ⟨i, hi⟩ := exists_passFile? b.shown here.file way (b.grid.cursor + way.step)
    simp only [hhere, hi, Option.bind_eq_bind, Option.bind_some]
    split
    · exact ⟨_, rfl, hsame "No more files"⟩
    · next hin =>
      obtain ⟨there, hthere⟩ : ∃ x, item? b.shown i = some x := exists_item? (by omega) (by omega)
      have hjump : ∀ (j : Int) (status : Text), 0 ≤ j → j < b.shown.length →
          Change w b m { b with grid := w.select b.grid j, status } := fun j status =>
        .jumped j status hm (by omega) (by omega)
      cases way with
      | forth =>
        simp only [hthere, Option.bind_some]
        exact ⟨_, rfl, hjump i there.file (by omega) (by omega)⟩
      | back =>
        obtain ⟨j, hj, hj0, hjlt⟩ : ∃ j, runStart? b.shown there.file i = some j ∧ _ :=
          exists_runStart? there.file (by omega) (by omega)
        obtain ⟨landed, hlanded⟩ : ∃ x, item? b.shown j = some x := exists_item? hj0 hjlt
        simp only [hthere, hj, hlanded, Option.bind_some]
        exact ⟨_, rfl, hjump j landed.file hj0 hjlt⟩

theorem exists_pressNormal? (hmode : b.mode = .normal) :
    ∃ r, b.pressNormal? w k = some r ∧ Change w b (.key k) r.1 := by
  have hown {ns : List String} (h : k.isAny ns = true) (hsub : ns ⊆ ownKeys) :=
    leavesToTable_of_isAny b h hsub
  unfold pressNormal?
  by_cases hquit : k.isAny ["q", "ctrl+c"] = true
  · rw [if_pos hquit]
    exact ⟨_, rfl, .edited b.mode b.choice b.input b.status b.clipboard (hown hquit (by decide)) hlow hhigh⟩
  rw [if_neg hquit]
  by_cases hsearch : k.isAny ["/"] = true
  · rw [if_pos hsearch]
    exact ⟨_, rfl, .edited .search b.choice b.input b.status b.clipboard (hown hsearch (by decide)) hlow hhigh⟩
  rw [if_neg hsearch]
  by_cases hkinds : k.isAny ["t"] = true
  · rw [if_pos hkinds]
    refine ⟨_, rfl, .edited .choosing 0 b.input b.status b.clipboard (hown hkinds (by decide)) le_rfl ?_⟩
    exact Int.natCast_nonneg _
  rw [if_neg hkinds]
  by_cases hlevel : k.isAny ["v"] = true
  · rw [if_pos hlevel]
    exact ⟨_, rfl, .rebuilt _ b.order b.mode b.input _ (hown hlevel (by decide))⟩
  rw [if_neg hlevel]
  by_cases horder : k.isAny ["s"] = true
  · rw [if_pos horder]
    exact ⟨_, rfl, .rebuilt b.filter _ b.mode b.input _ (hown horder (by decide))⟩
  rw [if_neg horder]
  by_cases hcopy : k.isAny ["c"] = true
  · rw [if_pos hcopy]
    refine ⟨_, rfl, ?_⟩
    unfold copy
    split
    · exact .edited b.mode b.choice b.input _ b.clipboard (hown hcopy (by decide)) hlow hhigh
    · exact .edited b.mode b.choice b.input _ _ (hown hcopy (by decide)) hlow hhigh
  rw [if_neg hcopy]
  by_cases hforth : k.isAny ["n"] = true
  · rw [if_pos hforth]
    obtain ⟨b', hb', hchange⟩ := exists_jump? (w := w) hlow hhigh .forth (hown hforth (by decide))
    exact ⟨_, by rw [hb', Option.map_some], hchange⟩
  rw [if_neg hforth]
  by_cases hback : k.isAny ["N"] = true
  · rw [if_pos hback]
    obtain ⟨b', hb', hchange⟩ := exists_jump? (w := w) hlow hhigh .back (hown hback (by decide))
    exact ⟨_, by rw [hb', Option.map_some], hchange⟩
  rw [if_neg hback]
  by_cases hreset : k.isAny ["esc"] = true
  · rw [if_pos hreset]
    exact ⟨_, rfl, .rebuilt {} b.order b.mode {} [] (hown hreset (by decide))⟩
  rw [if_neg hreset]
  refine ⟨_, rfl, .left ?_⟩
  simp only [leavesToTable, hmode, ownKeys, Key.isAny_append]
  simp_all only [Bool.not_eq_true, Bool.or_false, Bool.not_false]

theorem change_pressSearch (hmode : b.mode = .search) :
    Change w b (.key k) (b.pressSearch w k) := by
  have hm : b.leavesToTable (.key k) = false := by simp [leavesToTable, hmode]
  unfold pressSearch
  split
  · exact .rebuilt _ b.order .normal b.input b.status hm
  split
  · exact .edited .normal b.choice _ b.status b.clipboard hm hlow hhigh
  · exact .edited b.mode b.choice _ b.status b.clipboard hm hlow hhigh

theorem exists_chosenKind? : ∃ kind, b.chosenKind? = some kind := by
  unfold chosenKind?
  split
  · exact ⟨[], rfl⟩
  · next hne =>
    have hne : b.choice ≠ 0 := by simpa using hne
    exact exists_item? (by omega) (by omega)

theorem exists_pressChoosing? (hmode : b.mode = .choosing) :
    ∃ b', b.pressChoosing? w k = some b' ∧ Change w b (.key k) b' := by
  have hm : b.leavesToTable (.key k) = false := by simp [leavesToTable, hmode]
  have hchosen : ∀ choice : Int, 0 ≤ choice → choice ≤ b.kinds.length →
      Change w b (.key k) { b with choice } := fun choice =>
    .edited b.mode choice b.input b.status b.clipboard hm
  unfold pressChoosing?
  split
  · refine ⟨_, rfl, ?_⟩
    split
    · exact hchosen _ (by omega) (by omega)
    · exact hchosen b.choice hlow hhigh
  split
  · refine ⟨_, rfl, ?_⟩
    split
    · exact hchosen _ (by omega) (by omega)
    · exact hchosen b.choice hlow hhigh
  split
  · obtain ⟨kind, hkind⟩ := exists_chosenKind? hlow hhigh
    rw [hkind, Option.map_some]
    exact ⟨_, rfl, .rebuilt _ b.order .normal b.input _ hm⟩
  split
  · exact ⟨_, rfl, .edited .normal b.choice b.input b.status b.clipboard hm hlow hhigh⟩
  · exact ⟨_, rfl, hchosen b.choice hlow hhigh⟩

/-- A message to a browser whose choice is one of its kinds comes to an end with a change. -/
theorem exists_change (m : Message) : ∃ r, b.update? w m = some r ∧ Change w b m r.1 := by
  cases m with
  | key k =>
    show ∃ r, b.press? w k = some r ∧ _
    unfold press?
    cases hmode : b.mode with
    | normal => exact exists_pressNormal? hlow hhigh hmode
    | search => exact ⟨_, rfl, change_pressSearch hlow hhigh hmode⟩
    | choosing =>
      obtain ⟨b', hb', hchange⟩ := exists_pressChoosing? (w := w) (k := k) hlow hhigh hmode
      exact ⟨(b', {}), by simp only [hb', Option.map_some], hchange⟩
  | resized width height => exact ⟨_, rfl, .resized _ _ _ rfl⟩
  | other content =>
    rw [update?]
    split
    · next hmode =>
      have hm : b.leavesToTable (.other content) = false := by simp only [leavesToTable, hmode]
      exact ⟨_, rfl, .edited _ b.choice _ b.status b.clipboard hm hlow hhigh⟩
    · next hmode =>
      refine ⟨_, rfl, .left ?_⟩
      rw [leavesToTable]
      split
      · next hsearch => exact absurd hsearch hmode
      · rfl

end Change

/-! ## What every change keeps -/

/-- The table shows the rows that it was given, whatever else it does. -/
structure Widgets.Lawful (w : Widgets) : Prop where
  rows_setRows (g : Grid) (rows : List (List Text)) : (w.setRows g rows).rows = rows
  rows_select (g : Grid) (n : Int) : (w.select g n).rows = g.rows
  rows_resize (g : Grid) (width height : Int) : (w.resize g width height).rows = g.rows
  rows_table (g : Grid) (m : Message) : (w.table g m).rows = g.rows

theorem Widgets.lawful_standard : Widgets.standard.Lawful where
  rows_setRows := Grid.rows_setRows
  rows_select := Grid.rows_select
  rows_resize := Grid.rows_resize
  rows_table g m := by
    cases m with
    | key k => exact g.rows_press k
    | resized width height => rfl
    | other content => rfl

/-- A browser for a report shows what its filter and its order make of the issues. -/
structure Sound (report : Report) (b : Browser) : Prop where
  issues : b.issues = report.issues
  kinds : b.kinds = kindsOf report.issues
  choice_nonneg : 0 ≤ b.choice
  choice_le : b.choice ≤ b.kinds.length
  shown : b.shown = b.selection
  rows : b.grid.rows = b.shown.map row

section Rebuild

variable {w : Widgets} (hw : w.Lawful) (b : Browser)

include hw

theorem rows_rebuild : (rebuild w b).grid.rows = b.selection.map row := by
  unfold rebuild
  dsimp only
  split
  · rw [hw.rows_select, hw.rows_setRows]
  · rw [hw.rows_setRows]

end Rebuild

namespace Sound

variable {w : Widgets} {report : Report} {b b' : Browser} {m : Message}

theorem start (hw : w.Lawful) (report : Report) (history : List Int) :
    Sound report (start report history w) where
  issues := rfl
  kinds := rfl
  choice_nonneg := le_rfl
  choice_le := Int.natCast_nonneg _
  shown := rfl
  rows := rows_rebuild hw _

theorem change (hw : w.Lawful) (hs : Sound report b) (h : Change w b m b') : Sound report b' := by
  cases h with
  | rebuilt filter order mode input status hm =>
    exact ⟨hs.issues, hs.kinds, hs.choice_nonneg, hs.choice_le, rfl, rows_rebuild hw _⟩
  | edited mode choice input status clipboard hm hlow hhigh =>
    exact ⟨hs.issues, hs.kinds, hlow, hhigh, hs.shown, hs.rows⟩
  | resized width height lines hm =>
    exact { hs with rows := (hw.rows_resize ..).trans hs.rows }
  | jumped i status hm =>
    exact { hs with rows := (hw.rows_select ..).trans hs.rows }
  | left hm =>
    exact { hs with rows := (hw.rows_table ..).trans hs.rows }

/-- A message to a sound browser comes to an end, and leaves a sound browser. -/
theorem exists_update? (hw : w.Lawful) (hs : Sound report b) (m : Message) :
    ∃ b' e, b.update? w m = some (b', e) ∧ Change w b m b' ∧ Sound report b' := by
  obtain ⟨⟨b', e⟩, hb', hchange⟩ := exists_change (w := w) hs.choice_nonneg hs.choice_le m
  exact ⟨b', e, hb', hchange, hs.change hw hchange⟩

/-- What every change of a sound browser keeps, a run of messages keeps. -/
theorem run_induction (hw : w.Lawful) {P : List Message → Browser → Prop} (hs : Sound report b)
    (hstart : P [] b)
    (hP : ∀ ms m b b', Sound report b → Change w b m b' → (b.update m w).1 = b' → P ms b →
      P (ms ++ [m]) b')
    (ms : List Message) :
    ∃ b', b.run? w ms = some b' ∧ ms.foldl (fun b m => (b.update m w).1) b = b' ∧
      Sound report b' ∧ P ms b' := by
  induction ms using List.reverseRecOn with
  | nil => exact ⟨b, rfl, rfl, hs, hstart⟩
  | append_singleton ms m ih =>
    obtain ⟨b₁, hrun, hfold, hs₁, hP₁⟩ := ih
    obtain ⟨b₂, e, hb₂, hchange, hs₂⟩ := hs₁.exists_update? hw m
    have hupdate : (b₁.update m w).1 = b₂ := by
      rw [update, hb₂]
      rfl
    refine ⟨b₂, ?_, ?_, hs₂, hP ms m b₁ b₂ hs₁ hchange hupdate hP₁⟩
    · rw [run?] at hrun ⊢
      simp [List.foldlM_append, hrun, hb₂]
    · rw [List.foldl_concat, hfold, hupdate]

end Sound

/-- For every report and all messages that reach a browser for it, no index is out of range: the messages
come to an end. The choice is then one of the kinds of the report or none of them, the issues are those of
the report as they were found, and what is shown are the issues that pass the filter, stably sorted by the
order; in the order of discovery they are shown as they were found. The rows of the table are made of what
is shown. -/
theorem run?_shows_selection {w : Widgets} (hw : w.Lawful) (report : Report) (history : List Int)
    (ms : List Message) :
    ∃ b, (start report history w).run? w ms = some b ∧
      ms.foldl (fun b m => (b.update m w).1) (start report history w) = b ∧
      b.kinds = kindsOf report.issues ∧ 0 ≤ b.choice ∧ b.choice ≤ b.kinds.length ∧
      b.issues = report.issues ∧
      IsStableSort b.order.le (b.issues.filter b.filter.admits) b.shown ∧
      (b.order = .discovery → b.shown = b.issues.filter b.filter.admits) ∧
      b.grid.rows = b.shown.map row := by
  obtain ⟨b, hrun, hfold, hs, -⟩ := (Sound.start hw report history).run_induction hw
    (P := fun _ _ => True) trivial (fun _ _ _ _ _ _ _ _ => trivial) ms
  refine ⟨b, hrun, hfold, hs.kinds, hs.choice_nonneg, hs.choice_le, hs.issues, ?_, ?_, hs.rows⟩
  · rw [hs.shown]
    exact b.order.isStableSort_sort _
  · intro horder
    rw [hs.shown, selection, horder]
    rfl

/-- The keys `v` and `s`, each pressed three times, show of two findings the one of medium severity, in
the order of discovery. -/
theorem medium_finding_shown :
    ∃ b, (start { issues? := some [{ severity := .high }, { line := 7, severity := .medium }] }
        []).run? .standard
          (["v", "v", "v", "s", "s", "s"].map fun k => .key ⟨Text.ofString k, k.toList⟩) = some b ∧
      b.shown = [{ line := 7, severity := .medium }] ∧
      b.grid.rows = [row { line := 7, severity := .medium }] := by
  obtain ⟨b, hrun, -, -, -, -, hissues, -, hshown, hrows⟩ := run?_shows_selection
    Widgets.lawful_standard
    { issues? := some [{ severity := .high }, { line := 7, severity := .medium }] } []
    (["v", "v", "v", "s", "s", "s"].map fun k => .key ⟨Text.ofString k, k.toList⟩)
  have horder : some b.order = some .discovery := by
    rw [← Option.map_some, ← hrun]
    rfl
  have hfilter : some b.filter = some { severity? := some .medium } := by
    rw [← Option.map_some, ← hrun]
    rfl
  have hleft : b.shown = [{ line := 7, severity := .medium }] := by
    rw [hshown (Option.some.inj horder), hissues, Option.some.inj hfilter]
    decide
  exact ⟨b, hrun, hleft, by rw [hrows, hleft, List.map_singleton]⟩

end Browser

end LiteralAudit
