import LiteralAudit.Proofs.Regex.Ways

/-!
# The table of an automaton

The reading places of an expression are numbered one after the other (`Core.numbered_ofRegex`), so that
the rows that fill the table of its automaton are for distinct positions and stay as they are
(`holds_automaton`). Hence the ways of the automaton do what the expression matches (`leads_of_start`), and
can be taken wherever it does (`enters_of_leads`).
-/

namespace LiteralAudit.Regex

/-! ## Numbers of reading places -/

namespace Core

theorem reads_chain (last : Core) (cs : List Core) :
    (chain last cs).reads = cs.flatMap reads ++ last.reads := by
  induction cs with
  | nil => rfl
  | cons c cs ih => rw [chain, reads, ih, List.flatMap_cons, List.append_assoc]

theorem reads_optional (greedy : Bool) (cs : List Core) :
    (optional greedy cs).reads = cs.flatMap reads := by
  induction cs with
  | nil => rfl
  | cons c cs ih =>
    cases cs with
    | nil => simp [optional, reads]
    | cons d ds =>
      show c.reads ++ (optional greedy (d :: ds)).reads = _
      rw [ih, ← List.flatMap_cons]

theorem reads_bounded (greedy : Bool) (turns more : List Core) :
    (bounded greedy turns more).reads = turns.flatMap reads ++ more.flatMap reads := by
  unfold bounded
  split
  · next hnil =>
    obtain rfl : turns = [] := by simpa using hnil
    exact reads_optional greedy _
  · next last before hcons =>
    obtain rfl : turns = before.reverse ++ [last] := by rw [← List.reverse_reverse turns, hcons]; simp
    simp [reads_chain]
  · rw [reads_chain, reads_optional]

/-- An action numbers the reading places of what it makes from its state on. -/
def Numbers (act : StateM Nat Core) : Prop :=
  ∀ n, ∃ k, (act n).2 = n + k ∧ (act n).1.reads.map Prod.fst = List.range' n k

theorem numbers_copies {act : StateM Nat Core} (h : Numbers act) (m n : Nat) :
    ∃ k, (copies act m n).2 = n + k ∧
      ((copies act m n).1.flatMap reads).map Prod.fst = List.range' n k := by
  induction m generalizing n with
  | zero => exact ⟨0, rfl, rfl⟩
  | succ m ih =>
    obtain ⟨k, hk, hreads⟩ := h n
    obtain ⟨j, hj, hmore⟩ := ih (act n).2
    refine ⟨k + j, ?_, ?_⟩
    · show (copies act m (act n).2).2 = _
      rw [hj, hk, Nat.add_assoc]
    · show (((act n).1 :: (copies act m (act n).2).1).flatMap reads).map Prod.fst = _
      rw [List.flatMap_cons, List.map_append, hreads, hmore, hk, List.range'_append_1]

theorem numbers_unfold {act : StateM Nat Core} (h : Numbers act) (least : Nat) (most : Option Nat)
    (greedy : Bool) : Numbers (unfold least most greedy act) := by
  intro n
  cases most with
  | none =>
    rw [unfold_none]
    obtain ⟨k, hk, hreads⟩ := numbers_copies h (least - 1) n
    obtain ⟨j, hj, hlast⟩ := h (copies act (least - 1) n).2
    refine ⟨k + j, by rw [hj, hk, Nat.add_assoc], ?_⟩
    rw [hk] at hlast
    dsimp only
    cases least with
    | zero =>
      obtain rfl : k = 0 := by
        have hzero : n = n + k := hk
        omega
      rw [Nat.zero_add]
      exact hlast
    | succ least =>
      rw [if_neg (by simp), reads_chain, List.map_append, hreads, reads, hk, hlast,
        List.range'_append_1]
  | some most =>
    rw [unfold_some]
    obtain ⟨k, hk, hreads⟩ := numbers_copies h least n
    obtain ⟨j, hj, hmore⟩ := numbers_copies h (most - least) (copies act least n).2
    refine ⟨k + j, by rw [hj, hk, Nat.add_assoc], ?_⟩
    rw [reads_bounded, List.map_append, hreads, hmore, hk, List.range'_append_1]

theorem numbers_both {a b : StateM Nat Core} (ha : Numbers a) (hb : Numbers b) (n : Nat) :
    ∃ k, (b (a n).2).2 = n + k ∧
      ((a n).1.reads ++ (b (a n).2).1.reads).map Prod.fst = List.range' n k := by
  obtain ⟨k, hk, hreads⟩ := ha n
  obtain ⟨j, hj, hmore⟩ := hb (a n).2
  refine ⟨k + j, by rw [hj, hk, Nat.add_assoc], ?_⟩
  rw [List.map_append, hreads, hmore, hk, List.range'_append_1]

/-- The reading places of an expression are numbered one after the other. -/
theorem numbers_ofRegex (r : Regex) : Numbers (ofRegex r) := by
  induction r with
  | empty => exact fun n => ⟨0, rfl, rfl⟩
  | chars set => exact fun n => ⟨1, rfl, rfl⟩
  | place p => exact fun n => ⟨0, rfl, rfl⟩
  | group k body ih => exact ih
  | seq a b iha ihb => exact numbers_both iha ihb
  | alt a b iha ihb => exact numbers_both iha ihb
  | rep least most greedy body ih => exact numbers_unfold ih least most greedy

/-! ## Rows of the table -/

/-- There is one row for each reading place. -/
theorem map_fst_follow (c : Core) (next : List Way) :
    (c.follow next).map Prod.fst = c.reads.map Prod.fst := by
  induction c generalizing next with
  | empty => rfl
  | read pos set => rfl
  | place p => rfl
  | group n body ih => exact ih _
  | seq a b iha ihb =>
    show (a.follow _ ++ b.follow _).map Prod.fst = (a.reads ++ b.reads).map Prod.fst
    rw [List.map_append, List.map_append, iha, ihb]
  | alt a b iha ihb =>
    show (a.follow _ ++ b.follow _).map Prod.fst = (a.reads ++ b.reads).map Prod.fst
    rw [List.map_append, List.map_append, iha, ihb]
  | opt greedy body ih => exact ih _
  | loop greedy body ih => exact ih _


/-- Where a way reads, a list says so. -/
def Listed (reads : List (Nat × CharSet)) (w : Way) : Prop :=
  ∀ p set, w.target = .read p set → (p, set) ∈ reads

variable {reads : List (Nat × CharSet)}

theorem listed_of_skip {w : Way} (h : w.target = .skip) : Listed reads w := by
  rintro p set hread
  rw [h] at hread
  cases hread

theorem Listed.andThen {ways next : List Way} (hways : ∀ w ∈ ways, Listed reads w)
    (hnext : ∀ w ∈ next, Listed reads w) : ∀ w ∈ Way.andThen ways next, Listed reads w := by
  intro w hw
  obtain ⟨hw, -⟩ | ⟨u, -, -, v, hv, rfl⟩ := (Way.andThen_spec ways next).1 w hw
  · exact hways w hw
  · exact hnext v hv

theorem listed_first {c : Core} (hc : ∀ q ∈ c.reads, q ∈ reads) : ∀ w ∈ c.first, Listed reads w := by
  induction c with
  | empty =>
    rintro w hw
    obtain rfl := List.mem_singleton.1 hw
    exact listed_of_skip rfl
  | read pos set =>
    rintro w hw p set' htarget
    obtain rfl := List.mem_singleton.1 hw
    cases htarget
    exact hc _ (List.mem_singleton_self _)
  | place p =>
    rintro w hw
    obtain rfl := List.mem_singleton.1 hw
    exact listed_of_skip rfl
  | group n body ih =>
    rintro w hw
    obtain ⟨x, hx, rfl⟩ := List.mem_map.1 hw
    exact ih hc x hx
  | seq a b iha ihb =>
    exact Listed.andThen (iha fun q hq => hc q (List.mem_append_left _ hq))
      (ihb fun q hq => hc q (List.mem_append_right _ hq))
  | alt a b iha ihb =>
    intro w hw
    obtain hw | hw := List.mem_append.1 ((Way.pruneSkips_spec (a.first ++ b.first)).1 w hw)
    · exact iha (fun q hq => hc q (List.mem_append_left _ hq)) w hw
    · exact ihb (fun q hq => hc q (List.mem_append_right _ hq)) w hw
  | opt greedy body ih =>
    intro w hw
    obtain hw | rfl := mem_first_opt hw
    · exact ih hc w hw
    · exact listed_of_skip rfl
  | loop greedy body ih => exact ih hc

theorem listed_follow {c : Core} (hc : ∀ q ∈ c.reads, q ∈ reads) {next : List Way}
    (hnext : ∀ w ∈ next, Listed reads w) : ∀ row ∈ c.follow next, ∀ w ∈ row.2, Listed reads w := by
  induction c generalizing next with
  | empty => exact List.forall_mem_nil _
  | read pos set => exact List.forall_mem_singleton.2 hnext
  | place p => exact List.forall_mem_nil _
  | group n body ih =>
    refine ih hc fun w hw => ?_
    obtain ⟨x, hx, rfl⟩ := List.mem_map.1 hw
    exact hnext x hx
  | seq a b iha ihb =>
    have hb : ∀ q ∈ b.reads, q ∈ reads := fun q hq => hc q (List.mem_append_right _ hq)
    exact List.forall_mem_append.2
      ⟨iha (fun q hq => hc q (List.mem_append_left _ hq)) (Listed.andThen (listed_first hb) hnext),
        ihb hb hnext⟩
  | alt a b iha ihb =>
    exact List.forall_mem_append.2
      ⟨iha (fun q hq => hc q (List.mem_append_left _ hq)) hnext,
        ihb (fun q hq => hc q (List.mem_append_right _ hq)) hnext⟩
  | opt greedy body ih => exact ih hc hnext
  | loop greedy body ih =>
    refine ih hc fun w hw => ?_
    obtain ⟨hw, -⟩ | hw := mem_next_loop.1 hw
    · exact listed_first hc w hw
    · exact hnext w hw

end Core

/-! ## The automaton -/

/-- What can be done from the positions of an automaton. -/
def Automaton.table (m : Automaton) : Table := fun p => m.next.getD p []

/-- The table filled with rows. -/
def fill (rows : List (Nat × List Way)) (table : Array (List Way)) : Array (List Way) :=
  rows.foldl (fun table row => table.setIfInBounds row.1 row.2) table

theorem getD_setIfInBounds (table : Array (List Way)) (p q : Nat) (ways : List Way) :
    (table.setIfInBounds p ways).getD q [] =
      if p = q ∧ p < table.size then ways else table.getD q [] := by
  rw [Array.getD_eq_getD_getElem?, Array.getElem?_setIfInBounds, Array.getD_eq_getD_getElem?]
  by_cases hpq : p = q
  · subst hpq
    by_cases hp : p < table.size <;> simp [hp]
  · simp [hpq]

theorem getD_fill_of_not_mem {rows : List (Nat × List Way)} {p : Nat} (hp : p ∉ rows.map Prod.fst)
    (table : Array (List Way)) : (fill rows table).getD p [] = table.getD p [] := by
  induction rows generalizing table with
  | nil => rfl
  | cons row rows ih =>
    rw [List.map_cons, List.mem_cons, not_or] at hp
    refine (ih hp.2 _).trans ?_
    rw [getD_setIfInBounds, if_neg fun h => hp.1 h.1.symm]

/-- Rows for distinct positions stay as they are. -/
theorem getD_fill {rows : List (Nat × List Way)} (hnodup : (rows.map Prod.fst).Nodup)
    {table : Array (List Way)} (hsize : ∀ row ∈ rows, row.1 < table.size) :
    ∀ row ∈ rows, (fill rows table).getD row.1 [] = row.2 := by
  induction rows generalizing table with
  | nil => exact List.forall_mem_nil _
  | cons row rows ih =>
    rw [List.map_cons, List.nodup_cons] at hnodup
    refine List.forall_mem_cons.2 ⟨?_, ih hnodup.2 fun row' hrow' => ?_⟩
    · refine (getD_fill_of_not_mem hnodup.1 _).trans ?_
      rw [getD_setIfInBounds, if_pos ⟨rfl, hsize row (List.mem_cons_self ..)⟩]
    · rw [Array.size_setIfInBounds]
      exact hsize row' (List.mem_cons_of_mem _ hrow')

/-- The numbered form of an expression. -/
def core (r : Regex) : Core := (Core.ofRegex r 0).1

theorem next_automaton (r : Regex) : r.automaton.next =
    fill (r.core.follow [{}]) (Array.replicate (Core.ofRegex r 0).2 []) := rfl

theorem positions_core (r : Regex) : r.core.reads.map Prod.fst = List.range' 0 (Core.ofRegex r 0).2 := by
  obtain ⟨k, hk, hreads⟩ := Core.numbers_ofRegex r 0
  rw [hk, Nat.zero_add]
  exact hreads

theorem positions_follow (r : Regex) :
    (r.core.follow [{}]).map Prod.fst = List.range' 0 (Core.ofRegex r 0).2 := by
  rw [Core.map_fst_follow, positions_core]

/-- The table of the automaton holds the ways from each position. -/
theorem holds_automaton (r : Regex) : r.automaton.table.Holds (r.core.follow [{}]) := by
  intro row hrow
  have hpositions := positions_follow r
  unfold Automaton.table
  rw [next_automaton]
  refine getD_fill (hpositions ▸ List.nodup_range') (fun row hrow => ?_) row hrow
  have hmem : row.1 ∈ List.range' 0 (Core.ofRegex r 0).2 := hpositions ▸ List.mem_map_of_mem hrow
  simpa using hmem

/-- There is nothing else in the table. -/
theorem exists_row {r : Regex} {p : Nat} {w : Way} (hw : w ∈ r.automaton.table p) :
    ∃ row ∈ r.core.follow [{}], w ∈ row.2 := by
  by_cases hp : p ∈ (r.core.follow [{}]).map Prod.fst
  · obtain ⟨row, hrow, rfl⟩ := List.mem_map.1 hp
    exact ⟨row, hrow, holds_automaton r row hrow ▸ hw⟩
  · unfold Automaton.table at hw
    rw [next_automaton, getD_fill_of_not_mem hp, Array.getD_eq_getD_getElem?,
      Array.getElem?_replicate] at hw
    split at hw <;> cases hw

/-- The set that a position of the automaton reads. -/
def sets (r : Regex) (p : Nat) : CharSet := (r.core.reads.lookup p).getD []

theorem lookup_of_mem {rows : List (Nat × CharSet)} (hnodup : (rows.map Prod.fst).Nodup) :
    ∀ row ∈ rows, rows.lookup row.1 = some row.2 := by
  induction rows with
  | nil => exact List.forall_mem_nil _
  | cons row rows ih =>
    rw [List.map_cons, List.nodup_cons] at hnodup
    refine List.forall_mem_cons.2 ⟨List.lookup_cons_self, fun row' hrow' => ?_⟩
    have hne : row'.1 ≠ row.1 := fun h => hnodup.1 (h ▸ List.mem_map_of_mem hrow')
    rw [List.lookup_cons, beq_false_of_ne hne]
    exact ih hnodup.2 row' hrow'

theorem labelled_core (r : Regex) : r.core.Labelled r.sets := by
  intro q hq
  unfold sets
  rw [lookup_of_mem (positions_core r ▸ List.nodup_range') q hq, Option.getD_some]

/-- A way reads what its position reads. -/
def Marked (r : Regex) (w : Way) : Prop := ∀ p set, w.target = .read p set → set = r.sets p

theorem marked_of_listed {r : Regex} {w : Way} (h : Core.Listed r.core.reads w) : r.Marked w :=
  fun p set htarget => (labelled_core r (p, set) (h p set htarget)).symm

theorem marked_start {r : Regex} {w : Way} (hw : w ∈ r.automaton.start) : r.Marked w :=
  marked_of_listed (Core.listed_first (fun _ hq => hq) w hw)

theorem marked_table {r : Regex} {p : Nat} {w : Way} (hw : w ∈ r.automaton.table p) : r.Marked w := by
  obtain ⟨row, hrow, hw⟩ := exists_row hw
  have hdone : ∀ v ∈ [({} : Way)], Core.Listed r.core.reads v :=
    List.forall_mem_singleton.2 (Core.listed_of_skip rfl)
  exact marked_of_listed (Core.listed_follow (fun _ hq => hq) hdone row hrow w hw)

/-! ## What the automaton matches -/

/-- A way that goes to the end from the start of the automaton matches the expression. -/
theorem leads_of_start {r : Regex} {w : Way} (hw : w ∈ r.automaton.start) {s u : Trail}
    (h : Goes r.automaton.table w s u) : r.Leads s u := by
  rw [← Core.leads_ofRegex r 0]
  cases hskip : w.isSkip with
  | true =>
    obtain ⟨hmeets, harrives⟩ := goes_iff.1 h
    rw [isSkip_iff.1 hskip] at harrives
    obtain rfl : u = s.pass w.borders := harrives
    exact Core.leads_of_skip hw hskip hmeets
  | false =>
    obtain ⟨t, hlead, -, v, hv, hgo⟩ := Core.leads_of_goes (holds_automaton r) hw hskip h
    obtain rfl := List.mem_singleton.1 hv
    obtain ⟨-, rfl⟩ := goes_iff.1 hgo
    rwa [Trail.pass_nil]

/-- Wherever the expression matches, the automaton can be entered. -/
theorem enters_of_leads {r : Regex} {s t : Trail} (h : r.Leads s t) :
    Enters r.sets r.automaton.table r.automaton.start s.spot := by
  rw [← Core.leads_ofRegex r 0] at h
  obtain ⟨-, w, hw, hskip, hmeets⟩ | hstarts := Core.complete_of_leads (labelled_core r) h
  · exact ⟨w, hw, .skip hmeets (isSkip_iff.1 hskip)⟩
  · refine (hstarts _ _ (holds_automaton r) ⟨{}, List.mem_singleton_self _, ?_⟩).enters
    exact .skip (List.forall_mem_nil _) rfl

end LiteralAudit.Regex
