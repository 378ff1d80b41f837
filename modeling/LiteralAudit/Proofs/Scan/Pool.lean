import LiteralAudit.Scan.Pool
import Mathlib

/-!
# What every run of a worker pool keeps

`Pool.Inv` is an invariant of all runs from `Pool.start`, in whichever order the parties act and whenever
the work is cancelled: of the list of jobs, the dispatcher has given away exactly the first `k`, and the
result of each of them is in one place, with a worker, in the queue or at the collector. Together with
what the invariant says about the end of the parties it gives

* `Inv.returned_of_isStuck`: the pool comes to a stop only when the collector has returned;
* `Inv.results_eq`: then it has the results of the first `k` files, in the order of the files.

The invariant does not say who is at which job. Counting the occurrences of a result is enough, since
every action moves one result or none from one place to another.
-/

namespace LiteralAudit.Pool

variable {φ ρ : Type}

/-! ## Jobs and results by their places -/

/-- The result that a worker owes for the job it has. -/
def owed (job : φ → ρ) : Worker φ ρ → List (ρ × Nat)
  | .busy (file, i) => [(job file, i)]
  | .holding r => [r]
  | _ => []

/-- The file that a worker has still to work on. -/
def pending : Worker φ ρ → List Nat
  | .busy (_, i) => [i]
  | _ => []

/-- The results of all jobs that were given away, wherever they are. -/
def promised (job : φ → ρ) (p : Pool φ ρ) : List (ρ × Nat) :=
  p.received ++ p.sent ++ p.workers.flatMap (owed job)

/-- The files that were given away: those that were worked on, and those that will be. -/
def handled (p : Pool φ ρ) : List Nat := p.audited ++ p.workers.flatMap pending

/-- The jobs that the dispatcher has kept. -/
def kept : Dispatcher φ → List (φ × Nat)
  | .next todo => todo
  | .offering j todo => j :: todo
  | .done => []

/-- The results of the first `k` files with the places of the files. -/
def firstResults (job : φ → ρ) (files : List φ) (k : Nat) : List (ρ × Nat) :=
  (files.zipIdx.take k).map fun j => (job j.1, j.2)

theorem count_flatMap_set {β : Type} [BEq β] (f : Worker φ ρ → List β) (new : Worker φ ρ)
    {ws : List (Worker φ ρ)} {w : Nat} {old : Worker φ ρ} (h : ws[w]? = some old) (x : β) :
    ((ws.set w new).flatMap f).count x + (f old).count x =
      (ws.flatMap f).count x + (f new).count x := by
  induction ws generalizing w with
  | nil => simp at h
  | cons y ws ih =>
    cases w with
    | zero =>
      simp only [List.getElem?_cons_zero, Option.some.injEq] at h
      subst h
      simp only [List.set_cons_zero, List.flatMap_cons, List.count_append]
      omega
    | succ w =>
      have hrest := ih (by simpa using h)
      simp only [List.set_cons_succ, List.flatMap_cons, List.count_append]
      omega

/-- What the dispatcher offers next is the job at the place where it is. -/
theorem eq_of_drop_zipIdx {files : List φ} {k : Nat} {j : φ × Nat} {todo : List (φ × Nat)}
    (h : j :: todo = files.zipIdx.drop k) :
    k < files.length ∧ j.2 = k ∧ files.zipIdx.take (k + 1) = files.zipIdx.take k ++ [j] ∧
      todo = files.zipIdx.drop (k + 1) := by
  have hk : k < files.zipIdx.length := by
    by_contra hge
    rw [List.drop_eq_nil_of_le (by omega)] at h
    cases h
  rw [List.drop_eq_getElem_cons hk] at h
  obtain ⟨rfl, rfl⟩ := List.cons.inj h
  refine ⟨by simpa using hk, by simp, ?_, rfl⟩
  rw [List.take_succ_eq_append_getElem hk]

/-- What each action keeps, a run of such actions keeps. -/
theorem run_induction {job : φ → ρ} {p q : Pool φ ρ} {as : List Action} {P : Pool φ ρ → Prop}
    {A : Action → Prop}
    (hP : ∀ p q a, A a → Move job p a q → P p → P q) (hA : ∀ a ∈ as, A a)
    (h : p.run? job as = some q) (hp : P p) : P q := by
  induction as generalizing p with
  | nil =>
    cases h
    exact hp
  | cons a as ih =>
    rw [run?, List.foldlM_cons] at h
    obtain ⟨p', hstep, hrest⟩ := Option.bind_eq_some_iff.1 h
    have hp' := hP p p' a (hA a List.mem_cons_self) (step_eq_some_iff.1 hstep) hp
    exact ih (fun b hb => hA b (List.mem_cons_of_mem a hb)) hrest hp'

/-! ## The invariant -/

/-- The state of a pool that has given away the first `k` of its files. -/
structure Inv (job : φ → ρ) (files : List φ) (k : Nat) (p : Pool φ ρ) : Prop where
  k_le : k ≤ files.length
  /-- The dispatcher goes on where it stopped. -/
  kept_eq : p.dispatcher ≠ .done → kept p.dispatcher = files.zipIdx.drop k
  /-- It ends early only because the work was cancelled. -/
  cancelled_of_lt : p.dispatcher = .done → k < files.length → p.cancelled = true
  promised_perm : (p.promised job).Perm (firstResults job files k)
  handled_perm : p.handled.Perm (List.range k)
  /-- A worker goes only when nothing will be offered. -/
  done_of_gone : ∀ w ∈ p.workers, isGone w = true → p.dispatcher = .done
  gone_of_closed : p.closed = true → p.workers.all isGone = true
  closed_of_returned : p.returned = true → p.closed = true ∧ p.sent = []

namespace Inv

variable {job : φ → ρ} {files : List φ} {k : Nat} {p q : Pool φ ρ}

theorem start (workers : Nat) (cancelled : Bool) :
    Inv job files 0 (Pool.start files workers cancelled) where
  k_le := Nat.zero_le _
  kept_eq _ := rfl
  cancelled_of_lt h := by cases h
  promised_perm := by
    simp [promised, firstResults, Pool.start, owed, List.flatMap_replicate]
  handled_perm := by
    simp [handled, Pool.start, pending, List.flatMap_replicate]
  done_of_gone w hw hg := by
    rw [List.eq_of_mem_replicate hw] at hg
    cases hg
  gone_of_closed h := by cases h
  closed_of_returned h := by cases h

/-- While a worker is there the queue is open. -/
theorem closed_eq_false (hi : Inv job files k p) {w : Nat} {x : Worker φ ρ}
    (hw : p.workers[w]? = some x) (hx : isGone x = false) : p.closed = false := by
  by_contra hc
  have hall := hi.gone_of_closed (by simpa using hc)
  rw [List.all_eq_true.1 hall x (List.mem_of_getElem? hw)] at hx
  cases hx

theorem returned_eq_false (hi : Inv job files k p) (hc : p.closed = false) : p.returned = false := by
  by_contra hr
  have := (hi.closed_of_returned (by simpa using hr)).1
  rw [hc] at this
  cases this

/-- The next job of the dispatcher, once a worker has it, extends what is promised by its result. -/
theorem promised_take_perm (hi : Inv job files k p) {w : Nat} {j : φ × Nat}
    (hw : p.workers[w]? = some .idle)
    (hj : files.zipIdx.take (k + 1) = files.zipIdx.take k ++ [j]) :
    (p.received ++ p.sent ++ (p.workers.set w (.busy j)).flatMap (owed job)).Perm
      (firstResults job files (k + 1)) := by
  classical
  refine List.perm_iff_count.2 fun x => ?_
  have hset := count_flatMap_set (owed job) (.busy j) hw x
  have hold := List.perm_iff_count.1 hi.promised_perm x
  simp only [promised, firstResults, hj, List.map_append, List.map_singleton, List.count_append,
    owed, List.count_nil] at hset hold ⊢
  omega

theorem handled_take_perm (hi : Inv job files k p) {w : Nat} {j : φ × Nat}
    (hw : p.workers[w]? = some .idle) (hj : j.2 = k) :
    (p.audited ++ (p.workers.set w (.busy j)).flatMap pending).Perm (List.range (k + 1)) := by
  refine List.perm_iff_count.2 fun x => ?_
  have hset := count_flatMap_set pending (.busy j) hw x
  have hold := List.perm_iff_count.1 hi.handled_perm x
  simp only [handled, pending, hj, List.range_succ, List.count_append, List.count_nil] at hset hold ⊢
  omega

theorem done_of_gone_set (hi : Inv job files k p) (w : Nat) {new : Worker φ ρ}
    (hnew : isGone new = true → p.dispatcher = .done) :
    ∀ x ∈ p.workers.set w new, isGone x = true → p.dispatcher = .done := by
  intro x hx hg
  rcases List.mem_or_eq_of_mem_set hx with hx | rfl
  · exact hi.done_of_gone x hx hg
  · exact hnew hg

/-- A worker that goes on with what it has keeps the invariant. What it sends and what it says to have
worked on is what it owed and had pending before: nothing is lost or doubled. -/
theorem setWorker (hi : Inv job files k p) {w : Nat} {old : Worker φ ρ}
    (hw : p.workers[w]? = some old) (hold : isGone old = false) (new : Worker φ ρ)
    (sent : List (ρ × Nat)) (done : List Nat) (howed : owed job old = owed job new ++ sent)
    (hpending : pending old = pending new ++ done)
    (hnew : isGone new = true → p.dispatcher = .done) :
    Inv job files k
      { p with
        workers := p.workers.set w new
        sent := p.sent ++ sent
        audited := p.audited ++ done } := by
  classical
  have hc := hi.closed_eq_false hw hold
  have hr := hi.returned_eq_false hc
  refine {
    k_le := hi.k_le
    kept_eq := hi.kept_eq
    cancelled_of_lt := hi.cancelled_of_lt
    promised_perm := List.Perm.trans (List.perm_iff_count.2 fun x => ?_) hi.promised_perm
    handled_perm := List.Perm.trans (List.perm_iff_count.2 fun x => ?_) hi.handled_perm
    done_of_gone := hi.done_of_gone_set w hnew
    gone_of_closed := fun h => by rw [hc] at h; cases h
    closed_of_returned := fun h => by rw [hr] at h; cases h }
  · have hset := count_flatMap_set (owed job) new hw x
    rw [howed] at hset
    simp only [promised, List.count_append] at hset ⊢
    omega
  · have hset := count_flatMap_set pending new hw x
    rw [hpending] at hset
    simp only [handled, List.count_append] at hset ⊢
    omega

/-- An action keeps the invariant; taking a job makes one file more given away. -/
theorem move {a : Action} (hi : Inv job files k p) (hm : Move job p a q) :
    ∃ k', Inv job files k' q := by
  cases hm with
  | cancel hc => exact ⟨k, { hi with cancelled_of_lt := fun _ _ => rfl }⟩
  | exhausted hd =>
    refine ⟨k, { hi with
      kept_eq := fun h => absurd rfl h
      cancelled_of_lt := fun _ hlt => ?_
      done_of_gone := fun _ _ _ => rfl }⟩
    -- Nothing is left to offer, so `k` files are all of them.
    have hnil := hi.kept_eq (by simp [hd])
    rw [hd, kept, eq_comm, List.drop_eq_nil_iff, List.length_zipIdx] at hnil
    omega
  | stopped hd hc =>
    exact ⟨k, { hi with
      kept_eq := fun h => absurd rfl h
      cancelled_of_lt := fun _ _ => hc
      done_of_gone := fun _ _ _ => rfl }⟩
  | offered hd hc =>
    refine ⟨k, { hi with
      kept_eq := fun _ => ?_
      cancelled_of_lt := fun h => by cases h
      done_of_gone := fun w hw hg => ?_ }⟩
    · have h := hi.kept_eq (by simp [hd])
      rwa [hd] at h
    · have h := hi.done_of_gone w hw hg
      rw [hd] at h
      cases h
  | withdrawn hd hc =>
    exact ⟨k, { hi with
      kept_eq := fun h => absurd rfl h
      cancelled_of_lt := fun _ _ => hc
      done_of_gone := fun _ _ _ => rfl }⟩
  | @taken w j todo hd hw =>
    have hkept := hi.kept_eq (by simp [hd])
    rw [hd] at hkept
    obtain ⟨hk, hj, htake, hdrop⟩ := eq_of_drop_zipIdx hkept
    have hc := hi.closed_eq_false hw rfl
    have hr := hi.returned_eq_false hc
    refine ⟨k + 1, {
      k_le := hk
      kept_eq := fun _ => hdrop
      cancelled_of_lt := fun h => by cases h
      promised_perm := hi.promised_take_perm hw htake
      handled_perm := hi.handled_take_perm hw hj
      done_of_gone := fun x hx hg => ?_
      gone_of_closed := fun h => by rw [hc] at h; cases h
      closed_of_returned := fun h => by rw [hr] at h; cases h }⟩
    have h := hi.done_of_gone_set w (fun hg => by cases hg) x hx hg
    rw [hd] at h
    cases h
  | @audited w file i hw =>
    refine ⟨k, ?_⟩
    simpa using hi.setWorker hw rfl (.holding (job file, i)) [] [i] rfl rfl (fun h => by cases h)
  | @sent w r hw hroom =>
    refine ⟨k, ?_⟩
    simpa using hi.setWorker hw rfl .idle [r] [] rfl rfl (fun h => by cases h)
  | @left w hd hw =>
    refine ⟨k, ?_⟩
    simpa using hi.setWorker hw rfl .gone [] [] rfl rfl (fun _ => hd)
  | closed hc hall =>
    exact ⟨k, { hi with
      gone_of_closed := fun _ => hall
      closed_of_returned := fun h => by rw [hi.returned_eq_false hc] at h; cases h }⟩
  | @received r rest hs hr =>
    refine ⟨k, { hi with
      promised_perm := ?_
      closed_of_returned := fun h => by rw [hr] at h; cases h }⟩
    have hsame : p.received ++ [r] ++ rest = p.received ++ p.sent := by simp [hs]
    show (p.received ++ [r] ++ rest ++ p.workers.flatMap (owed job)).Perm _
    rw [hsame]
    exact hi.promised_perm
  | finished hc hs hr => exact ⟨k, { hi with closed_of_returned := fun _ => ⟨hc, hs⟩ }⟩

/-- Every run from a pool that has not done anything keeps the invariant. -/
theorem run {workers : Nat} {cancelled : Bool} {as : List Action}
    (h : (Pool.start files workers cancelled).run? job as = some p) :
    ∃ k, Inv job files k p :=
  run_induction (P := fun q => ∃ k, Inv job files k q) (A := fun _ => True)
    (fun _ _ _ _ hm ⟨_, hi⟩ => hi.move hm) (fun _ _ => trivial) h ⟨0, start workers cancelled⟩

end Inv

/-! ## Runs end -/

section Runs

variable {job : φ → ρ} {p q : Pool φ ρ} {as : List Action}

/-- Nobody can act, whether or not the work is cancelled next. -/
def IsStuck (job : φ → ρ) (p : Pool φ ρ) : Prop := ∀ a, a ≠ .cancel → p.step job a = none

theorem IsStuck.not_move (h : p.IsStuck job) {a : Action} (ha : a ≠ .cancel) :
    ¬ Move job p a q := by
  intro hm
  have hstep := step_eq_some_iff.2 hm
  rw [h a ha] at hstep
  cases hstep

/-- A run has at most as many actions as there was work before it. -/
theorem length_add_work_le (h : p.run? job as = some q) : as.length + q.work ≤ p.work := by
  induction as generalizing p with
  | nil =>
    cases h
    simp
  | cons a as ih =>
    rw [run?, List.foldlM_cons] at h
    obtain ⟨p', hstep, hrest⟩ := Option.bind_eq_some_iff.1 h
    have hlt := work_step_lt hstep
    have hle := ih hrest
    simp only [List.length_cons]
    omega

theorem workersWork_replicate_idle (n : Nat) :
    workersWork (List.replicate n (.idle : Worker φ ρ)) = n := by
  induction n with
  | zero => rfl
  | succ n ih =>
    rw [List.replicate_succ, workersWork, workerWork, ih]
    omega

theorem work_start (files : List φ) (workers : Nat) (cancelled : Bool) :
    (start files workers cancelled : Pool φ ρ).work ≤ 7 * files.length + workers + 5 := by
  simp only [work, start, dispatcherWork, List.length_zipIdx, workersWork_replicate_idle,
    List.length_nil]
  cases cancelled <;> simp <;> omega

theorem length_workers_move {a : Action} (h : Move job p a q) :
    q.workers.length = p.workers.length := by
  cases h <;> simp

theorem cancelled_move {a : Action} (h : Move job p a q) (ha : a ≠ .cancel) :
    q.cancelled = p.cancelled := by
  cases h with
  | cancel => exact absurd rfl ha
  | _ => rfl

theorem length_workers_run (h : p.run? job as = some q) :
    q.workers.length = p.workers.length :=
  run_induction (P := fun q => q.workers.length = p.workers.length) (A := fun _ => True)
    (fun _ _ _ _ hm hp => (length_workers_move hm).trans hp) (fun _ _ => trivial) h rfl

/-- Work that nobody cancels is not cancelled. -/
theorem cancelled_run (h : p.run? job as = some q) (hc : .cancel ∉ as) :
    q.cancelled = p.cancelled :=
  run_induction (P := fun q => q.cancelled = p.cancelled) (A := (· ≠ .cancel))
    (fun _ _ _ ha hm hp => (cancelled_move hm ha).trans hp)
    (fun _ ha hac => hc (hac ▸ ha)) h rfl

end Runs

namespace Inv

variable {job : φ → ρ} {files : List φ} {k : Nat} {p : Pool φ ρ}

/-- The pool stops only when the collector has returned: there is no deadlock. -/
theorem returned_of_isStuck (hi : Inv job files k p) (hw : 0 < p.workers.length)
    (hs : p.IsStuck job) : p.returned = true := by
  by_contra hr
  rw [Bool.not_eq_true] at hr
  have hempty : p.sent = [] := by
    cases hsent : p.sent with
    | nil => rfl
    | cons r rest => exact absurd (.received hsent hr) (hs.not_move (by simp))
  -- A worker with a job can go on, since there is room in the queue.
  have hworker : ∀ (w : Nat) (x : Worker φ ρ), p.workers[w]? = some x → x = .idle ∨ x = .gone := by
    intro w x hx
    cases x with
    | idle => exact .inl rfl
    | gone => exact .inr rfl
    | busy j => exact absurd (.audited hx) (hs.not_move (by simp))
    | holding r =>
      have hroom : p.sent.length < p.workers.length := by simpa [hempty] using hw
      exact absurd (.sent hx hroom) (hs.not_move (by simp))
  cases hd : p.dispatcher with
  | next todo =>
    cases todo with
    | nil => exact absurd (.exhausted hd) (hs.not_move (by simp))
    | cons j todo =>
      cases hc : p.cancelled with
      | false => exact absurd (.offered hd hc) (hs.not_move (by simp))
      | true => exact absurd (.stopped hd hc) (hs.not_move (by simp))
  | offering j todo =>
    have h0 : p.workers[0]? = some p.workers[0] := List.getElem?_eq_getElem hw
    rcases hworker 0 _ h0 with hx | hx
    · exact absurd (.taken hd (hx ▸ h0)) (hs.not_move (by simp))
    · have := hi.done_of_gone p.workers[0] (List.getElem_mem hw) (by rw [hx]; rfl)
      rw [hd] at this
      cases this
  | done =>
    have hall : p.workers.all isGone = true := by
      refine List.all_eq_true.2 fun x hx => ?_
      obtain ⟨w, hwx⟩ := List.mem_iff_getElem?.1 hx
      rcases hworker w x hwx with rfl | rfl
      · exact absurd (.left hd hwx) (hs.not_move (by simp))
      · rfl
    cases hc : p.closed with
    | false => exact absurd (.closed hc hall) (hs.not_move (by simp))
    | true => exact absurd (.finished hc hempty hr) (hs.not_move (by simp))

theorem done_of_returned (hi : Inv job files k p) (hw : 0 < p.workers.length)
    (hr : p.returned = true) : p.dispatcher = .done := by
  have hgone := List.all_eq_true.1 (hi.gone_of_closed (hi.closed_of_returned hr).1)
  have hmem : p.workers[0] ∈ p.workers := List.getElem_mem hw
  exact hi.done_of_gone _ hmem (hgone _ hmem)

/-- When the collector has returned, everybody else has finished before. -/
theorem isStuck_of_returned (hi : Inv job files k p) (hw : 0 < p.workers.length)
    (hr : p.returned = true) : p.IsStuck job := by
  obtain ⟨hc, hsent⟩ := hi.closed_of_returned hr
  have hdone := hi.done_of_returned hw hr
  have hgone := List.all_eq_true.1 (hi.gone_of_closed hc)
  have hworker : ∀ (w : Nat) (x : Worker φ ρ), p.workers[w]? = some x → x = .gone := by
    intro w x hx
    have := hgone x (List.mem_of_getElem? hx)
    cases x with
    | gone => rfl
    | _ => cases this
  intro a ha
  by_contra hne
  obtain ⟨q, hstep⟩ := Option.ne_none_iff_exists'.1 hne
  cases step_eq_some_iff.1 hstep with
  | cancel => exact ha rfl
  | exhausted hd | stopped hd | offered hd | withdrawn hd => rw [hdone] at hd; cases hd
  | taken _ hx | audited hx | sent hx | left _ hx => cases hworker _ _ hx
  | closed hc' => rw [hc] at hc'; cases hc'
  | received hs => rw [hsent] at hs; cases hs
  | finished _ _ hr' => rw [hr] at hr'; cases hr'

/-- Once the collector has returned it has the results of the first `k` files. -/
theorem received_perm (hi : Inv job files k p) (hr : p.returned = true) :
    p.received.Perm (firstResults job files k) := by
  obtain ⟨hc, hsent⟩ := hi.closed_of_returned hr
  have hgone := List.all_eq_true.1 (hi.gone_of_closed hc)
  have howed : p.workers.flatMap (owed job) = [] := by
    refine List.flatMap_eq_nil_iff.2 fun x hx => ?_
    cases x with
    | gone => rfl
    | _ => cases hgone _ hx
  have h := hi.promised_perm
  rwa [promised, hsent, howed, List.append_nil, List.append_nil] at h

/-- Each of the first `k` files was worked on once, and no other file was. -/
theorem audited_perm (hi : Inv job files k p) (hr : p.returned = true) :
    p.audited.Perm (List.range k) := by
  have hgone := List.all_eq_true.1 (hi.gone_of_closed (hi.closed_of_returned hr).1)
  have hpending : p.workers.flatMap pending = [] := by
    refine List.flatMap_eq_nil_iff.2 fun x hx => ?_
    cases x with
    | gone => rfl
    | _ => cases hgone _ hx
  have h := hi.handled_perm
  rwa [handled, hpending, List.append_nil] at h

theorem firstResults_pairwise (job : φ → ρ) (files : List φ) (k : Nat) :
    (firstResults job files k).Pairwise fun a b => a.2 < b.2 := by
  have hidx : (files.zipIdx.map (·.2)).Pairwise (· < ·) := by
    rw [List.zipIdx_map_snd]
    exact List.pairwise_lt_range'
  rw [List.pairwise_map] at hidx
  rw [firstResults, List.pairwise_map]
  exact hidx.sublist (List.take_sublist k files.zipIdx)

/-- Results in any order, sorted by places that are all different. -/
theorem mergeSort_eq_of_perm {rs sorted : List (ρ × Nat)} (h : rs.Perm sorted)
    (hlt : sorted.Pairwise fun a b => a.2 < b.2) :
    rs.mergeSort (fun a b => a.2 ≤ b.2) = sorted := by
  have hle : (rs.mergeSort fun a b => a.2 ≤ b.2).Pairwise fun a b => decide (a.2 ≤ b.2) = true :=
    List.pairwise_mergeSort (fun a b c hab hbc => by simp only [decide_eq_true_eq] at *; omega)
      (fun a b => by simp only [Bool.or_eq_true, decide_eq_true_eq]; omega) rs
  have hnodup : (sorted.map (·.2)).Nodup := by
    rw [List.Nodup, List.pairwise_map]
    exact hlt.imp fun hab => Nat.ne_of_lt hab
  have hperm := (List.mergeSort_perm rs fun a b => a.2 ≤ b.2).trans h
  refine hperm.eq_of_pairwise ?_ hle (hlt.imp fun hab => by simp only [decide_eq_true_eq]; omega)
  intro a b ha hb hab hba
  simp only [decide_eq_true_eq] at hab hba
  exact List.inj_on_of_nodup_map hnodup (hperm.mem_iff.1 ha) hb (Nat.le_antisymm hab hba)

/-- Whatever the order in which results arrive, sorting restores the order of the files. -/
theorem results_eq (hi : Inv job files k p) (hr : p.returned = true) :
    p.results = (files.take k).map job := by
  rw [results, mergeSort_eq_of_perm (hi.received_perm hr) (firstResults_pairwise job files k),
    firstResults, List.map_map]
  calc ((files.zipIdx.take k).map fun j => job j.1)
      = ((files.zipIdx.map (·.1)).take k).map job := by rw [← List.map_take, List.map_map]; rfl
    _ = (files.take k).map job := by rw [List.zipIdx_map_fst]

/-- What is given away is everything unless the work is cancelled. -/
theorem eq_length_of_returned (hi : Inv job files k p) (hr : p.returned = true)
    (hw : 0 < p.workers.length) (hc : p.cancelled = false) : k = files.length := by
  by_contra hne
  have := hi.cancelled_of_lt (hi.done_of_returned hw hr) (Nat.lt_of_le_of_ne hi.k_le hne)
  rw [hc] at this
  cases this

end Inv

/-! ## Schedules are runs -/

section Schedules

variable {job : φ → ρ} {p q : Pool φ ρ}

theorem run?_append {as bs : List Action} :
    p.run? job (as ++ bs) = (p.run? job as).bind fun q => q.run? job bs :=
  List.foldlM_append

/-- A schedule whose actions are all possible is followed to the letter. -/
theorem play_of_run? {as : List Action} (h : p.run? job as = some q) : p.play job as = q := by
  induction as generalizing p with
  | nil =>
    cases h
    rfl
  | cons a as ih =>
    rw [run?, List.foldlM_cons] at h
    obtain ⟨p', hstep, hrest⟩ := Option.bind_eq_some_iff.1 h
    rw [play, List.foldl_cons, hstep]
    exact ih hrest

/-- Following a schedule is a run of some of its actions. -/
theorem exists_run?_play (job : φ → ρ) (p : Pool φ ρ) (schedule : List Action) :
    ∃ as, as.Sublist schedule ∧ p.run? job as = some (p.play job schedule) := by
  induction schedule generalizing p with
  | nil => exact ⟨[], .slnil, rfl⟩
  | cons a schedule ih =>
    obtain ⟨as, hsub, hrun⟩ := ih ((p.step job a).getD p)
    cases hstep : p.step job a with
    | none =>
      rw [hstep] at hrun
      exact ⟨as, hsub.cons a, by rw [play, List.foldl_cons, hstep]; exact hrun⟩
    | some p' =>
      rw [hstep] at hrun
      refine ⟨a :: as, hsub.cons_cons a, ?_⟩
      rw [run?, List.foldlM_cons, hstep, play, List.foldl_cons, hstep]
      exact hrun

theorem isStuck_of_next? (h : p.next? job = none) : p.IsStuck job := by
  intro a ha
  rw [next?, List.findSome?_eq_none_iff] at h
  by_cases hmem : a ∈ p.attempts
  · exact h a hmem
  · -- What no one tries is an action of a worker that is not there.
    by_contra hne
    obtain ⟨q, hstep⟩ := Option.ne_none_iff_exists'.1 hne
    refine hmem ?_
    simp only [attempts, List.mem_append, List.mem_flatMap, List.mem_range, List.mem_cons,
      List.not_mem_nil, or_false]
    cases step_eq_some_iff.1 hstep with
    | cancel => exact absurd rfl ha
    | @taken w _ _ _ hw => exact .inr ⟨w, (List.getElem?_eq_some_iff.1 hw).1, by simp⟩
    | @audited w _ _ hw => exact .inr ⟨w, (List.getElem?_eq_some_iff.1 hw).1, by simp⟩
    | @sent w _ hw => exact .inr ⟨w, (List.getElem?_eq_some_iff.1 hw).1, by simp⟩
    | @left w _ hw => exact .inr ⟨w, (List.getElem?_eq_some_iff.1 hw).1, by simp⟩
    | _ => exact .inl (by simp)

/-- A pool in which nobody can act is left as it is. -/
theorem drive_of_isStuck (h : p.IsStuck job) : p.drive job = p := by
  have hnone : p.next? job = none := by
    rw [next?, List.findSome?_eq_none_iff]
    intro a ha
    exact h a (by rintro rfl; simp [attempts] at ha)
  rw [drive]
  split
  · rfl
  · next q hq =>
    rw [hnone] at hq
    cases hq

/-- Driving a pool is a run that ends when nobody can act, and in which nobody cancels the work. -/
theorem exists_run?_drive (job : φ → ρ) (p : Pool φ ρ) :
    ∃ as, .cancel ∉ as ∧ p.run? job as = some (p.drive job) ∧ (p.drive job).IsStuck job := by
  fun_induction drive job p with
  | case1 p hnone => exact ⟨[], by simp, rfl, isStuck_of_next? hnone⟩
  | case2 p q hnext ih =>
    obtain ⟨a, hmem, hstep⟩ := List.exists_of_findSome?_eq_some hnext
    obtain ⟨as, hcancel, hrun, hstuck⟩ := ih
    refine ⟨a :: as, ?_, ?_, hstuck⟩
    · rintro (_ | ⟨_, h⟩)
      · simp [attempts] at hmem
      · exact hcancel h
    · rw [run?, List.foldlM_cons, hstep]
      exact hrun

/-- A schedule, followed as far as possible and then driven to the end, is a run to the end. -/
theorem exists_run?_schedule (job : φ → ρ) (p : Pool φ ρ) (schedule : List Action) :
    ∃ as, (.cancel ∉ schedule → .cancel ∉ as) ∧
      p.run? job as = some ((p.play job schedule).drive job) ∧
      ((p.play job schedule).drive job).IsStuck job := by
  obtain ⟨as, hsub, hplay⟩ := exists_run?_play job p schedule
  obtain ⟨bs, hnever, hdrive, hstuck⟩ := exists_run?_drive job (p.play job schedule)
  refine ⟨as ++ bs, ?_, ?_, hstuck⟩
  · intro hcancel hmem
    rcases List.mem_append.1 hmem with h | h
    · exact hcancel (hsub.subset h)
    · exact hnever h
  · rw [run?_append, hplay]
    exact hdrive

end Schedules

end LiteralAudit.Pool
