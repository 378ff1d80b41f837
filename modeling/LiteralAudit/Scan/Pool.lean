/-!
# Worker pools

A pool works on a list of files with a fixed number of workers. A *dispatcher* offers the files one
after another and stops when the work is cancelled; each *worker* takes a file, works on it, sends the
result and asks for the next file; a *collector* receives what was sent until nobody can send any
more. A file is handed over directly; results wait in a queue that has room for one from each worker.

Nothing orders the parties among each other. `Pool.step` says what each of them may do next, `Pool.play`
lets them act as a schedule says, and `Pool.drive` goes on until nobody can act. Every action leaves
less work to be done (`Pool.work_step_lt`), so each way to interleave the parties comes to an end.
-/

namespace LiteralAudit

/-- What the dispatcher is at. A job is a file and its place in the list. -/
inductive Dispatcher (φ : Type) where
  /-- It looks whether the work was cancelled before it offers the first of these. -/
  | next (todo : List (φ × Nat))
  /-- It waits for a worker to take a job, or for the work to be cancelled. -/
  | offering (job : φ × Nat) (todo : List (φ × Nat))
  /-- It offers nothing any more. -/
  | done

/-- What a worker is at. -/
inductive Worker (φ ρ : Type) where
  | idle
  | busy (job : φ × Nat)
  /-- It has a result and waits for room in the queue. -/
  | holding (result : ρ × Nat)
  | gone

structure Pool (φ ρ : Type) where
  cancelled : Bool
  dispatcher : Dispatcher φ
  workers : List (Worker φ ρ)
  /-- The results that were sent and not received yet, the oldest first. -/
  sent : List (ρ × Nat) := []
  /-- Nobody will send any more. -/
  closed : Bool := false
  /-- The results that were received, the oldest first. -/
  received : List (ρ × Nat) := []
  /-- The collector knows that it has received everything. -/
  returned : Bool := false
  /-- The places of the files that were worked on, in the order in which the work on them ended. -/
  audited : List Nat := []

namespace Pool

variable {φ ρ : Type}

/-- What can happen next. A worker is known by its place among the workers. -/
inductive Action where
  /-- The work is cancelled from outside. -/
  | cancel
  /-- The dispatcher goes on to the next file, or stops. -/
  | look
  /-- The dispatcher stops waiting because the work was cancelled. -/
  | withdraw
  /-- A worker takes the job that is offered. -/
  | take (worker : Nat)
  /-- A worker does its job. -/
  | audit (worker : Nat)
  | send (worker : Nat)
  /-- A worker goes because no more jobs will be offered. -/
  | leave (worker : Nat)
  /-- The last worker has gone: the queue is closed. -/
  | close
  | receive
  /-- The collector sees that the queue is closed and empty. -/
  | finish
  deriving Repr, DecidableEq

/-- A pool that has done nothing yet. -/
def start (files : List φ) (workers : Nat) (cancelled : Bool) : Pool φ ρ where
  cancelled := cancelled
  dispatcher := .next files.zipIdx
  workers := List.replicate workers .idle

def isGone : Worker φ ρ → Bool
  | .gone => true
  | _ => false

/-- The pool after an action, if the action is possible. -/
def step (work : φ → ρ) (p : Pool φ ρ) : Action → Option (Pool φ ρ)
  | .cancel => if p.cancelled then none else some { p with cancelled := true }
  | .look =>
    match p.dispatcher with
    | .next [] => some { p with dispatcher := .done }
    | .next (job :: todo) =>
      some { p with dispatcher := if p.cancelled then .done else .offering job todo }
    | _ => none
  | .withdraw =>
    match p.dispatcher with
    | .offering _ _ => if p.cancelled then some { p with dispatcher := .done } else none
    | _ => none
  | .take w =>
    match p.dispatcher, p.workers[w]? with
    | .offering job todo, some .idle =>
      some { p with dispatcher := .next todo, workers := p.workers.set w (.busy job) }
    | _, _ => none
  | .audit w =>
    match p.workers[w]? with
    | some (.busy (file, i)) =>
      some { p with
        workers := p.workers.set w (.holding (work file, i))
        audited := p.audited ++ [i] }
    | _ => none
  | .send w =>
    match p.workers[w]? with
    | some (.holding r) =>
      if p.sent.length < p.workers.length then
        some { p with workers := p.workers.set w .idle, sent := p.sent ++ [r] }
      else none
    | _ => none
  | .leave w =>
    match p.dispatcher, p.workers[w]? with
    | .done, some .idle => some { p with workers := p.workers.set w .gone }
    | _, _ => none
  | .close =>
    if !p.closed && p.workers.all isGone then some { p with closed := true } else none
  | .receive =>
    match p.sent with
    | r :: rest =>
      if p.returned then none else some { p with sent := rest, received := p.received ++ [r] }
    | [] => none
  | .finish =>
    if p.closed && p.sent.isEmpty && !p.returned then some { p with returned := true } else none

/-! ## What each action does -/

/-- An action, with what makes it possible and what it changes. -/
inductive Move (job : φ → ρ) (p : Pool φ ρ) : Action → Pool φ ρ → Prop where
  | cancel : p.cancelled = false → Move job p .cancel { p with cancelled := true }
  | exhausted : p.dispatcher = .next [] → Move job p .look { p with dispatcher := .done }
  | stopped {j : φ × Nat} {todo : List (φ × Nat)} : p.dispatcher = .next (j :: todo) →
      p.cancelled = true → Move job p .look { p with dispatcher := .done }
  | offered {j : φ × Nat} {todo : List (φ × Nat)} : p.dispatcher = .next (j :: todo) →
      p.cancelled = false → Move job p .look { p with dispatcher := .offering j todo }
  | withdrawn {j : φ × Nat} {todo : List (φ × Nat)} : p.dispatcher = .offering j todo →
      p.cancelled = true → Move job p .withdraw { p with dispatcher := .done }
  | taken {w : Nat} {j : φ × Nat} {todo : List (φ × Nat)} : p.dispatcher = .offering j todo →
      p.workers[w]? = some .idle →
      Move job p (.take w) { p with dispatcher := .next todo, workers := p.workers.set w (.busy j) }
  | audited {w : Nat} {file : φ} {i : Nat} : p.workers[w]? = some (.busy (file, i)) →
      Move job p (.audit w)
        { p with
          workers := p.workers.set w (.holding (job file, i))
          audited := p.audited ++ [i] }
  | sent {w : Nat} {r : ρ × Nat} : p.workers[w]? = some (.holding r) →
      p.sent.length < p.workers.length →
      Move job p (.send w) { p with workers := p.workers.set w .idle, sent := p.sent ++ [r] }
  | left {w : Nat} : p.dispatcher = .done → p.workers[w]? = some .idle →
      Move job p (.leave w) { p with workers := p.workers.set w .gone }
  | closed : p.closed = false → p.workers.all isGone = true →
      Move job p .close { p with closed := true }
  | received {r : ρ × Nat} {rest : List (ρ × Nat)} : p.sent = r :: rest → p.returned = false →
      Move job p .receive { p with sent := rest, received := p.received ++ [r] }
  | finished : p.closed = true → p.sent = [] → p.returned = false →
      Move job p .finish { p with returned := true }

/-- The actions that are possible are those that `Move` describes. -/
theorem step_eq_some_iff {job : φ → ρ} {p q : Pool φ ρ} {a : Action} :
    p.step job a = some q ↔ Move job p a q := by
  constructor
  · intro h
    cases a with
    | cancel =>
      simp only [step] at h
      split at h
      · cases h
      · next hc => cases h; exact .cancel (by simpa using hc)
    | look =>
      simp only [step] at h
      split at h
      · next hd => cases h; exact .exhausted hd
      · next hd =>
        cases h
        split
        · next hc => exact .stopped hd hc
        · next hc => exact .offered hd (by simpa using hc)
      · cases h
    | withdraw =>
      simp only [step] at h
      split at h
      · next hd =>
        split at h
        · next hc => cases h; exact .withdrawn hd hc
        · cases h
      · cases h
    | take w =>
      simp only [step] at h
      split at h
      · next hd hw => cases h; exact .taken hd hw
      · cases h
    | audit w =>
      simp only [step] at h
      split at h
      · next hw => cases h; exact .audited hw
      · cases h
    | send w =>
      simp only [step] at h
      split at h
      · next hw =>
        split at h
        · next hroom => cases h; exact .sent hw hroom
        · cases h
      · cases h
    | leave w =>
      simp only [step] at h
      split at h
      · next hd hw => cases h; exact .left hd hw
      · cases h
    | close =>
      simp only [step] at h
      split at h
      · next hc =>
        cases h
        simp only [Bool.and_eq_true, Bool.not_eq_true'] at hc
        exact .closed hc.1 hc.2
      · cases h
    | receive =>
      simp only [step] at h
      split at h
      · next hs =>
        split at h
        · cases h
        · next hr => cases h; exact .received hs (by simpa using hr)
      · cases h
    | finish =>
      simp only [step] at h
      split at h
      · next hc =>
        cases h
        simp only [Bool.and_eq_true, Bool.not_eq_true', List.isEmpty_iff] at hc
        exact .finished hc.1.1 hc.1.2 hc.2
      · cases h
  · intro h
    cases h <;> simp_all [step]

/-! ## The work that is left -/

/-- How many actions the dispatcher and the jobs it has not given away can still cause, at most. -/
def dispatcherWork : Dispatcher φ → Nat
  | .next todo => 7 * todo.length + 2
  | .offering _ todo => 7 * todo.length + 8
  | .done => 0

/-- How many actions a worker and the job it has can still cause, at most. -/
def workerWork : Worker φ ρ → Nat
  | .idle => 1
  | .busy _ => 5
  | .holding _ => 4
  | .gone => 0

def workersWork : List (Worker φ ρ) → Nat
  | [] => 0
  | w :: ws => workerWork w + workersWork ws

/-- How many actions are possible at most until the pool has come to its end. -/
def work (p : Pool φ ρ) : Nat :=
  (!p.cancelled).toNat + dispatcherWork p.dispatcher + workersWork p.workers + 2 * p.sent.length +
    (!p.closed).toNat + (!p.returned).toNat

theorem workersWork_set (new : Worker φ ρ) {ws : List (Worker φ ρ)} {w : Nat} {old : Worker φ ρ}
    (h : ws[w]? = some old) :
    workersWork (ws.set w new) + workerWork old = workersWork ws + workerWork new := by
  induction ws generalizing w with
  | nil => simp at h
  | cons x ws ih =>
    cases w with
    | zero =>
      simp only [List.getElem?_cons_zero, Option.some.injEq] at h
      subst h
      simp only [List.set_cons_zero, workersWork]
      omega
    | succ w =>
      have hrest := ih (by simpa using h)
      simp only [List.set_cons_succ, workersWork]
      omega

/-- Every action leaves less work to be done. -/
theorem work_step_lt {job : φ → ρ} {p q : Pool φ ρ} {a : Action} (h : p.step job a = some q) :
    q.work < p.work := by
  cases step_eq_some_iff.1 h with
  | cancel hc => simp [work, hc]
  | exhausted hd => simp [work, hd, dispatcherWork]
  | stopped hd => simp [work, hd, dispatcherWork]
  | offered hd =>
    simp only [work, hd, dispatcherWork, List.length_cons]
    omega
  | withdrawn hd => simp [work, hd, dispatcherWork]
  | @taken w j todo hd hw =>
    have hset := workersWork_set (.busy j) hw
    simp only [work, hd, dispatcherWork, workerWork] at hset ⊢
    omega
  | @audited w file i hw =>
    have hset := workersWork_set (.holding (job file, i)) hw
    simp only [work, workerWork] at hset ⊢
    omega
  | sent hw =>
    have hset := workersWork_set .idle hw
    simp only [work, workerWork, List.length_append, List.length_singleton] at hset ⊢
    omega
  | left hd hw =>
    have hset := workersWork_set .gone hw
    simp only [work, workerWork] at hset ⊢
    omega
  | closed hc => simp [work, hc]
  | received hs =>
    simp only [work, hs, List.length_cons]
    omega
  | finished _ _ hr => simp [work, hr]

/-! ## Runs -/

/-- What the parties of the pool may try, which leaves out that the work is cancelled. -/
def attempts (p : Pool φ ρ) : List Action :=
  [.receive, .look, .withdraw, .close, .finish] ++
    (List.range p.workers.length).flatMap fun w => [.send w, .audit w, .take w, .leave w]

/-- The pool after something that one of the parties can do, if there is anything. -/
def next? (job : φ → ρ) (p : Pool φ ρ) : Option (Pool φ ρ) := p.attempts.findSome? (p.step job)

theorem work_next?_lt {job : φ → ρ} {p q : Pool φ ρ} (h : p.next? job = some q) :
    q.work < p.work := by
  obtain ⟨a, -, ha⟩ := List.exists_of_findSome?_eq_some h
  exact work_step_lt ha

/-- The pool after all actions in order, if each is possible when its turn comes. -/
def run? (job : φ → ρ) (p : Pool φ ρ) (as : List Action) : Option (Pool φ ρ) :=
  as.foldlM (step job) p

/-- The pool after those actions of a schedule that are possible when their turn comes. -/
def play (job : φ → ρ) (p : Pool φ ρ) (schedule : List Action) : Pool φ ρ :=
  schedule.foldl (fun p a => (p.step job a).getD p) p

/-- The pool after its parties have acted until none of them can. -/
def drive (job : φ → ρ) (p : Pool φ ρ) : Pool φ ρ :=
  match _h : p.next? job with
  | none => p
  | some q => q.drive job
termination_by p.work
decreasing_by exact work_next?_lt _h

/-- What the workers found, in the order of the files. -/
def results (p : Pool φ ρ) : List ρ :=
  (p.received.mergeSort fun a b => a.2 ≤ b.2).map (·.1)

end Pool

end LiteralAudit
