import LiteralAudit.Tool

/-!
# Jobs one after another

A job is run from what was done before it (`Job.after`). A sequence of jobs does what its parts do one
after another, up to the first that fails (`Job.after_bind`). Some jobs only look at the disk
(`Job.OnlyLooks`), and so does a sequence of such jobs.
-/

namespace LiteralAudit.Tool

variable {α β : Type} {q q' : Progress}

/-- What a job does, from what was done before. -/
def Job.after (q : Progress) (j : Job α) : Except Failure α × Progress := j.run.run q

/-- Why a job fails, if it does. -/
def Job.failure? (q : Progress) (j : Job α) : Option Failure :=
  match (j.after q).1 with
  | .ok _ => none
  | .error f => some f

namespace Job

theorem after_bind (q : Progress) (j : Job α) (k : α → Job β) :
    (j >>= k).after q = match j.after q with
      | (.ok a, q') => (k a).after q'
      | (.error f, q') => (.error f, q') := by
  show (match j.after q with
    | (r, q₁) => (ExceptT.bindCont k r : StateM Progress (Except Failure β)) q₁) = _
  rcases j.after q with ⟨f | a, q'⟩ <;> rfl

theorem after_bind_of_ok {j : Job α} {a : α} (k : α → Job β) (h : j.after q = (.ok a, q')) :
    (j >>= k).after q = (k a).after q' := by
  rw [after_bind, h]

/-- What was done in a sequence was done by its parts. -/
theorem exists_of_after_bind {j : Job α} {k : α → Job β} {b : β}
    (h : (j >>= k).after q = (.ok b, q')) :
    ∃ a q₁, j.after q = (.ok a, q₁) ∧ (k a).after q₁ = (.ok b, q') := by
  rw [after_bind] at h
  rcases hj : j.after q with ⟨f | a, q₁⟩ <;> rw [hj] at h
  · cases h
  · exact ⟨a, q₁, rfl, h⟩

theorem after_disk (q : Progress) : disk.after q = (.ok q.disk, q) := rfl

theorem after_attempt {ε : Type} {message : ε → Text} {a : Attempt ε} (q : Progress)
    (h : a.fault? = none) : (attempt message a).after q = (.ok (), { q with disk := a.disk }) := by
  unfold attempt
  rw [h]
  rfl

theorem after_note (q : Progress) (log : Log.Sink) (e : Log.LogEntry) :
    (note log e).after q = (.ok (), { q with disk := log.append q.disk [e] }) := rfl

theorem after_require {ε : Type} {message : ε → Text} {r : Except ε α} {a : α} (q : Progress)
    (h : r = .ok a) : (require message r).after q = (.ok a, q) := by
  rw [h]
  rfl

theorem eq_ok_of_after_require {ε : Type} {message : ε → Text} {r : Except ε α} {a : α}
    (h : (require message r).after q = (.ok a, q')) : r = .ok a := by
  cases r with
  | error e => cases h
  | ok b =>
    cases h
    rfl

/-! ## Looking only -/

/-- Whatever was done before, nothing more is done by the job. -/
def OnlyLooks (j : Job α) : Prop := ∀ q, (j.after q).2 = q

theorem onlyLooks_pure (a : α) : OnlyLooks (pure a) := fun _ => rfl

theorem onlyLooks_throw (f : Failure) : OnlyLooks (throw f : Job α) := fun _ => rfl

theorem onlyLooks_disk : OnlyLooks disk := fun _ => rfl

theorem onlyLooks_require {ε : Type} (message : ε → Text) (r : Except ε α) :
    OnlyLooks (require message r) := by
  intro q
  cases r <;> rfl

theorem OnlyLooks.bind_of_ok {j : Job α} {k : α → Job β} (hj : OnlyLooks j)
    (hk : ∀ q q' a, j.after q = (.ok a, q') → OnlyLooks (k a)) : OnlyLooks (j >>= k) := by
  intro q
  have hq := hj q
  rw [after_bind]
  rcases hr : j.after q with ⟨f | a, q₁⟩
  · rwa [hr] at hq
  · rw [hr] at hq
    exact (hk q q₁ a hr q₁).trans hq

theorem OnlyLooks.bind {j : Job α} {k : α → Job β} (hj : OnlyLooks j) (hk : ∀ a, OnlyLooks (k a)) :
    OnlyLooks (j >>= k) :=
  hj.bind_of_ok fun _ _ a _ => hk a

/-- A log without a file is kept on no disk. -/
theorem onlyLooks_note {log : Log.Sink} (h : log.file = []) (e : Log.LogEntry) :
    OnlyLooks (note log e) := by
  intro q
  have hsame : log.append q.disk [e] = q.disk := by simp [Log.Sink.append, h]
  rw [after_note, hsame]

end Job

end LiteralAudit.Tool

/-!
## The gates of a command line

A command line names a policy, or leaves it to be found, and asks for gates of its own. `Tool.resolveGates`
puts the two together: when it succeeds, the gates are those of the policy with what was asked for, and
nothing is wrong with them (`Tool.exists_of_resolveGates`).
-/

namespace LiteralAudit.Policy

/-- Nothing is wrong with the gates of a policy that was loaded. -/
theorem check_of_load {d : Disk} {path : Text} {p : Policy} (h : load d path = .ok (some p)) :
    p.gates.check = none := by
  unfold load at h
  split at h
  · split at h <;> cases h
  · split at h
    · cases h
    · split at h
      · cases h
      · next hcheck =>
        cases h
        exact hcheck

theorem exists_load_of_any {d : Disk} {path source : Text} {f : Policy → Bool}
    (hcontent : d.contentOf path = .ok source)
    (hread : ((read? source).any fun p => p.gates.check.isNone && f p) = true) :
    ∃ p, load d path = .ok (some p) ∧ f p = true := by
  obtain ⟨p, hp, hsound⟩ := (Option.any_eq_true _ _).1 hread
  rw [Bool.and_eq_true, Option.isNone_iff_eq_none] at hsound
  refine ⟨p, ?_, hsound.2⟩
  simp only [load, hcontent, hp, hsound.1]

end LiteralAudit.Policy

namespace LiteralAudit.Tool

open CommandLine (Options)

variable {c : Config} {o : Options} {g : Gates} {q q' : Progress}

/-- The gates that a command line starts from; without a policy there are none that trip. -/
def policyGates : Option Policy → Gates
  | some p => p.gates
  | none => {}

/-- The least score that a command line asks for, if it does. Without a policy the configuration may ask
for one, too. -/
def askedThreshold? (c : Config) (o : Options) (p? : Option Policy) : Option Float :=
  if o.isGiven "score-threshold" then some (o.real "score-threshold")
  else if p?.isNone && c.threshold > 0 then some c.threshold
  else none

/-- What a command line asks for beside a policy. -/
def asked (c : Config) (o : Options) (p? : Option Policy) : Gates.Overrides where
  failOnCritical := o.isOn "fail-on-critical"
  failOnHigh := o.isOn "fail-on-high"
  failOnMedium := o.isOn "fail-on-medium"
  threshold? := askedThreshold? c o p?

/-- Gates that have been checked. -/
def checked (g : Gates) : Job Gates :=
  match g.check with
  | some e => throw (.execution e.message)
  | none => return g

theorem resolveGates_eq (c : Config) (o : Options) : resolveGates c o =
    findPolicy (o.text "policy") >>= fun p? => checked ((policyGates p?).override (asked c o p?)) := by
  refine congrArg (findPolicy (o.text "policy") >>= ·) (funext fun p? => ?_)
  cases p? <;> rfl

theorem eq_of_after_checked {g' : Gates} (h : (checked g).after q = (.ok g', q')) :
    g' = g ∧ q' = q ∧ g.check = none := by
  unfold checked at h
  cases hcheck : g.check with
  | some e =>
    rw [hcheck] at h
    cases h
  | none =>
    rw [hcheck] at h
    cases h
    exact ⟨rfl, rfl, rfl⟩

/-- The gates of a command line are those of its policy with what it asks for, and have been checked. -/
theorem exists_of_resolveGates (h : (resolveGates c o).after q = (.ok g, q')) :
    ∃ p?, (findPolicy (o.text "policy")).after q = (.ok p?, q') ∧
      g = (policyGates p?).override (asked c o p?) ∧ g.check = none := by
  rw [resolveGates_eq] at h
  obtain ⟨p?, q₁, hpolicy, h⟩ := Job.exists_of_after_bind h
  obtain ⟨rfl, rfl, hcheck⟩ := eq_of_after_checked h
  exact ⟨p?, hpolicy, rfl, hcheck⟩

theorem after_resolveGates_of_check {p? : Option Policy} {q₁ : Progress}
    (hpolicy : (findPolicy (o.text "policy")).after q = (.ok p?, q₁))
    (hcheck : ((policyGates p?).override (asked c o p?)).check = none) :
    (resolveGates c o).after q = (.ok ((policyGates p?).override (asked c o p?)), q₁) := by
  rw [resolveGates_eq, Job.after_bind_of_ok _ hpolicy, checked, hcheck]
  rfl

/-- A policy that is named and there is the one to go by. -/
theorem after_findPolicy_of_load {path : Text} {p : Policy} (hpath : path ≠ [])
    (h : Policy.load q.disk path = .ok (some p)) : (findPolicy path).after q = (.ok (some p), q) := by
  unfold findPolicy
  rw [Job.after_bind_of_ok _ (Job.after_disk q)]
  dsimp only
  rw [List.isEmpty_eq_false_iff.2 hpath]
  exact (Job.after_bind_of_ok _ (Job.after_require q h)).trans rfl

theorem after_findPolicy_of_none (h : Policy.find q.disk [] = none) :
    (findPolicy []).after q = (.ok none, q) := by
  unfold findPolicy
  rw [Job.after_bind_of_ok _ (Job.after_disk q)]
  dsimp only
  rw [List.isEmpty_nil, if_pos rfl, h]
  rfl

end LiteralAudit.Tool
