import LiteralAudit.Watch
import Mathlib

/-!
# What the loop of a watch keeps

`Loop.Move` says once what each signal does to a loop. From it, `Loop.Tracked` is kept by every signal:
the channel that the loop listens to is that of the newest timer, which was made for the newest relevant
event, and there is such a channel exactly when a relevant event came after the start of the last run.

* `Loop.debounced`: what follows for every sequence of signals that is possible since the start;
* `Loop.exists_call`: a timer that is armed leads to a run.

Timers that were stopped, or have run down before that, play no part: nothing is said about their
channels, since the loop does not listen to them any more.
-/

namespace LiteralAudit.Watch.Loop

variable {l l' : Loop} {s : Signal}

/-! ## What each signal does -/

/-- Whether the oldest event that the loop was not told of is relevant. -/
def hears (l : Loop) (d : Disk) : Bool :=
  match l.waiting with
  | e :: _ => (l.watch.handle d e).1
  | [] => false

theorem hears_eq {e : FileEvent} {rest : List FileEvent} (h : l.waiting = e :: rest) (d : Disk) :
    l.hears d = (l.watch.handle d e).1 := by
  simp only [hears, h]

/-- A signal, with what makes it possible and what it changes. -/
inductive Move (l : Loop) : Signal → Loop → Prop where
  | occurred (e : FileEvent) : Move l (.occurred e) { l with waiting := l.waiting ++ [e] }
  | relevant {d : Disk} {e : FileEvent} {rest : List FileEvent} : l.waiting = e :: rest →
      l.listens = true → (l.watch.handle d e).1 = true →
      Move l (.told d) { l with
        waiting := rest
        watch := (l.watch.handle d e).2
        timers := l.stopped ++ [.running]
        timer? := some l.timers.length
        fire? := some l.timers.length }
  | irrelevant {d : Disk} {e : FileEvent} {rest : List FileEvent} : l.waiting = e :: rest →
      l.listens = true → (l.watch.handle d e).1 = false →
      Move l (.told d) { l with waiting := rest, watch := (l.watch.handle d e).2 }
  | expired {timer : Nat} : l.timers[timer]? = some .running →
      Move l (.expired timer) { l with timers := l.timers.set timer .due }
  | called {timer : Nat} : l.fire? = some timer → l.listens = true →
      l.timers[timer]? = some .due →
      Move l .called { l with
        timers := l.timers.set timer .spent, fire? := none, running := true, runs := l.runs + 1 }
  | returned : l.running = true → Move l .returned { l with running := false }
  | fault : l.listens = true → Move l .fault l
  | closed : l.listens = true → Move l .closed { l with timers := l.stopped, ended := true }

theorem move_of_step? (h : l.step? s = some l') : Move l s l' := by
  cases s with
  | occurred e =>
    cases h
    exact .occurred e
  | told d =>
    simp only [step?] at h
    split at h
    · next e rest hwaiting =>
      obtain ⟨hlistens, ⟨⟩⟩ := Option.ite_none_right_eq_some.1 h
      cases hrelevant : (l.watch.handle d e).1 with
      | true => simpa [hear, hrelevant, stopped] using Move.relevant hwaiting hlistens hrelevant
      | false => simpa [hear, hrelevant] using Move.irrelevant hwaiting hlistens hrelevant
    · cases h
  | expired timer =>
    obtain ⟨htimer, ⟨⟩⟩ := Option.ite_none_right_eq_some.1 h
    exact .expired htimer
  | called =>
    simp only [step?] at h
    split at h
    · next timer hfire =>
      obtain ⟨hdue, ⟨⟩⟩ := Option.ite_none_right_eq_some.1 h
      rw [Bool.and_eq_true, beq_iff_eq] at hdue
      exact .called hfire hdue.1 hdue.2
    · cases h
  | returned =>
    obtain ⟨hrunning, ⟨⟩⟩ := Option.ite_none_right_eq_some.1 h
    exact .returned hrunning
  | fault =>
    obtain ⟨hlistens, ⟨⟩⟩ := Option.ite_none_right_eq_some.1 h
    exact .fault hlistens
  | closed =>
    obtain ⟨hlistens, ⟨⟩⟩ := Option.ite_none_right_eq_some.1 h
    exact .closed hlistens

@[simp] theorem length_stopped (l : Loop) : l.stopped.length = l.timers.length := by
  unfold stopped
  split <;> simp

theorem listens_iff : l.listens = true ↔ l.running = false ∧ l.ended = false := by
  simp [listens]

theorem run?_append (l : Loop) (ss ts : List Signal) :
    l.run? (ss ++ ts) = (l.run? ss).bind (·.run? ts) := by
  simp [run?, List.foldlM_append]

theorem run?_cons_of_step? {m : Loop} (h : l.step? s = some m) (ss : List Signal) :
    l.run? (s :: ss) = m.run? ss := by
  rw [run?, List.foldlM_cons, h]
  rfl

theorem run?_concat_eq_some_iff {ss : List Signal} :
    l.run? (ss ++ [s]) = some l' ↔ ∃ m, l.run? ss = some m ∧ m.step? s = some l' := by
  simp [run?, List.foldlM_append, Option.bind_eq_some_iff]

/-- Each signal of a run moves the loop on from where the signals before it have brought it. -/
theorem exists_move_of_run? {before after : List Signal} (h : l.run? (before ++ s :: after) = some l') :
    ∃ m m', l.run? before = some m ∧ Move m s m' := by
  rw [run?_append] at h
  obtain ⟨m, hm, hrest⟩ := Option.bind_eq_some_iff.1 h
  rw [run?, List.foldlM_cons] at hrest
  obtain ⟨m', hstep, -⟩ := Option.bind_eq_some_iff.1 hrest
  exact ⟨m, m', hm, move_of_step? hstep⟩

/-! ## Relevant events -/

theorem concat_eq_append_cons_iff {α : Type} {xs before after : List α} {x y : α} :
    xs ++ [x] = before ++ y :: after ↔
      (xs = before ∧ x = y ∧ after = []) ∨ ∃ init, after = init ++ [x] ∧ xs = before ++ y :: init := by
  constructor
  · intro h
    cases after using List.reverseRecOn with
    | nil =>
      obtain ⟨hxs, hx⟩ := List.append_inj' h rfl
      exact .inl ⟨hxs, List.singleton_inj.1 hx, rfl⟩
    | append_singleton init z =>
      rw [← List.cons_append, ← List.append_assoc] at h
      obtain ⟨hxs, hx⟩ := List.append_inj' h rfl
      exact .inr ⟨init, by rw [hx], hxs⟩
  · rintro (⟨rfl, rfl, rfl⟩ | ⟨init, rfl, rfl⟩)
    · rfl
    · simp

/-- The signals end with those that followed a relevant event. -/
def HeardBefore (w : Watch) (ss since : List Signal) : Prop :=
  ∃ before d l, ss = before ++ .told d :: since ∧ run? { watch := w } before = some l ∧
    l.hears d = true

/-- A relevant event came after the start of the last run. -/
def Heard (w : Watch) (ss : List Signal) : Prop := ∃ since, HeardBefore w ss since ∧ .called ∉ since

/-- The signals end with those that followed the newest relevant event. -/
def NewestBefore (w : Watch) (ss since : List Signal) : Prop :=
  HeardBefore w ss since ∧ ∀ since', HeardBefore w ss since' → since.length ≤ since'.length

section Heard

variable {w : Watch} {ss since : List Signal}

/-- What followed a relevant event goes on with the next signal, which may be such an event itself. -/
theorem heardBefore_concat_iff (hrun : run? { watch := w } ss = some l) :
    HeardBefore w (ss ++ [s]) since ↔
      (∃ d, s = .told d ∧ l.hears d = true ∧ since = []) ∨
        ∃ init, since = init ++ [s] ∧ HeardBefore w ss init := by
  simp only [HeardBefore, concat_eq_append_cons_iff]
  constructor
  · rintro ⟨before, d, m, ⟨rfl, rfl, rfl⟩ | ⟨init, rfl, hsplit⟩, hm, hears⟩
    · obtain rfl := Option.some.inj (hm.symm.trans hrun)
      exact .inl ⟨d, rfl, hears, rfl⟩
    · exact .inr ⟨init, rfl, before, d, m, hsplit, hm, hears⟩
  · rintro (⟨d, rfl, hears, rfl⟩ | ⟨init, rfl, before, d, m, hsplit, hm, hears⟩)
    · exact ⟨ss, d, l, .inl ⟨rfl, rfl, rfl⟩, hrun, hears⟩
    · exact ⟨before, d, m, .inr ⟨init, rfl, hsplit⟩, hm, hears⟩

theorem heard_concat_iff (hrun : run? { watch := w } ss = some l) :
    Heard w (ss ++ [s]) ↔
      (∃ d, s = .told d ∧ l.hears d = true) ∨ Heard w ss ∧ s ≠ .called := by
  simp only [Heard, heardBefore_concat_iff hrun]
  constructor
  · rintro ⟨since, ⟨d, hs, hears, -⟩ | ⟨init, rfl, hbefore⟩, hnone⟩
    · exact .inl ⟨d, hs, hears⟩
    · rw [List.mem_append, List.mem_singleton, not_or] at hnone
      exact .inr ⟨⟨init, hbefore, hnone.1⟩, Ne.symm hnone.2⟩
  · rintro (⟨d, hs, hears⟩ | ⟨⟨init, hbefore, hnone⟩, hs⟩)
    · exact ⟨[], .inl ⟨d, hs, hears, rfl⟩, List.not_mem_nil⟩
    · refine ⟨init ++ [s], .inr ⟨init, rfl, hbefore⟩, ?_⟩
      rw [List.mem_append, List.mem_singleton, not_or]
      exact ⟨hnone, hs.symm⟩

theorem newestBefore_concat_self {d : Disk} (hrun : run? { watch := w } ss = some l)
    (hears : l.hears d = true) : NewestBefore w (ss ++ [.told d]) [] :=
  ⟨(heardBefore_concat_iff hrun).2 (.inl ⟨d, rfl, hears, rfl⟩), fun _ _ => Nat.zero_le _⟩

theorem NewestBefore.concat (h : NewestBefore w ss since) (hrun : run? { watch := w } ss = some l)
    (hs : ∀ d, s = .told d → l.hears d = false) : NewestBefore w (ss ++ [s]) (since ++ [s]) := by
  refine ⟨(heardBefore_concat_iff hrun).2 (.inr ⟨since, rfl, h.1⟩), ?_⟩
  intro since' hsince'
  obtain ⟨d, hd, hears, -⟩ | ⟨init, rfl, hinit⟩ := (heardBefore_concat_iff hrun).1 hsince'
  · rw [hs d hd] at hears
    cases hears
  · have := h.2 init hinit
    simpa using this

end Heard

/-! ## The invariant -/

/-- A timer is armed: what it sends, or has sent, is received by the loop. -/
def Armed (l : Loop) : Prop :=
  ∃ timer, l.fire? = some timer ∧
    (l.timers[timer]? = some .running ∨ l.timers[timer]? = some .due)

/-- The newest timer, which was made for the newest relevant event, waits to run down, or has run down
since. -/
structure Pending (w : Watch) (ss : List Signal) (l : Loop) (timer : Nat) (since : List Signal) :
    Prop where
  newest_timer : timer + 1 = l.timers.length
  newest_event : NewestBefore w ss since
  not_called : .called ∉ since
  state : l.ended = false → l.timers[timer]? = some .running ∨
    l.timers[timer]? = some .due ∧ .expired timer ∈ since

/-- The events that occurred, the oldest first. -/
def occurred (ss : List Signal) : List FileEvent :=
  ss.filterMap fun
    | .occurred e => some e
    | _ => none

/-- How many events the loop was told of. -/
def countTold (ss : List Signal) : Nat :=
  ss.countP fun
    | .told _ => true
    | _ => false

/-- A loop behind signals since its start. -/
structure Tracked (w : Watch) (ss : List Signal) (l : Loop) : Prop where
  not_heard : l.fire? = none → ¬Heard w ss
  pending : ∀ timer, l.fire? = some timer → ∃ since, Pending w ss l timer since
  returned : l.running = false → ∀ before since, ss = before ++ .called :: since → .returned ∈ since
  waiting : l.waiting = (occurred ss).drop (countTold ss)
  countTold_le : countTold ss ≤ (occurred ss).length

theorem Tracked.start (w : Watch) : Tracked w [] { watch := w } where
  not_heard _ := by
    rintro ⟨since, ⟨before, d, l, hsplit, -⟩, -⟩
    simp at hsplit
  pending _ h := by cases h
  returned _ before since h := by simp at h
  waiting := rfl
  countTold_le := le_rfl

section Move

variable {w : Watch} {ss since : List Signal} {timer : Nat}

/-- A signal that neither tells of a relevant event nor makes a timer leaves the timer pending. -/
theorem Pending.concat (h : Pending w ss l timer since) (hrun : run? { watch := w } ss = some l)
    (hs : ∀ d, s = .told d → l.hears d = false) (hcalled : s ≠ .called)
    (hlength : l'.timers.length = l.timers.length)
    (hstate : l'.ended = false → l.ended = false ∧ (l'.timers[timer]? = l.timers[timer]? ∨
      l'.timers[timer]? = some .due ∧ s = .expired timer)) :
    Pending w (ss ++ [s]) l' timer (since ++ [s]) where
  newest_timer := h.newest_timer.trans hlength.symm
  newest_event := h.newest_event.concat hrun hs
  not_called := by
    rw [List.mem_append, List.mem_singleton, not_or]
    exact ⟨h.not_called, hcalled.symm⟩
  state hended := by
    obtain ⟨hended, hsame | ⟨hdue, rfl⟩⟩ := hstate hended
    · rw [hsame]
      exact (h.state hended).imp_right fun h => ⟨h.1, List.mem_append_left _ h.2⟩
    · exact .inr ⟨hdue, List.mem_concat_self⟩

theorem Tracked.pending_concat (h : Tracked w ss l) (hrun : run? { watch := w } ss = some l)
    (hmove : Move l s l') (timer : Nat) (hfire : l'.fire? = some timer) :
    ∃ since, Pending w (ss ++ [s]) l' timer since := by
  have hkept (hsame : l'.fire? = l.fire?) := h.pending timer (hsame.symm.trans hfire)
  cases hmove with
  | occurred e =>
    obtain ⟨since, hp⟩ := hkept rfl
    exact ⟨_, hp.concat hrun (by simp) (by simp) rfl fun he => ⟨he, .inl rfl⟩⟩
  | relevant hwaiting hlistens hrelevant =>
    obtain rfl := Option.some.inj hfire
    refine ⟨[], by simp, newestBefore_concat_self hrun ?_, List.not_mem_nil, fun _ => .inl ?_⟩
    · rwa [hears_eq hwaiting]
    · rw [← length_stopped, List.getElem?_concat_length]
  | @irrelevant d e rest hwaiting hlistens hrelevant =>
    obtain ⟨since, hp⟩ := hkept rfl
    refine ⟨_, hp.concat hrun ?_ (by simp) rfl fun he => ⟨he, .inl rfl⟩⟩
    rintro _ ⟨⟩
    rwa [hears_eq hwaiting]
  | @expired other hrunning =>
    obtain ⟨since, hp⟩ := hkept rfl
    refine ⟨_, hp.concat hrun (by simp) (by simp) (by simp) fun he => ⟨he, ?_⟩⟩
    obtain rfl | hne := eq_or_ne other timer
    · exact .inr ⟨List.getElem?_set_self (List.getElem?_eq_some_iff.1 hrunning).1, rfl⟩
    · exact .inl (List.getElem?_set_ne hne)
  | called => cases hfire
  | returned hrunning =>
    obtain ⟨since, hp⟩ := hkept rfl
    exact ⟨_, hp.concat hrun (by simp) (by simp) rfl fun he => ⟨he, .inl rfl⟩⟩
  | fault hlistens =>
    obtain ⟨since, hp⟩ := hkept rfl
    exact ⟨_, hp.concat hrun (by simp) (by simp) rfl fun he => ⟨he, .inl rfl⟩⟩
  | closed hlistens =>
    obtain ⟨since, hp⟩ := hkept rfl
    exact ⟨_, hp.concat hrun (by simp) (by simp) (by simp) fun he => by cases he⟩

theorem Tracked.not_heard_concat (h : Tracked w ss l) (hrun : run? { watch := w } ss = some l)
    (hmove : Move l s l') (hfire : l'.fire? = none) : ¬Heard w (ss ++ [s]) := by
  rw [heard_concat_iff hrun]
  rintro (⟨d, rfl, hhears⟩ | ⟨hheard, hs⟩)
  · cases hmove with
    | relevant => cases hfire
    | irrelevant hwaiting hlistens hrelevant =>
      rw [hears_eq hwaiting, hrelevant] at hhears
      cases hhears
  · refine h.not_heard ?_ hheard
    cases hmove with
    | relevant => cases hfire
    | called => exact absurd rfl hs
    | _ => exact hfire

theorem Tracked.returned_concat (h : Tracked w ss l) (hmove : Move l s l')
    (hrunning : l'.running = false) (before since : List Signal)
    (hsplit : ss ++ [s] = before ++ .called :: since) : .returned ∈ since := by
  obtain ⟨-, rfl, -⟩ | ⟨init, rfl, hinit⟩ := concat_eq_append_cons_iff.1 hsplit
  · cases hmove
    cases hrunning
  · cases hmove with
    | called => cases hrunning
    | returned => exact List.mem_concat_self
    | _ => exact List.mem_append_left _ (h.returned hrunning before init hinit)

theorem occurred_concat (ss : List Signal) (s : Signal) :
    occurred (ss ++ [s]) = occurred ss ++ occurred [s] := List.filterMap_append

theorem countTold_concat (ss : List Signal) (s : Signal) :
    countTold (ss ++ [s]) = countTold ss + countTold [s] := List.countP_append

/-- The loop is told of the oldest event of those that occurred and that it was not told of. -/
theorem Tracked.waiting_concat (h : Tracked w ss l) (hmove : Move l s l') :
    l'.waiting = (occurred (ss ++ [s])).drop (countTold (ss ++ [s])) ∧
      countTold (ss ++ [s]) ≤ (occurred (ss ++ [s])).length := by
  rw [occurred_concat, countTold_concat]
  have htold {e : FileEvent} {rest : List FileEvent} (hwaiting : l.waiting = e :: rest) :
      rest = (occurred ss ++ []).drop (countTold ss + 1) ∧
        countTold ss + 1 ≤ (occurred ss ++ []).length := by
    rw [h.waiting] at hwaiting
    have hlength := congrArg List.length hwaiting
    rw [List.length_drop, List.length_cons] at hlength
    rw [List.append_nil, ← List.tail_drop, hwaiting]
    exact ⟨rfl, by omega⟩
  have hsame : l.waiting = (occurred ss ++ []).drop (countTold ss + 0) ∧
      countTold ss + 0 ≤ (occurred ss ++ []).length := by
    rw [List.append_nil, Nat.add_zero]
    exact ⟨h.waiting, h.countTold_le⟩
  cases hmove with
  | occurred e =>
    refine ⟨?_, h.countTold_le.trans (by simp)⟩
    show l.waiting ++ [e] = (occurred ss ++ [e]).drop (countTold ss)
    rw [List.drop_append_of_le_length h.countTold_le, h.waiting]
  | relevant hwaiting => exact htold hwaiting
  | irrelevant hwaiting => exact htold hwaiting
  | _ => exact hsame

theorem Tracked.concat (h : Tracked w ss l) (hrun : run? { watch := w } ss = some l)
    (hmove : Move l s l') : Tracked w (ss ++ [s]) l' where
  not_heard := h.not_heard_concat hrun hmove
  pending := h.pending_concat hrun hmove
  returned := h.returned_concat hmove
  waiting := (h.waiting_concat hmove).1
  countTold_le := (h.waiting_concat hmove).2

end Move

/-- A run of signals is tracked at every point. -/
theorem tracked_of_run? {w : Watch} {ss : List Signal} (h : run? { watch := w } ss = some l) :
    Tracked w ss l := by
  induction ss using List.reverseRecOn generalizing l with
  | nil =>
    obtain rfl := Option.some.inj h
    exact .start w
  | append_singleton ss s ih =>
    obtain ⟨m, hrun, hstep⟩ := run?_concat_eq_some_iff.1 h
    exact (ih hrun).concat hrun (move_of_step? hstep)

/-! ## What follows -/

/-- What a loop that listens to events as they come keeps, behind the signals since its start. -/
structure Debounced (w : Watch) (ss : List Signal) (l : Loop) : Prop where
  /-- As long as the loop goes on, a timer is armed exactly when a relevant event came after the start of
  the last run. -/
  armed_iff : l.ended = false → (l.Armed ↔ Heard w ss)
  /-- Every relevant event is followed by a run or by a timer that is armed, unless the loop has come to
  its end. -/
  followed : ∀ since, HeardBefore w ss since → .called ∈ since ∨ l.ended = true ∨ l.Armed
  /-- A run starts only after a relevant event since the run before. The timer that starts it is the newest
  of all, and has run down since the newest relevant event. -/
  called : ∀ before after, ss = before ++ .called :: after → ∃ m timer since,
    run? { watch := w } before = some m ∧ m.fire? = some timer ∧ timer + 1 = m.timers.length ∧
      NewestBefore w before since ∧ .called ∉ since ∧ .expired timer ∈ since
  /-- Before the next run starts, the last one is over. -/
  apart : ∀ before between after, ss = before ++ .called :: (between ++ .called :: after) →
    .returned ∈ between
  /-- The loop is told of the events in the order in which they occur, once of each. -/
  in_order : l.waiting = (occurred ss).drop (countTold ss) ∧ countTold ss ≤ (occurred ss).length

theorem Tracked.armed_iff {w : Watch} {ss : List Signal} (h : Tracked w ss l)
    (hended : l.ended = false) : l.Armed ↔ Heard w ss := by
  cases hfire : l.fire? with
  | none =>
    refine iff_of_false ?_ (h.not_heard hfire)
    rintro ⟨timer, htimer, -⟩
    rw [hfire] at htimer
    cases htimer
  | some timer =>
    obtain ⟨since, hp⟩ := h.pending timer hfire
    refine iff_of_true ⟨timer, hfire, ?_⟩ ⟨since, hp.newest_event.1, hp.not_called⟩
    exact (hp.state hended).imp_right And.left

/-- For every watch and all signals that are possible one after another since the start of its loop. -/
theorem debounced {w : Watch} {ss : List Signal} (hrun : run? { watch := w } ss = some l) :
    Debounced w ss l := by
  have htracked := tracked_of_run? hrun
  refine ⟨htracked.armed_iff, ?_, ?_, ?_, htracked.waiting, htracked.countTold_le⟩
  · intro since hsince
    by_cases hcalled : .called ∈ since
    · exact .inl hcalled
    · cases hended : l.ended with
      | true => exact .inr (.inl rfl)
      | false => exact .inr (.inr ((htracked.armed_iff hended).2 ⟨since, hsince, hcalled⟩))
  · rintro before after rfl
    obtain ⟨m, _, hm, hmove⟩ := exists_move_of_run? hrun
    cases hmove with
    | @called timer hfire hlistens hdue =>
      obtain ⟨since, hp⟩ := (tracked_of_run? hm).pending timer hfire
      obtain hrunning | ⟨-, hexpired⟩ := hp.state (listens_iff.1 hlistens).2
      · rw [hdue] at hrunning
        cases hrunning
      · exact ⟨m, timer, since, hm, hfire, hp.newest_timer, hp.newest_event, hp.not_called, hexpired⟩
  · rintro before between after rfl
    rw [← List.cons_append, ← List.append_assoc] at hrun
    obtain ⟨m, _, hm, hmove⟩ := exists_move_of_run? hrun
    cases hmove with
    | called hfire hlistens hdue =>
      exact (tracked_of_run? hm).returned (listens_iff.1 hlistens).1 before between rfl

/-- The first of two timers has run down before the second was made, and what it has sent is still in its
channel. It starts no run; the second one is armed. -/
theorem second_timer_armed :
    ∃ l, run? { watch := { root := ".", isRelevant := fun _ _ => true } }
        [.occurred ⟨"a.py", [.write]⟩, .told {}, .expired 0, .occurred ⟨"a.py", [.write]⟩, .told {}] =
          some l ∧
      l.timers = [.due, .running] ∧ l.step? .called = none ∧ l.Armed := by
  have hheard : Heard { root := ".", isRelevant := fun _ _ => true }
      [.occurred ⟨"a.py", [.write]⟩, .told {}, .expired 0, .occurred ⟨"a.py", [.write]⟩, .told {}] :=
    ⟨[], ⟨[.occurred ⟨"a.py", [.write]⟩, .told {}, .expired 0, .occurred ⟨"a.py", [.write]⟩], {}, _,
      rfl, rfl, rfl⟩, List.not_mem_nil⟩
  exact ⟨_, rfl, rfl, rfl, ((debounced rfl).armed_iff rfl).2 hheard⟩

theorem isSome_run?_called {timer : Nat} (hfire : l.fire? = some timer) (hlistens : l.listens = true)
    (hdue : l.timers[timer]? = some .due) : (l.run? [.called]).isSome = true := by
  simp [run?, step?, hfire, hlistens, hdue]

/-- An armed timer leads to a run: at most the last run has to end before, and the timer to run down. -/
theorem exists_call (harmed : l.Armed) (hended : l.ended = false) :
    ∃ ss, (∀ s ∈ ss, s = .returned ∨ ∃ timer, s = .expired timer) ∧
      (l.run? (ss ++ [.called])).isSome = true := by
  obtain ⟨timer, hfire, hstate⟩ := harmed
  obtain ⟨ss, m, hss, hm, hfire, hlistens, hstate⟩ : ∃ ss m, (∀ s ∈ ss, s = .returned) ∧
      l.run? ss = some m ∧ m.fire? = some timer ∧ m.listens = true ∧
      (m.timers[timer]? = some .running ∨ m.timers[timer]? = some .due) := by
    cases hrunning : l.running with
    | true =>
      refine ⟨[.returned], { l with running := false }, by simp, ?_, hfire, ?_, hstate⟩
      · simp [run?, step?, hrunning]
      · simp [listens, hended]
    | false =>
      exact ⟨[], l, by simp, rfl, hfire, listens_iff.2 ⟨hrunning, hended⟩, hstate⟩
  obtain hrunning | hdue := hstate
  · have hlt := (List.getElem?_eq_some_iff.1 hrunning).1
    refine ⟨ss ++ [.expired timer], ?_, ?_⟩
    · rintro s hs
      obtain hs | hs := List.mem_append.1 hs
      · exact .inl (hss s hs)
      · exact .inr ⟨timer, List.mem_singleton.1 hs⟩
    · have hexpired : m.step? (.expired timer) = some { m with timers := m.timers.set timer .due } :=
        if_pos hrunning
      rw [List.append_assoc, run?_append, hm, Option.bind_some, List.singleton_append,
        run?_cons_of_step? hexpired]
      exact isSome_run?_called hfire hlistens (List.getElem?_set_self hlt)
  · refine ⟨ss, fun s hs => .inl (hss s hs), ?_⟩
    rw [run?_append, hm, Option.bind_some]
    exact isSome_run?_called hfire hlistens hdue

end LiteralAudit.Watch.Loop
