import LiteralAudit.Notify

/-!
# Deliveries side by side

A payload is not delivered to one endpoint after another. The *caller* gives every notifier a sender of
its own and waits until all of them have gone; a *sender* makes its request, waits for the reply, writes
the record of its delivery into the place that was kept for it, and goes. The caller counts how many
senders are still there.

Nothing orders the senders among each other: `Deliveries.step` says what each of them, and the caller,
may do next, and `Deliveries.run?` lets them act in a given order.
-/

namespace LiteralAudit

/-- What a sender is at. -/
inductive Sender where
  | waiting (n : Notifier)
  /-- The request is on its way. -/
  | asking (n : Notifier) (r : Request)
  /-- It is known how the delivery went. -/
  | settled (d : Delivery)
  | written
  | gone
  deriving Repr, DecidableEq

structure Deliveries where
  /-- The notifiers that have no sender yet. -/
  todo : List Notifier := []
  /-- The senders, in the order in which they were started. -/
  senders : List Sender := []
  /-- How many senders the caller has still to wait for. -/
  busy : Nat := 0
  /-- A place for the record of each delivery. -/
  records : List Delivery
  /-- The requests that were sent, the oldest first, each with the place of its sender. -/
  sent : List (Nat × Request) := []
  /-- The caller has the records. -/
  returned : Bool := false

namespace Notifier

/-- The record of a delivery that went in a certain way. -/
def told (n : Notifier) : Except SendFault Unit → Delivery
  | .ok () => { n.record with delivered := true, status := 200 }
  | .error e => { n.record with status := e.code, error := e.message }

/-- The record for a payload that is sent to nobody. -/
def rejected (n : Notifier) (e : Payload.Fault) : Delivery := { n.record with error := e.message }

end Notifier

namespace Deliveries

/-- What can happen next. -/
inductive Action where
  /-- The caller starts the next sender. -/
  | launch
  /-- The sender at a place goes on. -/
  | act (sender : Nat)
  /-- The caller has waited for all senders. -/
  | finish
  deriving Repr, DecidableEq

/-- A dispatch that has started no sender yet. For a payload with a fault it is over at once. -/
def start (ns : List Notifier) (p : Payload) : Deliveries :=
  match p.fault? with
  | some e => { records := ns.map fun n => n.rejected e, returned := true }
  | none => { todo := ns, records := ns.map fun _ => {} }

/-- The dispatch after an action, if the action is possible. -/
def step (carry : Transport) (p : Payload) (s : Deliveries) : Action → Option Deliveries
  | .launch =>
    match s.todo with
    | [] => none
    | n :: rest =>
      some { s with todo := rest, senders := s.senders ++ [.waiting n], busy := s.busy + 1 }
  | .act i =>
    match s.senders[i]? with
    | some (.waiting n) =>
      match n.request p with
      | .error e => some { s with senders := s.senders.set i (.settled (n.told (.error e))) }
      | .ok r =>
        some { s with senders := s.senders.set i (.asking n r), sent := s.sent ++ [(i, r)] }
    | some (.asking n r) =>
      some { s with
        senders := s.senders.set i (.settled (n.told (Notifier.judge r (carry r)))) }
    | some (.settled d) =>
      some { s with senders := s.senders.set i .written, records := s.records.set i d }
    | some .written => some { s with senders := s.senders.set i .gone, busy := s.busy - 1 }
    | _ => none
  | .finish =>
    if s.todo.isEmpty && s.busy == 0 && !s.returned then some { s with returned := true } else none

/-- The dispatch after all actions in order, if each is possible when its turn comes. -/
def run? (carry : Transport) (p : Payload) (s : Deliveries) (as : List Action) : Option Deliveries :=
  as.foldlM (step carry p) s

/-- The requests of the sender at a place. -/
def sentBy (s : Deliveries) (i : Nat) : List Request :=
  (s.sent.filter fun x => x.1 == i).map (·.2)

/-! ## What each action does -/

/-- An action, with what makes it possible and what it changes. -/
inductive Move (carry : Transport) (p : Payload) (s : Deliveries) : Action → Deliveries → Prop where
  | launched {n : Notifier} {rest : List Notifier} : s.todo = n :: rest →
      Move carry p s .launch
        { s with todo := rest, senders := s.senders ++ [.waiting n], busy := s.busy + 1 }
  | unsent {i : Nat} {n : Notifier} {e : SendFault} : s.senders[i]? = some (.waiting n) →
      n.request p = .error e →
      Move carry p s (.act i) { s with senders := s.senders.set i (.settled (n.told (.error e))) }
  | asked {i : Nat} {n : Notifier} {r : Request} : s.senders[i]? = some (.waiting n) →
      n.request p = .ok r →
      Move carry p s (.act i)
        { s with senders := s.senders.set i (.asking n r), sent := s.sent ++ [(i, r)] }
  | heard {i : Nat} {n : Notifier} {r : Request} : s.senders[i]? = some (.asking n r) →
      Move carry p s (.act i)
        { s with senders := s.senders.set i (.settled (n.told (Notifier.judge r (carry r)))) }
  | wrote {i : Nat} {d : Delivery} : s.senders[i]? = some (.settled d) →
      Move carry p s (.act i)
        { s with senders := s.senders.set i .written, records := s.records.set i d }
  | left {i : Nat} : s.senders[i]? = some .written →
      Move carry p s (.act i) { s with senders := s.senders.set i .gone, busy := s.busy - 1 }
  | finished : s.todo = [] → s.busy = 0 → s.returned = false →
      Move carry p s .finish { s with returned := true }

/-- The actions that are possible are those that `Move` describes. -/
theorem step_eq_some_iff {carry : Transport} {p : Payload} {s t : Deliveries} {a : Action} :
    s.step carry p a = some t ↔ Move carry p s a t := by
  constructor
  · intro h
    cases a with
    | launch =>
      simp only [step] at h
      split at h
      · cases h
      · next htodo => cases h; exact .launched htodo
    | act i =>
      simp only [step] at h
      split at h
      · next n hi =>
        split at h
        · next hr => cases h; exact .unsent hi hr
        · next hr => cases h; exact .asked hi hr
      · next hi => cases h; exact .heard hi
      · next hi => cases h; exact .wrote hi
      · next hi => cases h; exact .left hi
      · cases h
    | finish =>
      simp only [step] at h
      split at h
      · next hc =>
        cases h
        simp only [Bool.and_eq_true, Bool.not_eq_true', List.isEmpty_iff, beq_iff_eq] at hc
        exact .finished hc.1.1 hc.1.2 hc.2
      · cases h
  · intro h
    cases h <;> simp_all [step]

end Deliveries

end LiteralAudit
