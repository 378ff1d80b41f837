import LiteralAudit.Notify.Deliveries
import LiteralAudit.Proofs.Notify.Secrecy

/-!
# Deliveries do not get in each other's way

The senders of a dispatch act in any order. `Deliveries.Inv` is an invariant of all runs: each sender has
done what its own notifier and the payload ask for, as far as it has come (`Sender.Stands`), and the
caller waits for exactly those senders that have not gone. What one sender does changes neither the
record nor the requests of another, so the invariant is about one sender at a time.

* `Deliveries.IsolatedIn`: what a dispatch that has returned leaves.
* `Deliveries.deliveries_isolated`: every way to interleave the senders comes to an end, and leaves that.
-/

namespace LiteralAudit

/-! ## One notifier -/

namespace Endpoint

/-- Whether an address can be an endpoint. -/
def accepts (raw : Text) : Bool := (fault? raw).isNone

end Endpoint

namespace Notifier

variable {n : Notifier} {carry carry' : Transport} {p : Payload}

/-- The record that a dispatch has to leave for a notifier. -/
def recordFor (carry : Transport) (p : Payload) (n : Notifier) : Delivery :=
  match p.fault? with
  | some e => n.rejected e
  | none => n.deliver carry p

/-- The requests that a notifier has to send for a payload: one, or none. -/
def asks (n : Notifier) (p : Payload) : List Request := (n.request p).toOption.toList

theorem ofEndpoints_eq (webhooks slack : List Text) :
    ofEndpoints webhooks slack =
      (webhooks.filter Endpoint.accepts).map (Notifier.mk .webhook) ++
        (slack.filter Endpoint.accepts).map (Notifier.mk .slack) := by
  simp only [ofEndpoints, List.filter_append, List.filter_map]
  rfl

theorem dispatch_eq_map (ns : List Notifier) (carry : Transport) (p : Payload) :
    dispatch ns carry p = ns.map (recordFor carry p) := by
  unfold dispatch recordFor
  cases p.fault? <;> rfl

theorem deliver_eq_told (n : Notifier) (carry : Transport) (p : Payload) :
    n.deliver carry p = n.told (n.send carry p) := by
  unfold deliver told
  rcases n.send carry p with e | ⟨⟩ <;> rfl

theorem told_judge_eq_deliver {r : Request} (h : n.request p = .ok r) :
    n.told (judge r (carry r)) = n.deliver carry p := by
  rw [deliver_eq_told, send_of_request_ok h]

theorem told_error_eq_deliver {e : SendFault} (h : n.request p = .error e) :
    n.told (.error e) = n.deliver carry p := by
  rw [deliver_eq_told, send_of_request_error h]

theorem asks_of_ok {r : Request} (h : n.request p = .ok r) : n.asks p = [r] := by
  simp [asks, h, Except.toOption]

theorem asks_of_error {e : SendFault} (h : n.request p = .error e) : n.asks p = [] := by
  simp [asks, h, Except.toOption]

/-- Only for a webhook can it happen that there is nothing to send: the time of the payload has no place
in JSON, or its score. -/
theorem body?_eq_none_iff : n.body? p = none ↔
    n.channel = .webhook ∧ (Json.ofTimestamp? p.timestamp = none ∨ Json.ofFloat? p.score = none) := by
  unfold body?
  cases n.channel with
  | slack => simp
  | webhook =>
    unfold Payload.toJson?
    cases Json.ofTimestamp? p.timestamp <;> cases Json.ofFloat? p.score <;> simp

/-- A record is the business of its own notifier, its payload and the reply to its own request. -/
theorem recordFor_congr (h : ∀ r, n.request p = .ok r → carry r = carry' r) :
    recordFor carry p n = recordFor carry' p n := by
  unfold recordFor
  cases p.fault? with
  | some e => rfl
  | none =>
    simp only [deliver_eq_told]
    cases hr : n.request p with
    | error e => rw [send_of_request_error hr, send_of_request_error hr]
    | ok r => rw [send_of_request_ok hr, send_of_request_ok hr, h r hr]

theorem judge_eq_ok_iff {r : Request} {reply : Reply} :
    judge r reply = .ok () ↔ ∃ status body, reply = .answer status body ∧ 200 ≤ status ∧ status ≤ 299 := by
  cases reply with
  | failure cause => simp [judge]
  | answer status body =>
    by_cases h : (200 ≤ status && status ≤ 299) = true
    · rw [judge_success r body h]
      simpa using h
    · rw [judge_refusal r body h]
      simpa using h

theorem told_delivered_iff {went : Except SendFault Unit} :
    (n.told went).delivered = true ↔ went = .ok () := by
  rcases went with e | ⟨⟩ <;> simp [told, record]

/-- A delivery is recorded as one exactly when the request was answered with a status of success. -/
theorem deliver_delivered_iff : (n.deliver carry p).delivered = true ↔
    ∃ r status body, n.request p = .ok r ∧ carry r = .answer status body ∧
      200 ≤ status ∧ status ≤ 299 := by
  rw [deliver_eq_told, told_delivered_iff]
  cases hr : n.request p with
  | error e => simp [send_of_request_error hr]
  | ok r =>
    rw [send_of_request_ok hr, judge_eq_ok_iff]
    simp

end Notifier

/-! ## What every run keeps -/

namespace Sender

/-- Whether the caller has to wait for a sender. -/
def here : Sender → Bool
  | gone => false
  | _ => true

/-- How many more times a sender can act, at most. -/
def work : Sender → Nat
  | waiting _ => 4
  | asking .. => 3
  | settled _ => 2
  | written => 1
  | gone => 0

/-- The state of the sender of a notifier, beside the record in its place and the requests it has sent. -/
def Stands (carry : Transport) (p : Payload) (n : Notifier) (record? : Option Delivery)
    (sent : List Request) : Sender → Prop
  | waiting m => m = n ∧ sent = []
  | asking m r => m = n ∧ n.request p = .ok r ∧ sent = [r]
  | settled d => d = n.deliver carry p ∧ sent = n.asks p
  | written => record? = some (n.deliver carry p) ∧ sent = n.asks p
  | gone => record? = some (n.deliver carry p) ∧ sent = n.asks p

end Sender

namespace Deliveries

variable {carry : Transport} {p : Payload} {ns : List Notifier} {s t : Deliveries} {a : Action}
  {as : List Action}

/-- The state of a dispatch for a payload without a fault. -/
structure Inv (carry : Transport) (p : Payload) (ns : List Notifier) (s : Deliveries) : Prop where
  /-- The notifiers get their senders in order. -/
  todo_eq : s.todo = ns.drop s.senders.length
  length_le : s.senders.length ≤ ns.length
  records_length : s.records.length = ns.length
  stands : ∀ (i : Nat) (n : Notifier) (x : Sender), ns[i]? = some n → s.senders[i]? = some x →
    x.Stands carry p n s.records[i]? (s.sentBy i)
  /-- Nothing is sent in the place of a sender that is not there yet. -/
  silent : ∀ i, s.senders.length ≤ i → s.sentBy i = []
  busy_eq : s.busy = s.senders.countP Sender.here
  ended : s.returned = true → s.todo = [] ∧ s.busy = 0

theorem sentBy_append (s : Deliveries) (i j : Nat) (r : Request) :
    ({ s with sent := s.sent ++ [(i, r)] } : Deliveries).sentBy j =
      s.sentBy j ++ if i = j then [r] else [] := by
  by_cases h : i = j <;> simp [sentBy, List.filter_append, h]

/-- A sender that goes on leaves one record and the requests of one place to be looked at. -/
theorem Inv.setSender (hi : Inv carry p ns s) {i : Nat} {old new : Sender} {records : List Delivery}
    {sent : List (Nat × Request)} {busy : Nat} (hold : s.senders[i]? = some old)
    (hlength : records.length = s.records.length)
    (hrecords : ∀ j, j ≠ i → records[j]? = s.records[j]?)
    (hsent : ∀ j, j ≠ i → ({ s with sent := sent } : Deliveries).sentBy j = s.sentBy j)
    (hbusy : busy + old.here.toNat = s.busy + new.here.toNat) (hhere : old.here = true)
    (hstands : ∀ n, ns[i]? = some n → old.Stands carry p n s.records[i]? (s.sentBy i) →
      new.Stands carry p n records[i]? (({ s with sent := sent } : Deliveries).sentBy i)) :
    Inv carry p ns { s with senders := s.senders.set i new, records, sent, busy } := by
  obtain ⟨hlt, hget⟩ := List.getElem?_eq_some_iff.1 hold
  have hcount : (s.senders.set i new).countP Sender.here + old.here.toNat =
      s.senders.countP Sender.here + new.here.toNat := by
    have hpos : 0 < s.senders.countP Sender.here :=
      List.countP_pos_iff.2 ⟨old, List.mem_of_getElem? hold, hhere⟩
    rw [List.countP_set hlt, hget, hhere]
    cases new.here <;> simp <;> omega
  refine {
    todo_eq := by simpa using hi.todo_eq
    length_le := by simpa using hi.length_le
    records_length := hlength.trans hi.records_length
    stands := fun j n x hn hx => ?_
    silent := fun j hj => ?_
    busy_eq := by
      have := hi.busy_eq
      dsimp only
      omega
    ended := fun hr => ?_ }
  · dsimp only at hx ⊢
    by_cases hj : j = i
    · subst hj
      rw [List.getElem?_set_self hlt] at hx
      cases hx
      exact hstands n hn (hi.stands j n old hn hold)
    · rw [List.getElem?_set_ne (Ne.symm hj)] at hx
      rw [hrecords j hj]
      have := hi.stands j n x hn hx
      rwa [← hsent j hj] at this
  · simp only [List.length_set] at hj
    exact (hsent j (by omega)).trans (hi.silent j hj)
  · -- The caller does not return while there is a sender.
    have hzero := (hi.ended hr).2
    rw [hi.busy_eq] at hzero
    have := List.countP_eq_zero.1 hzero old (List.mem_of_getElem? hold)
    exact absurd hhere this

/-- An action keeps the invariant. -/
theorem Inv.move (hi : Inv carry p ns s) (hm : Move carry p s a t) : Inv carry p ns t := by
  cases hm with
  | @launched n rest htodo =>
    have hdrop := hi.todo_eq
    rw [htodo] at hdrop
    have hlt : s.senders.length < ns.length := by
      by_contra hge
      rw [List.drop_eq_nil_of_le (by omega)] at hdrop
      cases hdrop
    rw [List.drop_eq_getElem_cons hlt] at hdrop
    obtain ⟨rfl, rfl⟩ := List.cons.inj hdrop
    refine { hi with
      todo_eq := by simp
      length_le := by simpa using hlt
      stands := fun i n x hn hx => ?_
      silent := fun i hle => hi.silent i (by simp at hle; omega)
      busy_eq := by simp [hi.busy_eq, Sender.here]
      ended := fun hr => ?_ }
    · dsimp only at hx ⊢
      rcases Nat.lt_or_ge i s.senders.length with hlt' | hge
      · rw [List.getElem?_append_left hlt'] at hx
        exact hi.stands i n x hn hx
      · have hi' : i = s.senders.length := by
          have := (List.getElem?_eq_some_iff.1 hx).1
          simp at this
          omega
        subst hi'
        simp only [List.getElem?_append_right le_rfl, Nat.sub_self, List.getElem?_cons_zero,
          Option.some.injEq] at hx
        subst hx
        rw [List.getElem?_eq_getElem hlt] at hn
        exact ⟨Option.some.inj hn, hi.silent _ le_rfl⟩
    · have := (hi.ended hr).1
      rw [htodo] at this
      cases this
  | unsent hsender hrequest =>
    refine hi.setSender hsender rfl (fun _ _ => rfl) (fun _ _ => rfl) rfl rfl fun n _ hs => ?_
    obtain ⟨rfl, hsent⟩ := hs
    exact ⟨Notifier.told_error_eq_deliver hrequest, hsent.trans (Notifier.asks_of_error hrequest).symm⟩
  | @asked i n r hsender hrequest =>
    refine hi.setSender hsender rfl (fun _ _ => rfl) (fun j hj => ?_) rfl rfl fun n _ hs => ?_
    · rw [sentBy_append, if_neg (Ne.symm hj), List.append_nil]
    · obtain ⟨rfl, hsent⟩ := hs
      refine ⟨rfl, hrequest, ?_⟩
      rw [sentBy_append, if_pos rfl, hsent, List.nil_append]
  | heard hsender =>
    refine hi.setSender hsender rfl (fun _ _ => rfl) (fun _ _ => rfl) rfl rfl fun n _ hs => ?_
    obtain ⟨rfl, hrequest, hsent⟩ := hs
    exact ⟨Notifier.told_judge_eq_deliver hrequest, hsent.trans (Notifier.asks_of_ok hrequest).symm⟩
  | @wrote i d hsender =>
    refine hi.setSender hsender (by simp) (fun j hj => ?_) (fun _ _ => rfl) rfl rfl fun n hn hs => ?_
    · exact List.getElem?_set_ne (Ne.symm hj)
    · obtain ⟨rfl, hsent⟩ := hs
      have hlt : i < s.records.length := by
        rw [hi.records_length]
        exact (List.getElem?_eq_some_iff.1 hn).1
      exact ⟨List.getElem?_set_self hlt, hsent⟩
  | left hsender =>
    have hpos : 0 < s.busy := by
      rw [hi.busy_eq]
      exact List.countP_pos_iff.2 ⟨.written, List.mem_of_getElem? hsender, rfl⟩
    refine hi.setSender hsender rfl (fun _ _ => rfl) (fun _ _ => rfl) ?_ rfl fun n _ hs => hs
    simp only [Sender.here, Bool.toNat_true, Bool.toNat_false]
    omega
  | finished htodo hbusy _ => exact { hi with ended := fun _ => ⟨htodo, hbusy⟩ }

theorem Inv.start (h : p.fault? = none) : Inv carry p ns (start ns p) := by
  have hs : Deliveries.start ns p = { todo := ns, records := ns.map fun _ => {} } := by
    simp only [Deliveries.start, h]
  rw [hs]
  exact {
    todo_eq := rfl
    length_le := Nat.zero_le _
    records_length := by simp
    stands := fun i n x _ hx => by simp at hx
    silent := fun _ _ => rfl
    busy_eq := rfl
    ended := fun hr => by cases hr }

/-- Every run keeps the invariant. -/
theorem Inv.run (hi : Inv carry p ns s) (h : s.run? carry p as = some t) : Inv carry p ns t := by
  induction as generalizing s with
  | nil =>
    cases h
    exact hi
  | cons a as ih =>
    rw [run?, List.foldlM_cons] at h
    obtain ⟨s', hstep, hrest⟩ := Option.bind_eq_some_iff.1 h
    exact ih (hi.move (step_eq_some_iff.1 hstep)) hrest

/-! ## Runs end -/

/-- How many actions are possible at most until the caller has returned. -/
def work (s : Deliveries) : Nat :=
  5 * s.todo.length + (s.senders.map Sender.work).sum + (!s.returned).toNat

theorem sum_work_set (new : Sender) {senders : List Sender} {i : Nat} {old : Sender}
    (h : senders[i]? = some old) :
    ((senders.set i new).map Sender.work).sum + old.work =
      (senders.map Sender.work).sum + new.work := by
  induction senders generalizing i with
  | nil => simp at h
  | cons x senders ih =>
    cases i with
    | zero =>
      simp only [List.getElem?_cons_zero, Option.some.injEq] at h
      subst h
      simp only [List.set_cons_zero, List.map_cons, List.sum_cons]
      omega
    | succ i =>
      have hrest := ih (by simpa using h)
      simp only [List.set_cons_succ, List.map_cons, List.sum_cons]
      omega

theorem work_move_lt (h : Move carry p s a t) : t.work < s.work := by
  cases h with
  | launched htodo =>
    simp only [work, htodo, List.length_cons, List.map_append, List.sum_append, List.map_cons,
      List.map_nil, List.sum_cons, List.sum_nil, Sender.work]
    omega
  | @unsent i n e hsender =>
    have := sum_work_set (.settled (n.told (.error e))) hsender
    simp only [work, Sender.work] at this ⊢
    omega
  | @asked i n r hsender =>
    have := sum_work_set (.asking n r) hsender
    simp only [work, Sender.work] at this ⊢
    omega
  | @heard i n r hsender =>
    have := sum_work_set (.settled (n.told (Notifier.judge r (carry r)))) hsender
    simp only [work, Sender.work] at this ⊢
    omega
  | wrote hsender =>
    have := sum_work_set .written hsender
    simp only [work, Sender.work] at this ⊢
    omega
  | left hsender =>
    have := sum_work_set .gone hsender
    simp only [work, Sender.work] at this ⊢
    omega
  | finished _ _ hr => simp [work, hr]

/-- A run has at most as many actions as there was work before it. -/
theorem length_add_work_le (h : s.run? carry p as = some t) : as.length + t.work ≤ s.work := by
  induction as generalizing s with
  | nil =>
    cases h
    simp
  | cons a as ih =>
    rw [run?, List.foldlM_cons] at h
    obtain ⟨s', hstep, hrest⟩ := Option.bind_eq_some_iff.1 h
    have hlt := work_move_lt (step_eq_some_iff.1 hstep)
    have hle := ih hrest
    simp only [List.length_cons]
    omega

theorem work_start_le (ns : List Notifier) (p : Payload) : (start ns p).work ≤ 5 * ns.length + 1 := by
  unfold start work
  cases p.fault? <;> simp

/-- A sender that is still there can act. -/
theorem exists_move_of_here {i : Nat} {x : Sender} (hx : s.senders[i]? = some x)
    (hhere : x.here = true) : ∃ t, Move carry p s (.act i) t := by
  cases x with
  | waiting n =>
    cases hr : n.request p with
    | error e => exact ⟨_, .unsent hx hr⟩
    | ok r => exact ⟨_, .asked hx hr⟩
  | asking n r => exact ⟨_, .heard hx⟩
  | settled d => exact ⟨_, .wrote hx⟩
  | written => exact ⟨_, .left hx⟩
  | gone => cases hhere

/-- Until the caller has returned somebody can act: there is no deadlock. -/
theorem Inv.exists_move (hi : Inv carry p ns s) (hr : s.returned = false) :
    ∃ a t, Move carry p s a t := by
  cases htodo : s.todo with
  | cons n rest => exact ⟨_, _, .launched htodo⟩
  | nil =>
    cases hbusy : s.busy with
    | zero => exact ⟨_, _, .finished htodo hbusy hr⟩
    | succ k =>
      have hpos : 0 < s.senders.countP Sender.here := by
        rw [← hi.busy_eq, hbusy]
        exact Nat.succ_pos k
      obtain ⟨x, hmem, hhere⟩ := List.countP_pos_iff.1 hpos
      obtain ⟨i, hx⟩ := List.mem_iff_getElem?.1 hmem
      obtain ⟨t, ht⟩ := exists_move_of_here hx hhere
      exact ⟨_, t, ht⟩

/-! ## What is left in the end -/

/-- What a dispatch to some notifiers leaves: a record for each of them in order, and at its place what
was asked of its own endpoint, whatever became of the others. -/
structure IsolatedIn (carry : Transport) (p : Payload) (ns : List Notifier) (s : Deliveries) : Prop where
  /-- The records are those of a dispatch that serves one notifier after the other. -/
  records_eq : s.records = Notifier.dispatch ns carry p
  /-- A payload with a fault is sent to nobody, and every record says why. -/
  rejected : ∀ e, p.fault? = some e → s.sent = [] ∧
    ∀ d ∈ s.records, d.delivered = false ∧ d.status = 0 ∧ d.error = e.message
  /-- A payload without a fault is sent once to each endpoint that is an address, provided that it can
  be written down. -/
  once : p.fault? = none → ∀ i n body u, ns[i]? = some n → n.body? p = some body →
    Url.read n.endpoint = .ok u → s.sentBy i = [⟨u.dropEmptyPort, body⟩]
  /-- To the others nothing is sent. -/
  never : p.fault? = none → ∀ i n, ns[i]? = some n →
    (n.body? p = none ∨ ∃ e, Url.read n.endpoint = .error e) → s.sentBy i = []
  /-- Every request is that of one of the notifiers. -/
  own : ∀ x ∈ s.sent, x.1 < ns.length
  /-- It is delivered where a request was answered with a status of success, and nowhere else. -/
  delivered_iff : p.fault? = none → ∀ i n d, ns[i]? = some n → s.records[i]? = some d →
    (d.delivered = true ↔ ∃ r ∈ s.sentBy i, ∃ status body, carry r = .answer status body ∧
      200 ≤ status ∧ status ≤ 299)

/-- The last state of a sender, and the record and the requests that it leaves. -/
theorem Inv.done (hi : Inv carry p ns s) (hr : s.returned = true) {i : Nat} {n : Notifier}
    (hn : ns[i]? = some n) : s.records[i]? = some (n.deliver carry p) ∧ s.sentBy i = n.asks p := by
  obtain ⟨htodo, hbusy⟩ := hi.ended hr
  have hall : s.senders.length = ns.length := by
    have := hi.todo_eq
    rw [htodo, eq_comm, List.drop_eq_nil_iff] at this
    exact Nat.le_antisymm hi.length_le this
  have hlt : i < s.senders.length := hall ▸ (List.getElem?_eq_some_iff.1 hn).1
  have hgone : s.senders[i] = .gone := by
    rw [hi.busy_eq, List.countP_eq_zero] at hbusy
    have := hbusy _ (List.getElem_mem hlt)
    cases hx : s.senders[i] <;> simp_all [Sender.here]
  have hstands := hi.stands i n _ hn (List.getElem?_eq_getElem hlt)
  rw [hgone] at hstands
  exact hstands

/-- A notifier whose body can be written and whose endpoint is an address has one request. -/
theorem asks_cases (n : Notifier) (p : Payload) :
    (∃ body u, n.body? p = some body ∧ Url.read n.endpoint = .ok u ∧
        n.asks p = [⟨u.dropEmptyPort, body⟩]) ∨
      ((n.body? p = none ∨ ∃ e, Url.read n.endpoint = .error e) ∧ n.asks p = []) := by
  cases hb : n.body? p with
  | none => exact .inr ⟨.inl rfl, Notifier.asks_of_error (Notifier.request_of_body_none hb)⟩
  | some body =>
    cases hu : Url.read n.endpoint with
    | error e =>
      exact .inr ⟨.inr ⟨e, rfl⟩, Notifier.asks_of_error (Notifier.request_of_unreadable hb hu)⟩
    | ok u =>
      exact .inl ⟨body, u, rfl, rfl, Notifier.asks_of_ok (Notifier.request_of_read hb hu)⟩

theorem Inv.isolatedIn (hi : Inv carry p ns s) (hfault : p.fault? = none) (hr : s.returned = true) :
    IsolatedIn carry p ns s where
  records_eq := by
    rw [Notifier.dispatch_eq_map]
    refine List.ext_getElem? fun i => ?_
    cases hn : ns[i]? with
    | none =>
      have hge : ns.length ≤ i := List.getElem?_eq_none_iff.1 hn
      rw [List.getElem?_eq_none (hi.records_length ▸ hge), List.getElem?_map, hn, Option.map_none]
    | some n =>
      rw [(hi.done hr hn).1, List.getElem?_map, hn, Option.map_some]
      simp only [Notifier.recordFor, hfault]
  rejected e he := by
    rw [hfault] at he
    cases he
  once _ i n body u hn hb hu := by
    rw [(hi.done hr hn).2, Notifier.asks_of_ok (Notifier.request_of_read hb hu)]
  never _ i n hn hno := by
    rw [(hi.done hr hn).2]
    rcases asks_cases n p with ⟨body, u, hb, hu, -⟩ | ⟨-, hasks⟩
    · rcases hno with hnone | ⟨e, he⟩
      · rw [hb] at hnone
        cases hnone
      · rw [hu] at he
        cases he
    · exact hasks
  own x hx := by
    by_contra hge
    have hnone := hi.silent x.1 (hi.length_le.trans (Nat.le_of_not_lt hge))
    rw [sentBy, List.map_eq_nil_iff, List.filter_eq_nil_iff] at hnone
    exact hnone x hx (beq_self_eq_true x.1)
  delivered_iff _ i n d hn hd := by
    obtain ⟨hrecord, hsent⟩ := hi.done hr hn
    rw [hrecord, Option.some.injEq] at hd
    rw [← hd, hsent, Notifier.deliver_delivered_iff]
    cases hrequest : n.request p with
    | error e => simp [Notifier.asks_of_error hrequest]
    | ok r => simp [Notifier.asks_of_ok hrequest]

/-- Nothing is done for a payload with a fault. -/
theorem step_start_of_fault {e : Payload.Fault} (h : p.fault? = some e) (a : Action) :
    (start ns p).step carry p a = none := by
  cases a <;> simp [start, h, step]

theorem isolatedIn_start {e : Payload.Fault} (h : p.fault? = some e) :
    IsolatedIn carry p ns (start ns p) := by
  have hs : start ns p = { records := ns.map fun n => n.rejected e, returned := true } := by
    simp only [start, h]
  rw [hs]
  refine {
    records_eq := by simp [Notifier.dispatch, h, Notifier.rejected]
    rejected := fun e' he' => ⟨rfl, fun d hd => ?_⟩
    once := fun hn => ?_
    never := fun hn => ?_
    own := fun x hx => by cases hx
    delivered_iff := fun hn => ?_ }
  · rw [h, Option.some.injEq] at he'
    obtain ⟨n, -, rfl⟩ := List.mem_map.1 hd
    exact ⟨rfl, rfl, by rw [← he']; rfl⟩
  all_goals
    rw [h] at hn
    cases hn

/-- The run of a dispatch: it is not longer than its work, it can go on until the caller has returned, and
then it has left what it should. -/
theorem run_isolated (h : (start ns p).run? carry p as = some s) :
    as.length ≤ 5 * ns.length + 1 ∧
      (s.returned = false → ∃ a t, s.step carry p a = some t) ∧
      (s.returned = true → IsolatedIn carry p ns s) := by
  have hlength : as.length ≤ 5 * ns.length + 1 := by
    have := length_add_work_le h
    have := work_start_le ns p
    omega
  refine ⟨hlength, ?_⟩
  cases hfault : p.fault? with
  | some e =>
    cases as with
    | nil =>
      cases h
      refine ⟨fun hr => ?_, fun _ => isolatedIn_start hfault⟩
      simp [start, hfault] at hr
    | cons a as =>
      rw [run?, List.foldlM_cons, step_start_of_fault hfault] at h
      cases h
  | none =>
    have hstart : Inv carry p ns (start ns p) := .start hfault
    have hi := hstart.run h
    refine ⟨fun hr => ?_, hi.isolatedIn hfault⟩
    obtain ⟨a, t, hm⟩ := hi.exists_move hr
    exact ⟨a, t, step_eq_some_iff.2 hm⟩

/-- For all webhook and Slack addresses, every payload, every transport and every order in which the
senders act: there is one record for each accepted endpoint, webhooks first and in the given order; the
dispatch cannot run on forever nor get stuck, and when it has returned it has left what `IsolatedIn` says.
A body fails to be written only for a webhook and a payload whose time or score JSON cannot hold. The
record of a notifier is the same in every other dispatch of the payload, beside whichever other endpoints
and in whichever order, in which the reply to its own request is the same. -/
theorem deliveries_isolated (webhooks slack : List Text) (p : Payload) (carry : Transport) :
    let ns := Notifier.ofEndpoints webhooks slack
    ns = (webhooks.filter Endpoint.accepts).map (Notifier.mk .webhook) ++
        (slack.filter Endpoint.accepts).map (Notifier.mk .slack) ∧
      (∀ as s, (start ns p).run? carry p as = some s →
        as.length ≤ 5 * ns.length + 1 ∧
        (s.returned = false → ∃ a t, s.step carry p a = some t) ∧
        (s.returned = true → IsolatedIn carry p ns s)) ∧
      (∀ n ∈ ns, n.body? p = none ↔ n.channel = .webhook ∧
        (Json.ofTimestamp? p.timestamp = none ∨ Json.ofFloat? p.score = none)) ∧
      ∀ (as : List Action) (s : Deliveries) (ns' : List Notifier) (carry' : Transport)
        (as' : List Action) (s' : Deliveries),
        (start ns p).run? carry p as = some s → s.returned = true →
        (start ns' p).run? carry' p as' = some s' → s'.returned = true →
        ∀ (i j : Nat) (n : Notifier), ns[i]? = some n → ns'[j]? = some n →
          (∀ r, n.request p = .ok r → carry r = carry' r) → s.records[i]? = s'.records[j]? := by
  intro ns
  refine ⟨Notifier.ofEndpoints_eq webhooks slack, fun as s h => run_isolated h,
    fun n _ => Notifier.body?_eq_none_iff, ?_⟩
  intro as s ns' carry' as' s' h hr h' hr' i j n hi hj hcarry
  rw [((run_isolated h).2.2 hr).records_eq, ((run_isolated h').2.2 hr').records_eq,
    Notifier.dispatch_eq_map, Notifier.dispatch_eq_map, List.getElem?_map, List.getElem?_map, hi, hj,
    Option.map_some, Option.map_some, Notifier.recordFor_congr hcarry]

/-! ### A time that has no place in JSON -/

/-- A run at the start of the year 10000. -/
def late : Payload := { status := "PASS", timestamp := { seconds := 253402300800 } }

def lateHook : Notifier := ⟨.webhook, "https://h.example/hook"⟩

/-- The payload has no fault, the endpoint is accepted and is an address, and still nothing is sent, in
whichever order the caller and the sender act. -/
theorem nothing_sent_of_late_payload :
    late.fault? = none ∧ Notifier.ofEndpoints ["https://h.example/hook"] [] = [lateHook] ∧
    (∃ u, Url.read lateHook.endpoint = .ok u) ∧
    (∃ as s, (start [lateHook] late).run? (fun _ => .answer 200 []) late as = some s ∧
      s.returned = true) ∧
    ∀ as s, (start [lateHook] late).run? (fun _ => .answer 200 []) late as = some s →
      s.returned = true → s.sentBy 0 = [] ∧ s.records = [lateHook.told (.error .encode)] := by
  have hfault : late.fault? = none := by decide
  have hbody : lateHook.body? late = none := Notifier.body?_eq_none_iff.2 ⟨rfl, .inl (by cbv)⟩
  have hrequest := Notifier.request_of_body_none hbody
  have hread : Url.read lateHook.endpoint =
      .ok { scheme := "https", host := "h.example", path := "/hook" } := by decide
  refine ⟨hfault, by decide, ⟨_, hread⟩,
    ⟨[.launch, .act 0, .act 0, .act 0, .finish], ?_⟩, fun as s h hr => ?_⟩
  · simp [run?, start, hfault, step, hrequest]
  · have hi := (run_isolated h).2.2 hr
    refine ⟨hi.never hfault 0 lateHook rfl (.inl hbody), ?_⟩
    rw [hi.records_eq, Notifier.dispatch_eq_map, List.map_singleton, Notifier.recordFor, hfault,
      Notifier.told_error_eq_deliver hrequest]

end Deliveries

end LiteralAudit
