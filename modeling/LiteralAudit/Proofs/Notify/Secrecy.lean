import Mathlib
import LiteralAudit.Notify

/-!
# What the record of a delivery tells about its endpoint

Path, query and user of an endpoint can be credentials. Endpoints that differ in nothing else are
**alike** (`Endpoint.Alike`), and two dispatches to endpoints that are alike should leave equal records
when the world answers alike. The records agree in all but the text of the error, which tells the address
itself when a request could not be made or did not reach its endpoint: that address is what an attempt
**reveals** (`Notifier.revealed?`).

* `Notifier.deliver_alike`: one delivery.
* `Notifier.dispatch_eq_iff_revealed_eq`: the records of a dispatch are equal exactly when what the
  attempts reveal is.
-/

namespace LiteralAudit

/-! ## Endpoints that are alike -/

namespace Endpoint

/-- Whether something stands behind the host of an address that is not to be shown. -/
def hides (u : Url) : Bool := (!u.path.isEmpty && u.path != "/") || !u.query.isEmpty

/-- Endpoints that differ at most in what is not to be shown. Texts that are no addresses have neither a
scheme nor a host; they are alike when they are refused for the same reason. -/
inductive Alike : Text → Text → Prop where
  | addresses {raw raw' : Text} {u u' : Url} (h : Url.read raw = .ok u) (h' : Url.read raw' = .ok u')
      (scheme : u.scheme = u'.scheme) (host : u.host = u'.host) (hidden : hides u = hides u') :
      Alike raw raw'
  | unreadable {raw raw' : Text} {e e' : UrlError} (h : Url.read raw = .error e)
      (h' : Url.read raw' = .error e') (fault : e.fault = e'.fault) : Alike raw raw'

variable {raw raw' : Text}

/-- Scheme and host are all that is shown of an address, apart from whether there is more. -/
theorem redacted_of_read {u : Url} (h : Url.read raw = .ok u) :
    redacted raw = if u.host.isEmpty then Text.ofString "<invalid>"
      else u.scheme ++ "://" ++ u.host ++ if hides u then Text.ofString "/***" else [] := by
  unfold redacted
  rw [h]
  rfl

theorem redacted_of_unreadable {e : UrlError} (h : Url.read raw = .error e) :
    redacted raw = "<invalid>" := by
  simp only [redacted, h]

theorem Alike.redacted_eq (h : Alike raw raw') : redacted raw = redacted raw' := by
  cases h with
  | addresses h h' hscheme hhost hhidden =>
    rw [redacted_of_read h, redacted_of_read h', hscheme, hhost, hhidden]
  | unreadable h h' _ => rw [redacted_of_unreadable h, redacted_of_unreadable h']

end Endpoint

/-! ## Faults that differ in the address -/

namespace SendFault

/-- Faults that differ at most in the address that they are about. -/
inductive Alike : SendFault → SendFault → Prop where
  | encode : Alike .encode .encode
  | address {e e' : UrlError} (fault : e.fault = e'.fault) : Alike (.address e) (.address e')
  | transport (url url' : Url) (cause : Text) : Alike (.transport url cause) (.transport url' cause)
  | status (code : Int) (body : Text) : Alike (.status code body) (.status code body)

/-- The address that the message of a fault tells, as it is quoted there. -/
def address? : SendFault → Option Text
  | address cause => some cause.text.quoted
  | transport url _ => some url.shown.quoted
  | encode | status .. => none

variable {e e' : SendFault}

theorem Alike.code_eq (h : e.Alike e') : e.code = e'.code := by
  cases h <;> rfl

/-- The messages of faults that are alike differ in the address only. -/
theorem Alike.message_eq_iff (h : e.Alike e') : e.message = e'.message ↔ e.address? = e'.address? := by
  cases h with
  | encode => simp
  | status => simp
  | address hfault =>
    simp only [message, UrlError.message, address?, hfault, List.append_cancel_right_eq,
      List.append_cancel_left_eq, Option.some.injEq]
  | transport url url' cause =>
    simp only [message, address?, List.append_cancel_right_eq, List.append_cancel_left_eq,
      Option.some.injEq]

end SendFault

/-- Records that agree in all but the text of the error. -/
structure Delivery.SameButError (x y : Delivery) : Prop where
  kind : x.kind = y.kind
  endpoint : x.endpoint = y.endpoint
  delivered : x.delivered = y.delivered
  status : x.status = y.status

namespace Notifier

/-! ## One delivery -/

/-- Attempts that went alike: both succeeded, or both failed with faults that are alike. -/
inductive WentAlike : Except SendFault Unit → Except SendFault Unit → Prop where
  | delivered : WentAlike (.ok ()) (.ok ())
  | failed {e e' : SendFault} (h : e.Alike e') : WentAlike (.error e) (.error e')

/-- Notifiers of one kind whose endpoints are alike. -/
structure Alike (n n' : Notifier) : Prop where
  channel : n.channel = n'.channel
  endpoint : Endpoint.Alike n.endpoint n'.endpoint

/-- What carries requests behaves the same for the requests of both notifiers. -/
def SameReply (carry carry' : Transport) (p : Payload) (n n' : Notifier) : Prop :=
  ∀ r r', n.request p = .ok r → n'.request p = .ok r' → carry r = carry' r'

/-- The address that the record of an attempt tells, as it is quoted there. -/
def revealed? (carry : Transport) (p : Payload) (n : Notifier) : Option Text :=
  match n.send carry p with
  | .ok () => none
  | .error e => e.address?

variable {n n' : Notifier} {carry carry' : Transport} {p : Payload}

theorem request_of_body_none (hb : n.body? p = none) : n.request p = .error .encode := by
  simp only [request, hb]

theorem request_of_read {body : Text} {u : Url} (hb : n.body? p = some body)
    (h : Url.read n.endpoint = .ok u) : n.request p = .ok ⟨u.dropEmptyPort, body⟩ := by
  simp only [request, hb, h]

theorem request_of_unreadable {body : Text} {e : UrlError} (hb : n.body? p = some body)
    (h : Url.read n.endpoint = .error e) : n.request p = .error (.address e) := by
  simp only [request, hb, h]

theorem Alike.body?_eq (h : n.Alike n') (p : Payload) : n.body? p = n'.body? p := by
  unfold body?
  rw [h.channel]

theorem Alike.record_eq (h : n.Alike n') : n.record = n'.record := by
  unfold record
  rw [h.channel, h.endpoint.redacted_eq]

theorem judge_success (r : Request) {status : Int} (body : Text)
    (h : (200 ≤ status && status ≤ 299) = true) : judge r (.answer status body) = .ok () :=
  if_pos h

theorem judge_refusal (r : Request) {status : Int} (body : Text)
    (h : ¬ (200 ≤ status && status ≤ 299) = true) :
    judge r (.answer status body) =
      .error (.status status (Text.trimSpace (body.take keptAnswer))) :=
  if_neg h

/-- An answer is judged without a look at the request. -/
theorem wentAlike_judge (r r' : Request) (reply : Reply) :
    WentAlike (judge r reply) (judge r' reply) := by
  cases reply with
  | failure cause => exact .failed (.transport r.url r'.url cause)
  | answer status body =>
    by_cases h : (200 ≤ status && status ≤ 299) = true
    · rw [judge_success r body h, judge_success r' body h]
      exact .delivered
    · rw [judge_refusal r body h, judge_refusal r' body h]
      exact .failed (.status ..)

theorem send_of_request_error {e : SendFault} (h : n.request p = .error e) :
    n.send carry p = .error e := by
  rw [send, h]
  rfl

theorem send_of_request_ok {r : Request} (h : n.request p = .ok r) :
    n.send carry p = judge r (carry r) := by
  rw [send, h]
  rfl

/-- Attempts at endpoints that are alike go alike when the world behaves the same. -/
theorem wentAlike_send (h : n.Alike n') (hcarry : SameReply carry carry' p n n') :
    WentAlike (n.send carry p) (n'.send carry' p) := by
  have hbody := h.body?_eq p
  cases hb : n.body? p with
  | none =>
    rw [hb] at hbody
    rw [send_of_request_error (request_of_body_none hb),
      send_of_request_error (request_of_body_none hbody.symm)]
    exact .failed .encode
  | some body =>
    rw [hb] at hbody
    cases h.endpoint with
    | addresses hread hread' _ _ _ =>
      have hrequest := request_of_read hb hread
      have hrequest' := request_of_read hbody.symm hread'
      rw [send_of_request_ok hrequest, send_of_request_ok hrequest', hcarry _ _ hrequest hrequest']
      exact wentAlike_judge ..
    | unreadable hread hread' hfault =>
      rw [send_of_request_error (request_of_unreadable hb hread),
        send_of_request_error (request_of_unreadable hbody.symm hread')]
      exact .failed (.address hfault)

/-- The records of two deliveries to endpoints that are alike agree in all but the error, and in that,
too, if the same address is revealed or none is. -/
theorem deliver_alike (h : n.Alike n') (hcarry : SameReply carry carry' p n n') :
    (n.deliver carry p).SameButError (n'.deliver carry' p) ∧
      (n.deliver carry p = n'.deliver carry' p ↔ n.revealed? carry p = n'.revealed? carry' p) := by
  have hrecord := h.record_eq
  have hwent := wentAlike_send h hcarry
  unfold deliver revealed?
  generalize n.send carry p = s at hwent
  generalize n'.send carry' p = s' at hwent
  cases hwent with
  | delivered =>
    rw [hrecord]
    exact ⟨⟨rfl, rfl, rfl, rfl⟩, by simp⟩
  | failed hfault =>
    rw [hrecord]
    exact ⟨⟨rfl, rfl, rfl, hfault.code_eq⟩, by simp [hfault.code_eq, hfault.message_eq_iff]⟩

/-- An attempt at an endpoint that is an address reveals something when its request fails on the way,
and only then: the address, with its path and its query. -/
theorem revealed?_eq_some_iff {u : Url} (hread : Url.read n.endpoint = .ok u) {t : Text} :
    n.revealed? carry p = some t ↔
      ∃ body cause, n.body? p = some body ∧ carry ⟨u.dropEmptyPort, body⟩ = .failure cause ∧
        t = u.dropEmptyPort.shown.quoted := by
  unfold revealed?
  cases hb : n.body? p with
  | none =>
    rw [send_of_request_error (request_of_body_none hb)]
    simp [SendFault.address?]
  | some body =>
    rw [send_of_request_ok (request_of_read hb hread)]
    cases hreply : carry ⟨u.dropEmptyPort, body⟩ with
    | failure cause => simp [judge, SendFault.address?, hreply, eq_comm]
    | answer status answer =>
      by_cases hsuccess : (200 ≤ status && status ≤ 299) = true
      · simp [judge_success _ answer hsuccess, hreply]
      · simp [judge_refusal _ answer hsuccess, SendFault.address?, hreply]

/-- An attempt at an endpoint that is no address reveals the text that was refused, if it comes so far. -/
theorem revealed?_of_unreadable {e : UrlError} (hread : Url.read n.endpoint = .error e)
    (hbody : n.body? p ≠ none) : n.revealed? carry p = some e.text.quoted := by
  obtain ⟨body, hb⟩ := Option.ne_none_iff_exists'.1 hbody
  rw [revealed?, send_of_request_error (request_of_unreadable hb hread)]
  rfl

/-- The record of a request that failed on the way. -/
theorem deliver_of_failure {body cause : Text} {u : Url} (carry : Transport)
    (hb : n.body? p = some body) (hread : Url.read n.endpoint = .ok u)
    (hreply : carry ⟨u.dropEmptyPort, body⟩ = .failure cause) :
    n.deliver carry p =
      { n.record with error := "send: Post " ++ u.dropEmptyPort.shown.quoted ++ ": " ++ cause } := by
  unfold deliver
  rw [send_of_request_ok (request_of_read hb hread), hreply]
  rfl

/-! ## A dispatch -/

/-- Lists that are mapped side by side come out equal when each pair does. -/
theorem map_eq_map_iff_of_forall₂ {α β γ δ : Type} {R : α → β → Prop} {f : α → γ} {f' : β → γ}
    {g : α → δ} {g' : β → δ} {as : List α} {bs : List β}
    (hfg : ∀ a b, R a b → (f a = f' b ↔ g a = g' b)) (h : List.Forall₂ R as bs) :
    as.map f = bs.map f' ↔ as.map g = bs.map g' := by
  induction h with
  | nil => simp
  | cons hab _ ih => simp only [List.map_cons, List.cons.injEq, hfg _ _ hab, ih]

/-- The record for a payload that is sent to nobody tells nothing but why. -/
theorem rejected_eq (h : n.Alike n') (error : Text) :
    { n.record with error := error } = { n'.record with error := error } := by
  rw [h.record_eq]

theorem sameButError_dispatch {ns ns' : List Notifier}
    (h : List.Forall₂ (fun n n' => n.Alike n' ∧ SameReply carry carry' p n n') ns ns') :
    List.Forall₂ Delivery.SameButError (dispatch ns carry p) (dispatch ns' carry' p) := by
  unfold dispatch
  cases p.fault? with
  | some e =>
    rw [List.forall₂_map_left_iff, List.forall₂_map_right_iff]
    refine h.imp fun n n' hn => ?_
    rw [rejected_eq hn.1]
    exact ⟨rfl, rfl, rfl, rfl⟩
  | none =>
    rw [List.forall₂_map_left_iff, List.forall₂_map_right_iff]
    exact h.imp fun n n' hn => (deliver_alike hn.1 hn.2).1

theorem dispatch_eq_iff {ns ns' : List Notifier}
    (h : List.Forall₂ (fun n n' => n.Alike n' ∧ SameReply carry carry' p n n') ns ns') :
    dispatch ns carry p = dispatch ns' carry' p ↔
      p.fault? ≠ none ∨ ns.map (revealed? carry p) = ns'.map (revealed? carry' p) := by
  unfold dispatch
  cases p.fault? with
  | some e =>
    refine iff_of_true ?_ (.inl (by simp))
    rw [← List.forall₂_eq_eq_eq, List.forall₂_map_left_iff, List.forall₂_map_right_iff]
    exact h.imp fun n n' hn => rejected_eq hn.1 _
  | none =>
    rw [map_eq_map_iff_of_forall₂ (fun n n' hn => (deliver_alike hn.1 hn.2).2) h]
    simp

/-- For a payload and two lists of notifiers whose endpoints are alike, one by one, when the world
behaves the same for both: the records of the two dispatches agree one by one in all but the error, and
they are equal exactly when the payload is sent to nobody, or what the attempts reveal is the same. An
attempt at an endpoint that is an address reveals something exactly when its request fails on the way,
whatever an answer says, and that is the address with its path and query. -/
theorem dispatch_eq_iff_revealed_eq {ns ns' : List Notifier}
    (h : List.Forall₂ (fun n n' => n.Alike n' ∧ SameReply carry carry' p n n') ns ns') :
    List.Forall₂ Delivery.SameButError (dispatch ns carry p) (dispatch ns' carry' p) ∧
      (dispatch ns carry p = dispatch ns' carry' p ↔
        p.fault? ≠ none ∨ ns.map (revealed? carry p) = ns'.map (revealed? carry' p)) ∧
      (∀ n ∈ ns, ∀ u, Url.read n.endpoint = .ok u → ∀ t, n.revealed? carry p = some t ↔
        ∃ body cause, n.body? p = some body ∧ carry ⟨u.dropEmptyPort, body⟩ = .failure cause ∧
          t = u.dropEmptyPort.shown.quoted) ∧
      ∀ n ∈ ns, ∀ e, Url.read n.endpoint = .error e → n.body? p ≠ none →
        n.revealed? carry p = some e.text.quoted :=
  ⟨sameButError_dispatch h, dispatch_eq_iff h, fun _ _ _ hread _ => revealed?_eq_some_iff hread,
    fun _ _ _ hread hbody => revealed?_of_unreadable hread hbody⟩

/-! ### Two tokens -/

/-- The endpoint of a token. -/
def hook (token : Text) : Notifier := ⟨.slack, "https://hooks.slack.com/services/T/B/" ++ token⟩

def hookUrl (token : Text) : Url :=
  { scheme := "https", host := "hooks.slack.com", path := "/services/T/B/" ++ token }

def passed : Payload := { status := "PASS" }

/-- Nothing gets through. -/
def unreachable : Transport := fun _ => .failure "connection refused"

/-- Every token is turned down. -/
def turnedDown : Transport := fun _ => .answer 403 "invalid_token"

theorem read_one : Url.read (hook "one").endpoint = .ok (hookUrl "one") := by decide

theorem read_two : Url.read (hook "two").endpoint = .ok (hookUrl "two") := by decide

theorem alike_hooks : (hook "one").Alike (hook "two") where
  channel := rfl
  endpoint := .addresses read_one read_two rfl rfl (by decide)

theorem shown_one : (hookUrl "one").dropEmptyPort.shown.quoted =
    "\"https://hooks.slack.com/services/T/B/one\"" := by decide

theorem shown_two : (hookUrl "two").dropEmptyPort.shown.quoted =
    "\"https://hooks.slack.com/services/T/B/two\"" := by decide

/-- Both endpoints are accepted and alike, nothing gets through to either, and the errors tell which
token was used. -/
theorem token_told_by_error :
    Endpoint.fault? (hook "one").endpoint = none ∧ Endpoint.fault? (hook "two").endpoint = none ∧
    (hook "one").Alike (hook "two") ∧ SameReply unreachable unreachable passed (hook "one") (hook "two") ∧
    dispatch [hook "one"] unreachable passed ≠ dispatch [hook "two"] unreachable passed ∧
    ((hook "one").deliver unreachable passed).error =
      "send: Post \"https://hooks.slack.com/services/T/B/one\": connection refused" := by
  obtain ⟨body, hone⟩ : ∃ body, (hook "one").body? passed = some body := ⟨_, rfl⟩
  have htwo : (hook "two").body? passed = some body := (alike_hooks.body?_eq passed).symm.trans hone
  have hdeliver := deliver_of_failure unreachable hone read_one rfl
  have hdeliver' := deliver_of_failure unreachable htwo read_two rfl
  rw [shown_one] at hdeliver
  rw [shown_two] at hdeliver'
  refine ⟨by decide, by decide, alike_hooks, fun _ _ _ _ => rfl, ?_, ?_⟩
  · intro hsame
    have hpassed : passed.fault? = none := by decide
    simp only [dispatch, hpassed, List.map_cons, List.map_nil, List.cons.injEq, and_true, hdeliver,
      hdeliver'] at hsame
    have herror := congrArg Delivery.error hsame
    simp only [List.append_cancel_right_eq, List.append_cancel_left_eq] at herror
    revert herror
    decide
  · rw [hdeliver]
    decide

theorem equal_records_when_turned_down :
    dispatch [hook "one"] turnedDown passed = dispatch [hook "two"] turnedDown passed := by
  have hpair : List.Forall₂ (fun n n' => n.Alike n' ∧ SameReply turnedDown turnedDown passed n n')
      [hook "one"] [hook "two"] := .cons ⟨alike_hooks, fun _ _ _ _ => rfl⟩ .nil
  have hnone : ∀ (n : Notifier) (u : Url), Url.read n.endpoint = .ok u →
      n.revealed? turnedDown passed = none := by
    intro n u hread
    rw [Option.eq_none_iff_forall_ne_some]
    intro t ht
    obtain ⟨body, cause, -, hreply, -⟩ := (revealed?_eq_some_iff hread).1 ht
    cases hreply
  obtain ⟨-, hiff, -, -⟩ := dispatch_eq_iff_revealed_eq hpair
  refine hiff.2 (.inr ?_)
  rw [List.map_singleton, List.map_singleton, hnone _ _ read_one, hnone _ _ read_two]

end Notifier

end LiteralAudit
