import LiteralAudit.Json.Writer
import LiteralAudit.Notify.Endpoint
import LiteralAudit.Notify.Payload

/-!
# Notifications

A payload goes to every endpoint that is configured. What an endpoint answers is recorded as a
delivery and decides nothing else; `Transport` is what carries a request there.
-/

namespace LiteralAudit

/-- How a payload is put to an endpoint: whole, or as one message. -/
inductive Channel where
  | webhook
  | slack
  deriving Repr, DecidableEq

def Channel.name : Channel → Text
  | webhook => "webhook"
  | slack => "slack"

structure Notifier where
  channel : Channel
  endpoint : Text
  deriving Repr, DecidableEq

/-- One post of JSON. -/
structure Request where
  url : Url
  body : Text
  deriving Repr, DecidableEq

/-- What comes back for a request. -/
inductive Reply where
  | answer (status : Int) (body : Text)
  | failure (cause : Text)
  deriving Repr, DecidableEq

/-- The answer of the world to each request. -/
abbrev Transport := Request → Reply

namespace Request

def method : Text := "POST"

def contentType : Text := "application/json"

def userAgent : Text := "codespectre"

end Request

/-- Why a payload did not arrive. -/
inductive SendFault where
  | encode
  | address (cause : UrlError)
  | transport (url : Url) (cause : Text)
  | status (code : Int) (body : Text)
  deriving Repr, DecidableEq

def SendFault.message : SendFault → Text
  | encode => "marshal payload: <cause>"
  | address cause => "create request: " ++ cause.message
  | transport url cause => "send: Post " ++ url.shown.quoted ++ ": " ++ cause
  | status code body =>
    "endpoint returned HTTP " ++ Text.ofInt code ++
      (if body.isEmpty then [] else ": " ++ body : Text)

/-- The status of the answer, if there was one. -/
def SendFault.code : SendFault → Int
  | status code _ => code
  | _ => 0

namespace Notifier

/-- How much of an answer is kept. -/
def keptAnswer : Nat := 512

def body? (n : Notifier) (p : Payload) : Option Text :=
  match n.channel with
  | .webhook => p.toJson?.map Json.compact
  | .slack => some (Json.record [("text", .string p.message)]).compact

/-- The request that carries a payload. -/
def request (n : Notifier) (p : Payload) : Except SendFault Request :=
  match n.body? p with
  | none => .error .encode
  | some body =>
    match Url.read n.endpoint with
    | .error e => .error (.address e)
    | .ok u => .ok { url := u.dropEmptyPort, body := body }

/-- Whether a request was answered with a status of success. -/
def judge (r : Request) : Reply → Except SendFault Unit
  | .failure cause => .error (.transport r.url cause)
  | .answer status body =>
    if 200 ≤ status && status ≤ 299 then .ok ()
    else .error (.status status (Text.trimSpace (body.take keptAnswer)))

def send (n : Notifier) (carry : Transport) (p : Payload) : Except SendFault Unit := do
  let r ← n.request p
  judge r (carry r)

/-- The record of a delivery before it is known how it went. -/
def record (n : Notifier) : Delivery :=
  { kind := n.channel.name, endpoint := Endpoint.redacted n.endpoint }

def deliver (n : Notifier) (carry : Transport) (p : Payload) : Delivery :=
  match n.send carry p with
  | .ok () => { n.record with delivered := true, status := 200 }
  | .error e => { n.record with status := e.code, error := e.message }

/-- The notifiers of the endpoints that are valid, webhooks first. -/
def ofEndpoints (webhooks slack : List Text) : List Notifier :=
  (webhooks.map (Notifier.mk .webhook) ++ slack.map (Notifier.mk .slack)).filter fun n =>
    (Endpoint.fault? n.endpoint).isNone

/-- One delivery for each notifier. A payload with a fault is sent to nobody. -/
def dispatch (ns : List Notifier) (carry : Transport) (p : Payload) : List Delivery :=
  match p.fault? with
  | some e => ns.map fun n => { n.record with error := e.message }
  | none => ns.map fun n => n.deliver carry p

/-- The requests that a dispatch sends. -/
def requests (ns : List Notifier) (p : Payload) : List Request :=
  match p.fault? with
  | some _ => []
  | none => ns.filterMap fun n => (n.request p).toOption

end Notifier

end LiteralAudit
