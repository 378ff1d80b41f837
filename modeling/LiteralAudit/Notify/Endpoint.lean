import LiteralAudit.Url

/-!
# Endpoints

An endpoint is an absolute address of the web. Its path and its query can hold credentials, so that
only `Endpoint.redacted` is shown.
-/

namespace LiteralAudit.Endpoint

/-- Why an address is no endpoint. -/
inductive Fault where
  | missing
  | tooLong
  | invalid (cause : UrlError)
  | scheme
  | noHost
  deriving Repr, DecidableEq

def maxLength : Nat := 2048

def Fault.message : Fault → Text
  | missing => "endpoint is required"
  | tooLong => "endpoint exceeds " ++ Text.ofNat maxLength ++ " characters"
  | invalid cause => "invalid endpoint: " ++ cause.message
  | scheme => "endpoint scheme must be http or https"
  | noHost => "endpoint must include a host"

/-- What is wrong with an address as an endpoint. Blanks around it do not count. -/
def fault? (raw : Text) : Option Fault :=
  let t := raw.trimSpace
  if t.isEmpty then some .missing
  else if maxLength < t.length then some .tooLong
  else match Url.read t with
    | .error e => some (.invalid e)
    | .ok u =>
      if u.scheme != "http" && u.scheme != "https" then some .scheme
      else if u.host.isEmpty then some .noHost
      else none

/-- Scheme and host of an address, with stars for the path and the query. -/
def redacted (raw : Text) : Text :=
  match Url.read raw with
  | .error _ => "<invalid>"
  | .ok u =>
    if u.host.isEmpty then "<invalid>"
    else
      let hides := (!u.path.isEmpty && u.path != "/") || !u.query.isEmpty
      u.scheme ++ "://" ++ u.host ++ if hides then Text.ofString "/***" else []

end LiteralAudit.Endpoint
