import LiteralAudit.IpAddress
import LiteralAudit.Unicode.Case

/-!
# Addresses of resources

`Url.read` takes an address apart into scheme, user, host, path, query and fragment, resolving the
percent escapes of each part, and `Url.text` writes it again. A part keeps the spelling it had where
that spelling is a valid one.
-/

namespace LiteralAudit

/-- The parts of an address in which bytes are escaped by different rules. -/
inductive UrlPart where
  | path
  | host
  | zone
  | user
  | fragment
  deriving Repr, DecidableEq

/-- The user of an address; a password may be present and empty. -/
structure UserInfo where
  name : Text
  password? : Option Text := none
  deriving Repr, DecidableEq, Inhabited

/-- An address, its escapes resolved. `rawPath` and `rawFragment` keep a spelling that differs from
the usual one. -/
structure Url where
  scheme : Text := []
  opaquePart : Text := []
  user? : Option UserInfo := none
  host : Text := []
  path : Text := []
  rawPath : Text := []
  /-- Whether the authority is left out, and not only empty. -/
  omitHost : Bool := false
  /-- Whether a query mark stands there although the query is empty. -/
  emptyQuery : Bool := false
  query : Text := []
  fragment : Text := []
  rawFragment : Text := []
  deriving Repr, DecidableEq, Inhabited

/-- Why a text is no address. -/
inductive UrlFault where
  | controlByte
  | missingScheme
  | colonInFirstSegment
  | missingBracket
  | bracketedHost
  | address (cause : IpAddress.Error)
  | port (text : Text)
  | escape (text : Text)
  | hostByte (b : UInt8)
  | userInfo
  deriving Repr, DecidableEq

def UrlFault.message : UrlFault → Text
  | controlByte => "net/url: invalid control character in URL"
  | missingScheme => "missing protocol scheme"
  | colonInFirstSegment => "first path segment in URL cannot contain colon"
  | missingBracket => "missing ']' in host"
  | bracketedHost => "invalid IP-literal"
  | address cause => "invalid host: " ++ cause.message
  | port text => "invalid port " ++ text.quoted ++ " after host"
  | escape text => "invalid URL escape " ++ text.quoted
  | hostByte b => "invalid character " ++ Text.quoted [b] ++ " in host name"
  | userInfo => "net/url: invalid userinfo"

/-- A text that is no address, and why. -/
structure UrlError where
  text : Text
  fault : UrlFault
  deriving Repr, DecidableEq

def UrlError.message (e : UrlError) : Text :=
  "parse " ++ e.text.quoted ++ ": " ++ e.fault.message

namespace Url

/-! ## Escapes -/

def oneOf (set : String) (b : UInt8) : Bool := (Text.ofString set).contains b

/-- Whether a byte of a part is written as an escape. -/
def needsEscape (part : UrlPart) (b : UInt8) : Bool :=
  if Text.isAlpha b || Text.isDigit b || oneOf "-_.~" b then false
  else match part with
    | .host | .zone => !oneOf "!$&'()*+,;=:[]<>\"" b
    | .path => !oneOf "$&+,/:;=@" b
    | .user => !oneOf "$&+,;=" b
    | .fragment => !oneOf "$&+,/:;=?@!()*" b

def upperHex (n : Nat) : UInt8 :=
  if n < 10 then UInt8.ofNat (48 + n) else UInt8.ofNat (55 + n)

/-- A part with its bytes escaped. -/
def escape (part : UrlPart) (t : Text) : Text :=
  t.flatMap fun b =>
    if needsEscape part b then ['%', upperHex (b.toNat / 16), upperHex (b.toNat % 16)] else [b]

/-- Whether the byte of an escape may not be written as an escape in this part. In a host only bytes
beyond ASCII and the percent sign may, in a zone also those that need none. -/
def refusesEscape (part : UrlPart) (value : Nat) : Bool :=
  match part with
  | .host => value < 128 && value != 0x25
  | .zone => value != 0x25 && value != 0x20 && needsEscape .host (UInt8.ofNat value)
  | _ => false

/-- Auxiliary to `unescape`: `done` is the value so far in reverse. -/
def unescapeFrom (part : UrlPart) : Nat → Text → Text → Except UrlFault Text
  | 0, done, _ => .ok done.reverse
  | _, done, [] => .ok done.reverse
  | fuel + 1, done, b :: rest =>
    if b == '%' then
      match (rest.take 2).mapM Text.hexValue? with
      | some [hi, lo] =>
        if refusesEscape part (16 * hi + lo) then .error (.escape (b :: rest.take 2))
        else unescapeFrom part fuel (UInt8.ofNat (16 * hi + lo) :: done) (rest.drop 2)
      | _ => .error (.escape (b :: rest.take 2))
    else if (part == .host || part == .zone) && b < 0x80 && needsEscape part b then
      .error (.hostByte b)
    else unescapeFrom part fuel (b :: done) rest

/-- A part with its escapes resolved. -/
def unescape (part : UrlPart) (t : Text) : Except UrlFault Text :=
  unescapeFrom part (t.length + 1) [] t

/-- Whether a text spells a part without bytes that should be escaped. -/
def isEscaped (part : UrlPart) (t : Text) : Bool :=
  t.all fun b => oneOf "!$&'()*+,;=:@[]%" b || !needsEscape part b

/-- The spelling of a part: the one it was read with, when that is valid, or the usual one. -/
def spelling (part : UrlPart) (raw value : Text) : Text :=
  if !raw.isEmpty && isEscaped part raw && (unescape part raw).toOption == some value then raw
  else escape part value

/-! ## Reading -/

def hasControlByte (t : Text) : Bool := t.any fun b => b < 0x20 || b == 0x7F

/-- Whether a scheme may go on with a byte. -/
def isSchemeByte (b : UInt8) : Bool := Text.isAlpha b || Text.isDigit b || oneOf "+-." b

/-- The scheme before the first colon, which may be missing, and the rest. -/
def splitScheme (t : Text) : Except UrlFault (Text × Text) :=
  let scheme := t.takeWhile isSchemeByte
  match t, t.drop scheme.length with
  | b :: _, c :: rest =>
    if c != ':' then .ok ([], t)
    else if scheme.isEmpty then .error .missingScheme
    else if Text.isAlpha b then .ok (scheme, rest)
    else .ok ([], t)
  | _, _ => .ok ([], t)

/-- Whether a text is empty or a colon and digits. -/
def isPort : Text → Bool
  | [] => true
  | b :: digits => b == ':' && digits.all Text.isDigit

/-- A host in brackets, which must be an address of version 6; `close` is the place of the closing
bracket. -/
def readBracketed (t : Text) (close : Nat) : Except UrlFault Text := do
  let port := t.drop (close + 1)
  if !isPort port then throw (.port port)
  let port ← unescape .host port
  let inner := (t.take close).drop 1
  let zone := (Text.indexOf? inner "%25").getD inner.length
  let address ← unescape .host (inner.take zone)
  let host := address ++ (← unescape .zone (inner.drop zone))
  match IpAddress.read host with
  | .error e => throw (.address e)
  | .ok (.v4 _) => throw .bracketedHost
  | .ok (.v6 ..) => return Text.ofString "[" ++ host ++ "]" ++ port

def readHost (t : Text) : Except UrlFault Text :=
  match t.lastIndexOfByte? '[' with
  | some (_ + 1) => .error .bracketedHost
  | some 0 =>
    match t.lastIndexOfByte? ']' with
    | none => .error .missingBracket
    | some close => readBracketed t close
  | none =>
    match t.lastIndexOfByte? ':' with
    | some i =>
      if isPort (t.drop i) then unescape .host t else .error (.port (t.drop i))
    | none => unescape .host t

def isUserByte (b : UInt8) : Bool :=
  Text.isAlpha b || Text.isDigit b || oneOf "-._:~!$&'()*+,;=%@" b

def readUser (t : Text) : Except UrlFault UserInfo :=
  if !t.all isUserByte then .error .userInfo
  else match t.cutByte? ':' with
    | none => do return { name := ← unescape .user t }
    | some (name, password) => do
      return { name := ← unescape .user name, password? := some (← unescape .user password) }

/-- The user, if one is given, and the host. -/
def readAuthority (t : Text) : Except UrlFault (Option UserInfo × Text) :=
  match t.lastIndexOfByte? '@' with
  | none => do return (none, ← readHost t)
  | some i => do
    let host ← readHost (t.drop (i + 1))
    return (some (← readUser (t.take i)), host)

/-- The address with a path as it is spelled. -/
def withPath (u : Url) (spelled : Text) : Except UrlFault Url := do
  let path ← unescape .path spelled
  return { u with path := path, rawPath := if escape .path path == spelled then [] else spelled }

def withFragment (u : Url) (spelled : Text) : Except UrlFault Url := do
  let fragment ← unescape .fragment spelled
  return { u with
    fragment := fragment
    rawFragment := if escape .fragment fragment == spelled then [] else spelled }

/-- The address with the query cut off the rest. -/
def withQuery (u : Url) (rest : Text) : Url × Text :=
  match rest.cutByte? '?' with
  | none => (u, rest)
  | some (front, query) => ({ u with emptyQuery := query.isEmpty, query := query }, front)

/-- What stands before the first slash. -/
def firstSegment (t : Text) : Text := t.takeWhile fun (b : UInt8) => b != '/'

/-- An address without a fragment. -/
def readMain (t : Text) : Except UrlFault Url :=
  if hasControlByte t then .error .controlByte
  else if t == "*" then .ok { path := "*" }
  else do
    let (scheme, rest) ← splitScheme t
    let (u, rest) := withQuery { scheme := scheme.toLower } rest
    if !Text.startsWith rest "/" && !scheme.isEmpty then return { u with opaquePart := rest }
    if !Text.startsWith rest "/" && (firstSegment rest).contains ':' then
      throw .colonInFirstSegment
    if Text.startsWith rest "//" && (!scheme.isEmpty || !Text.startsWith rest "///") then
      let authority := firstSegment (rest.drop 2)
      let (user?, host) ← readAuthority authority
      withPath { u with user? := user?, host := host } (rest.drop (2 + authority.length))
    else
      withPath { u with omitHost := !scheme.isEmpty } rest

/-- The address that a text writes. -/
def read (t : Text) : Except UrlError Url :=
  let (main, fragment) := (t.cutByte? '#').getD (t, [])
  match readMain main with
  | .error e => .error ⟨main, e⟩
  | .ok u =>
    if fragment.isEmpty then .ok u
    else match u.withFragment fragment with
      | .ok u => .ok u
      | .error e => .error ⟨t, e⟩

/-! ## Writing -/

def userText (u : UserInfo) : Text :=
  escape .user u.name ++ match u.password? with
    | none => []
    | some p => ':' :: escape .user p

/-- The address as a text. -/
def text (u : Url) : Text :=
  let scheme : Text := if u.scheme.isEmpty then [] else u.scheme ++ ":"
  let main : Text :=
    if !u.opaquePart.isEmpty then scheme ++ u.opaquePart
    else
      let bare := u.host.isEmpty && u.user?.isNone
      let authority : Text :=
        if bare && (u.scheme.isEmpty || u.omitHost) then []
        else
          (if bare && u.path.isEmpty then [] else "//" : Text) ++
          (match u.user? with
            | some user => userText user ++ "@"
            | none => [] : Text) ++
          escape .host u.host
      let path : Text := if u.path == "*" then "*" else spelling .path u.rawPath u.path
      let front := scheme ++ authority
      let slash : Text :=
        if !path.isEmpty && path.head? != some ('/' : UInt8) && !u.host.isEmpty then "/"
        else if front.isEmpty && (firstSegment path).contains ':' then "./"
        else []
      front ++ slash ++ path
  main ++
  (if u.emptyQuery || !u.query.isEmpty then "?" ++ u.query else [] : Text) ++
  (if u.fragment.isEmpty then [] else "#" ++ spelling .fragment u.rawFragment u.fragment : Text)

/-- The address as it may be shown, its password replaced by stars. -/
def shown (u : Url) : Text :=
  match u.user? with
  | some { name, password? := some p } =>
    match u.text.cut? (userText ⟨name, some p⟩ ++ "@") with
    | some (front, back) => front ++ name ++ ":***@" ++ back
    | none => u.text
  | _ => u.text

/-- The address without a colon that no port follows. -/
def dropEmptyPort (u : Url) : Url :=
  let colon := (u.host.lastIndexOfByte? ':').map (· + 1) |>.getD 0
  let bracket := (u.host.lastIndexOfByte? ']').map (· + 1) |>.getD 0
  if bracket < colon then { u with host := Text.dropBack ":" u.host } else u

end Url

end LiteralAudit
