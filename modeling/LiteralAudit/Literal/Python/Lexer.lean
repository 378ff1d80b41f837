import LiteralAudit.Literal.Python.Statement
import LiteralAudit.Number.Integer
import LiteralAudit.Unicode.Case

/-!
# Reading Python

The lexer goes through a source once. It keeps the brackets that are open, the tokens of the current
logical line, the latest tokens (from which the binding of a literal is read) and the literals found.
A logical line ends at a line break outside all brackets, and is checked there.
-/

namespace LiteralAudit.Python

/-- A bracket that is open, and the line on which it was opened. -/
structure Bracket where
  byte : UInt8
  line : Nat
  deriving Repr, DecidableEq

/-- The lexer's state. Lists have their latest entry first. -/
structure Lexer where
  rest : Text
  line : Nat := 1
  opened : List Bracket := []
  recent : List Token := []
  statement : List Token := []
  literals : List Literal := []
  deriving Inhabited

/-- Bytes that start a name: letters, the underscore, and every byte beyond ASCII. -/
def startsName (b : UInt8) : Bool := b == '_' || Text.isAlpha b || 0x80 ≤ b

def continuesName (b : UInt8) : Bool := startsName b || Text.isDigit b

namespace Lexer

/-- How many of the latest tokens are kept. -/
def memory : Nat := 6

/-- The state after a token that started on `line`. -/
def pushAt (lx : Lexer) (line : Nat) (kind : Kind) (text : Text) : Lexer :=
  let t : Token := ⟨kind, text, lx.opened.length, line⟩
  { lx with
    recent := (t :: lx.recent).take memory
    statement := if kind == .newline then lx.statement else t :: lx.statement }

def push (lx : Lexer) (kind : Kind) (text : Text) : Lexer := lx.pushAt lx.line kind text

/-- The name to which a literal is bound that would be read next: the target of an assignment, with
or without annotation, the parameter of a call, or the key of a dictionary entry. -/
def binding (lx : Lexer) : Text :=
  match lx.recent with
  | [] => []
  | last :: before =>
    if last.isOp "=" then
      match before with
      | [] => []
      | name :: before =>
        if name.kind != .name then []
        else match before with
          | colon :: target :: _ =>
            if colon.isOp ":" && target.kind == .name && target.depth == 0 then target.text
            else name.text
          | _ => name.text
    else if last.isOp ":" then
      match before with
      | key :: _ => if key.kind == .string && key.depth > 0 then key.text else []
      | [] => []
    else []

/-- The state after a literal that started on `line`; the value and what follows it are given. -/
def literal (lx : Lexer) (line : Nat) (numeric : Bool) (value : Text) : Lexer :=
  let l : Literal := ⟨value, line, numeric, lx.binding⟩
  { lx with literals := l :: lx.literals }.pushAt line (if numeric then .number else .string) value

/-- The end of a logical line: its statements are checked. -/
def endStatement (lx : Lexer) : Except ParseError Lexer :=
  match lx.statement with
  | [] => .ok lx
  | ts => (checkLine ts.reverse).map fun _ => { lx with statement := [] }

end Lexer

/-! ## Numbers -/

def isExponent (b : UInt8) : Bool := b == 'e' || b == 'E'

/-- The bytes of a number, in reverse on top of `done`, and what follows it: letters, digits, points,
and the sign of an exponent. -/
def numberSpan (hex : Bool) : Text → Text → Text × Text
  | done, [] => (done, [])
  | done, b :: rest =>
    if continuesName b || b == '.' then numberSpan hex (b :: done) rest
    else if (b == '+' || b == '-') && !hex && done.head?.any isExponent then
      numberSpan hex (b :: done) rest
    else (done, b :: rest)

/-- Whether a number is written in hexadecimal. -/
def isHex (t : Text) : Bool := t.startsWith "0x" || t.startsWith "0X"

/-- The value of a number: integers in decimal, all else as it is written, without underscores. -/
def numberValue (written : Text) : Text :=
  let plain : Text := written.filter fun (b : UInt8) => b != '_'
  match Number.readLiteral? plain with
  | some n => Text.ofInt n
  | none => plain

def Lexer.readNumber (lx : Lexer) : Lexer :=
  let (done, rest) := numberSpan (isHex lx.rest) [] lx.rest
  { lx.literal lx.line true (numberValue done.reverse) with rest := rest }

/-! ## Strings -/

/-- What the byte after a backslash stands for. -/
def escaped (b : UInt8) : Text :=
  if b == 'n' then "\n"
  else if b == 't' then "\t"
  else if b == 'r' then "\r"
  else if b == '0' then [0]
  else Text.ofChar (Char.ofNat b.toNat)

def isQuote (b : UInt8) : Bool := b == '"' || b == '\''

/-- The rest of a string: its value, in reverse on top of `done`, the line breaks in it, and what
follows the closing quotes. -/
def stringBody? (raw triple : Bool) (quote : UInt8) :
    Text → Nat → Text → Option (Text × Nat × Text)
  | _, _, [] => none
  | done, breaks, b :: rest =>
    if b == quote && !triple then some (done, breaks, rest)
    else if b == quote && Text.startsWith rest [quote, quote] then some (done, breaks, rest.drop 2)
    else if b == '\n' then
      if triple then stringBody? raw triple quote (b :: done) (breaks + 1) rest else none
    else if b == '\\' then
      match rest with
      | [] => none
      | next :: rest =>
        if next == '\n' then
          stringBody? raw triple quote (if raw then next :: b :: done else done) (breaks + 1) rest
        else if raw then stringBody? raw triple quote (next :: b :: done) breaks rest
        else stringBody? raw triple quote ((escaped next).reverse ++ done) breaks rest
    else stringBody? raw triple quote (b :: done) breaks rest

/-- A string whose opening quote is next; `front` is what stands before the quote. -/
def Lexer.readString (lx : Lexer) (front : Text) : Except ParseError Lexer :=
  let raw := front.any fun b => b == 'r' || b == 'R'
  match lx.rest with
  | [] => .ok lx
  | quote :: rest =>
    let triple := Text.startsWith rest [quote, quote]
    match stringBody? raw triple quote [] 0 (if triple then rest.drop 2 else rest) with
    | none => .error (Fault.unterminatedString.at lx.line)
    | some (done, breaks, rest) =>
      let next := { lx with line := lx.line + breaks, rest := rest }
      .ok (next.literal lx.line false done.reverse)

/-- The letters that may stand directly before a string's quote. -/
def isStringFront (name : Text) : Bool :=
  let fronts : List Text := ["r", "u", "b", "f", "br", "rb", "fr", "rf"]
  fronts.contains (Text.toLower name)

/-! ## The lexer -/

/-- The operators of two bytes. -/
def longOps : List Text :=
  List.map Text.ofString
    ["==", "!=", "<=", ">=", ":=", "->", "+=", "-=", "*=", "/=", "**", "//", "<<", ">>", "|=",
     "&="]

/-- The bracket that a closing bracket closes. -/
def opener (b : UInt8) : UInt8 :=
  if b == ')' then '(' else if b == ']' then '[' else '\x7b'

/-- A name, or the letters before a string. -/
def Lexer.readName (lx : Lexer) : Except ParseError Lexer :=
  let name := lx.rest.takeWhile continuesName
  let next := { lx with rest := lx.rest.dropWhile continuesName }
  let quoted := next.rest.head?.any isQuote
  if quoted && isStringFront name then next.readString name else .ok (next.push .name name)

/-- An operator. -/
def Lexer.readOp (lx : Lexer) : Lexer :=
  let two := lx.rest.take 2
  if longOps.contains two then { lx with rest := lx.rest.drop 2 }.push .op two
  else { lx with rest := lx.rest.drop 1 }.push .op (lx.rest.take 1)

/-- A backslash, which must stand at the end of its line. -/
def Lexer.readContinuation (lx : Lexer) : Except ParseError Lexer :=
  let rest := lx.rest.drop 1
  let rest := if rest.head? == some ('\r' : UInt8) then rest.drop 1 else rest
  match rest with
  | b :: rest =>
    if b == '\n' then .ok { lx with rest := rest, line := lx.line + 1 }
    else .error (Fault.strayContinuation.at lx.line)
  | [] => .error (Fault.strayContinuation.at lx.line)

/-- One step of the lexer, over the token or blank that starts with `b`. -/
def Lexer.step (lx : Lexer) (b : UInt8) (rest : Text) : Except ParseError Lexer :=
  if b == '\n' then
    let next := { lx with rest := rest, line := lx.line + 1 }
    if lx.opened.isEmpty then next.endStatement.map (·.push .newline []) else .ok next
  else if b == ' ' || b == '\t' || b == '\r' || b == 12 then .ok { lx with rest := rest }
  else if b == '#' then .ok { lx with rest := rest.dropWhile (· != '\n') }
  else if b == '\\' then lx.readContinuation
  else if isQuote b then lx.readString []
  else if startsName b then lx.readName
  else if Text.isDigit b || (b == '.' && rest.head?.any Text.isDigit) then .ok lx.readNumber
  else if b == '(' || b == '[' || b == '\x7b' then
    .ok ({ lx with rest := rest, opened := ⟨b, lx.line⟩ :: lx.opened }.push .op [b])
  else if b == ')' || b == ']' || b == '\x7d' then
    match lx.opened with
    | top :: below =>
      if top.byte == opener b then .ok ({ lx with rest := rest, opened := below }.push .op [b])
      else .error ((Fault.unmatched b).at lx.line)
    | [] => .error ((Fault.unmatched b).at lx.line)
  else .ok lx.readOp

/-- The lexer run to the end of the source; each step takes at least one byte. -/
def Lexer.run : Nat → Lexer → Except ParseError Lexer
  | 0, lx => .ok lx
  | fuel + 1, lx =>
    match lx.rest with
    | [] => .ok lx
    | b :: rest =>
      match lx.step b rest with
      | .error e => .error e
      | .ok lx => lx.run fuel

/-- The literals of a Python source, in order. -/
def literals (source : Text) : Except ParseError (List Literal) := do
  let lx ← Lexer.run (source.length + 1) { rest := source }
  match lx.opened with
  | b :: _ => throw ((Fault.neverClosed b.byte).at b.line)
  | [] =>
    let lx ← lx.endStatement
    return lx.literals.reverse

end LiteralAudit.Python
