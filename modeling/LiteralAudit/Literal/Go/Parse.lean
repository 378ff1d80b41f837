import LiteralAudit.Literal.Go.Tree

/-!
# Parsing with error recovery

A parser reads tokens from a `State` and goes on after an error, so that one run can find several.
Of the errors that it records the first in the file is the one that is reported; which ones it
records depends on how it recovers:

* an error on the line of the error recorded last is dropped (`Parse.error`);
* after more than ten recorded errors parsing stops;
* to recover, tokens are skipped up to one at which parsing can go on (`Parse.advance`), and a place
  at which that has happened ten times is passed over.
-/

/-!
## Syntax errors of Go

Why a source is no Go, beyond what the scanner notes.
-/

namespace LiteralAudit.Go

inductive Fault where
  /-- `what` was expected; `found` stands at the place where it was. -/
  | expected (what : String) (found : Option Text)
  /-- A comma is missing in a list. -/
  | missingComma (beforeNewline : Bool) (list : String)
  | missingImportPath
  | importPathNoString
  | lateImport
  | unexpectedComma
  | parenthesizedEmbedding
  | parenthesizedComposite
  | missingParameterName
  | missingParameterType
  /-- A parameter before the last one is variadic. -/
  | earlyDots
  /-- What cannot be variadic is. -/
  | invalidDots
  | missingConstraint
  | missingTypeParameter (alone : Bool)
  | emptyTypeParameters
  | typeParametersOf (what : String)
  | missingSliceIndex (which : String)
  | illegalLabel
  | parenthesizedCall (keyword : String)
  | noCall (keyword : String)
  | missingCondition
  | newlineAfterIf
  | variableInIf
  | noExpression (wanted found : String)
  | defineExpected
  | semicolonBeforeBody
  | nestedTooDeep
  deriving Repr, DecidableEq

def Fault.message : Fault → Text
  | expected what none => "expected " ++ what
  | expected what (some found) => "expected " ++ what ++ ", found " ++ found
  | missingComma beforeNewline list =>
    "missing ','" ++ (if beforeNewline then " before newline" else "" : Text) ++ " in " ++ list
  | missingImportPath => "missing import path"
  | importPathNoString => "import path must be a string"
  | lateImport => "imports must appear before other declarations"
  | unexpectedComma => "unexpected comma; expecting ]"
  | parenthesizedEmbedding => "cannot parenthesize embedded type"
  | parenthesizedComposite => "cannot parenthesize type in composite literal"
  | missingParameterName => "missing parameter name"
  | missingParameterType => "missing parameter type"
  | earlyDots => "can only use ... with final parameter"
  | invalidDots => "invalid use of ..."
  | missingConstraint => "missing type constraint"
  | missingTypeParameter alone =>
    "missing type parameter name" ++ (if alone then " or invalid array length" else "" : Text)
  | emptyTypeParameters => "empty type parameter list"
  | typeParametersOf what => what ++ " must have no type parameters"
  | missingSliceIndex which => which ++ " index required in 3-index slice"
  | illegalLabel => "illegal label declaration"
  | parenthesizedCall keyword => "expression in " ++ keyword ++ " must not be parenthesized"
  | noCall keyword => "expression in " ++ keyword ++ " must be function call"
  | missingCondition => "missing condition in if statement"
  | newlineAfterIf => "unexpected newline, expecting \x7b after if clause"
  | variableInIf => "var declaration not allowed in if initializer"
  | noExpression wanted found =>
    "expected " ++ wanted ++ ", found " ++ found ++
      " (missing parentheses around composite literal?)"
  | defineExpected => "expected ':=', found '='"
  | semicolonBeforeBody => "unexpected semicolon or newline before \x7b"
  | nestedTooDeep => "exceeded max nesting depth"

end LiteralAudit.Go

namespace LiteralAudit.Go

/-- A recorded error. -/
structure Complaint where
  place : Position
  message : Text
  deriving Repr, Inhabited

structure State where
  layout : Layout
  /-- The tokens from the current one on; the last one is the end of the file. -/
  tokens : List Token
  /-- The recorded errors, the last one first. -/
  complaints : List Complaint := []
  /-- Where the token before the current one ends. -/
  lastStop : Nat := 0
  /-- How deep expressions are nested; negative in the header of a control clause. -/
  level : Int := 0
  /-- An equals sign is taken for a comparison. -/
  inRhs : Bool := false
  /-- Where parsing last recovered, and how often there. -/
  syncPlace : Option Nat := none
  syncCount : Nat := 0
  nesting : Nat := 0

/-- A parser; it throws to stop parsing altogether. -/
abbrev Parse := EStateM Unit State

namespace State

def current (s : State) : Token := s.tokens.head?.getD ⟨.eof, [], 0, 0, []⟩

/-- The scanner's errors before a token, recorded. -/
def record (s : State) (notes : List Note) : State :=
  { s with complaints :=
      (notes.map fun n => ⟨s.layout.position n.offset, n.message⟩).reverse ++ s.complaints }

/-- The state behind the current token. At the end of the file nothing changes. -/
def next (s : State) : State :=
  match s.tokens with
  | t :: u :: rest => { s with tokens := u :: rest, lastStop := t.stop }.record u.notes
  | _ => s

end State

namespace Parse

/-- How many errors are recorded before parsing stops. -/
def errorLimit : Nat := 10

/-- How deep trees may get. -/
def nestingLimit : Nat := 100000

def token : Parse Token := return (← get).current

def tok : Parse Tok := return (← token).tok

def place : Parse Nat := return (← token).start

def next : Parse Unit := modify State.next

/-- The current token is an operator or keyword with the given spelling. -/
def atOp (s : String) : Parse Bool := return (← tok) == .op s

def atKeyword (s : String) : Parse Bool := return (← tok) == .keyword s

def atEnd : Parse Bool := return (← tok) == .eof

/-- Records an error at an offset. -/
def error (offset : Nat) (f : Fault) : Parse Unit := do
  let s ← get
  let position := s.layout.position offset
  if s.complaints.head?.any (·.place.line == position.line) then return
  if s.complaints.length > errorLimit then throw ()
  set { s with complaints := ⟨position, f.message⟩ :: s.complaints }

/-- The current token as an error shows it. -/
def found (t : Token) : Text :=
  if t.isImplicitSemicolon then "newline"
  else if t.tok.isLiteral then t.text
  else "'" ++ t.tok.name ++ "'"

/-- Records that something else was expected at an offset. -/
def expected (offset : Nat) (what : String) : Parse Unit := do
  let t ← token
  error offset (.expected what (if offset == t.start then some (found t) else none))

/-- The spelling of a token that was expected. -/
def quotedName (t : Tok) : String := "'" ++ t.name ++ "'"

/-- Passes a token, which should be of the given kind; its place. -/
def expect (t : Tok) : Parse Nat := do
  let at? ← place
  if (← tok) != t then expected at? (quotedName t)
  next
  return at?

def expectOp (s : String) : Parse Nat := expect (.op s)

def expectKeyword (s : String) : Parse Nat := expect (.keyword s)

/-- Passes the bracket that closes a list. -/
def expectClosing (s list : String) : Parse Unit := do
  let t ← token
  if t.isImplicitSemicolon then
    error t.start (.missingComma true list)
    next
  discard (expectOp s)

/-- Whether another element of a list follows; a missing comma is taken for one. -/
def atComma (list follow : String) : Parse Bool := do
  let t ← token
  if t.tok == .op "," then return true
  if t.tok == .op follow then return false
  error t.start (.missingComma t.isImplicitSemicolon list)
  return true

/-- Auxiliary to `advance`: the state at the first token of a set, if parsing may go on there. -/
def advanceState (stops : Tok → Bool) : List Token → State → State
  | [], s => s
  | _ :: rest, s =>
    let t := s.current
    if t.tok == .eof then s
    else if !stops t.tok then advanceState stops rest s.next
    else if s.syncPlace == some t.start && s.syncCount < 10 then
      { s with syncCount := s.syncCount + 1 }
    else if s.syncPlace.all (· < t.start) then { s with syncPlace := some t.start, syncCount := 0 }
    else advanceState stops rest s.next

/-- Skips tokens up to one of a set. -/
def advance (stops : Tok → Bool) : Parse Unit := modify fun s => advanceState stops s.tokens s

/-- Tokens that start a statement. -/
def startsStatement (t : Tok) : Bool :=
  match t with
  | .keyword k => ["break", "const", "continue", "defer", "fallthrough", "for", "go", "goto", "if",
      "return", "select", "switch", "type", "var"].contains k
  | _ => false

/-- Tokens that start a declaration. -/
def startsDeclaration (t : Tok) : Bool :=
  match t with
  | .keyword k => ["import", "const", "type", "var"].contains k
  | _ => false

/-- Tokens that end an expression. -/
def endsExpression (t : Tok) : Bool :=
  match t with
  | .op s => [",", ":", ";", ")", "]", "\x7d"].contains s
  | _ => false

/-- Passes the semicolon that ends a statement; a closing bracket stands for one. -/
def expectSemicolon : Parse Unit := do
  let t ← token
  if t.tok == .op ")" || t.tok == .op "\x7d" then return
  if t.tok == .op "," then
    expected t.start "';'"
    next
  else if t.tok == .op ";" then next
  else
    expected t.start "';'"
    advance startsStatement

/-- Stops because the tree gets too deep. -/
def tooDeep : Parse α := do
  error (← place) .nestedTooDeep
  throw ()

/-- Enters one more level of nesting. -/
def enter : Parse Unit := do
  modify fun s => { s with nesting := s.nesting + 1 }
  if (← get).nesting > nestingLimit then tooDeep

/-- Leaves levels of nesting. -/
def leave (levels : Nat) : Parse Unit :=
  modify fun s => { s with nesting := s.nesting - levels }

/-- Runs a parser one level of nesting deeper. -/
def nested (p : Parse α) : Parse α := do
  enter
  let a ← p
  leave 1
  return a

/-- Runs a parser with the expression level raised. -/
def inside (p : Parse α) : Parse α := do
  modify fun s => { s with level := s.level + 1 }
  let a ← p
  modify fun s => { s with level := s.level - 1 }
  return a

/-- Runs a parser for the header of a control clause. -/
def asHeader (p : Parse α) : Parse α := do
  let before := (← get).level
  modify fun s => { s with level := -1 }
  let a ← p
  modify fun s => { s with level := before }
  return a

/-- Runs a parser that takes equals signs for comparisons, or does not. -/
def withRhs (rhs : Bool) (p : Parse α) : Parse α := do
  let before := (← get).inRhs
  modify fun s => { s with inRhs := rhs }
  let a ← p
  modify fun s => { s with inRhs := before }
  return a

/-- Runs a parser as long as the current token allows, at most `fuel` times. -/
def whileTok (fuel : Nat) (continues : Tok → Bool) (p : Parse α) : Parse (List α) :=
  match fuel with
  | 0 => return []
  | fuel + 1 => do
    if continues (← tok) then
      let a ← p
      return a :: (← whileTok fuel continues p)
    else return []

/-- The elements of a list up to a closing bracket, which is not passed. -/
def listUntil (fuel : Nat) (list close : String) (p : Parse α) : Parse (List α) :=
  match fuel with
  | 0 => return []
  | fuel + 1 => do
    let t ← tok
    if t == .op close || t == .eof then return []
    let a ← p
    if ← atComma list close then
      next
      return a :: (← listUntil fuel list close p)
    else return [a]

/-- What stands where nothing could be parsed up to the current token. -/
def bad (start : Nat) : Parse Tree := return .node (.bad (← place)) start []

end Parse

end LiteralAudit.Go
