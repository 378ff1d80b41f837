import LiteralAudit.Literal.Basic

/-!
# Tokens of Python

The tokens that the statement checks and the binding rules look at, and the faults that make a
source no Python.
-/

namespace LiteralAudit.Python

/-- What a token is. `newline` ends a logical line and is part of no statement. -/
inductive Kind where
  | name
  | string
  | number
  | op
  | newline
  deriving Repr, DecidableEq, BEq, Inhabited

/-- A token: for a string or number, `text` is its value. -/
structure Token where
  kind : Kind
  text : Text
  /-- How many brackets are open after the token. -/
  depth : Nat
  line : Nat
  deriving Repr, DecidableEq, Inhabited

namespace Token

/-- The token is an operator or bracket with the given spelling. -/
def isOp (t : Token) (text : Text) : Bool := t.kind == .op && t.text == text

/-- The token is a word with the given spelling. -/
def isWord (t : Token) (text : Text) : Bool := t.kind == .name && t.text == text

def opens (t : Token) : Bool := t.isOp "(" || t.isOp "[" || t.isOp "\x7b"

def closes (t : Token) : Bool := t.isOp ")" || t.isOp "]" || t.isOp "\x7d"

end Token

/-- Why a source is no Python. -/
inductive Fault where
  | strayContinuation
  | unmatched (bracket : UInt8)
  | neverClosed (bracket : UInt8)
  | unterminatedString
  | badAsync
  | nameExpected (keyword : Text)
  | colonExpected (keyword : Text)
  | badDefinition (keyword : Text)
  | colonExpectedAt (keyword : Text)
  | conditionExpected (keyword : Text)
  | inExpected
  | nestedCompound
  | valueExpected
  | emptyTarget
  | keywordTarget (keyword : Text)
  | literalTarget
  deriving Repr, DecidableEq

def Fault.message : Fault → Text
  | strayContinuation => "unexpected character after line continuation character"
  | unmatched b => "unmatched '" ++ [b] ++ "'"
  | neverClosed b => "'" ++ [b] ++ "' was never closed"
  | unterminatedString => "unterminated string literal"
  | badAsync => "invalid syntax after 'async'"
  | nameExpected k => "expected name after '" ++ k ++ "'"
  | colonExpected k => "expected ':' after '" ++ k ++ "' statement"
  | badDefinition k => "invalid syntax in '" ++ k ++ "' statement"
  | colonExpectedAt k => "expected ':' after '" ++ k ++ "'"
  | conditionExpected k => "missing expression after '" ++ k ++ "'"
  | inExpected => "expected 'in' in 'for' statement"
  | nestedCompound => "compound statement after ':' on the same line"
  | valueExpected => "expected value after '='"
  | emptyTarget => "invalid syntax: empty assignment target"
  | keywordTarget k => "cannot assign to keyword '" ++ k ++ "'"
  | literalTarget => "cannot assign to literal"

/-- A fault as the error of a file. -/
def Fault.at (f : Fault) (line : Nat) : ParseError := ⟨line, f.message⟩

end LiteralAudit.Python

/-!
## Statement checks

`checkLine` looks at the tokens of one logical line and refuses the malformed statements that a
tokenizer accepts: compound statements without a colon, definitions without a name, and assignments
without a value or with a target that cannot be assigned to. Brackets are balanced within a line, and
the checks only look at what stands outside all brackets.
-/

namespace LiteralAudit.Python

def keywords : List Text :=
  List.map Text.ofString
    ["False", "None", "True", "and", "as", "assert", "async", "await", "break", "class",
     "continue", "def", "del", "elif", "else", "except", "finally", "for", "from", "global",
     "if", "import", "in", "is", "lambda", "nonlocal", "not", "or", "pass", "raise",
     "return", "try", "while", "with", "yield"]

/-- The words that start a compound statement. -/
def compoundWords : List Text :=
  List.map Text.ofString
    ["if", "elif", "else", "while", "for", "with", "try", "except", "finally", "def", "class"]

/-- Auxiliary to `outside`: `nest` brackets are open. -/
def outsideFrom : Int → List Token → List Token
  | _, [] => []
  | nest, t :: rest =>
    if t.opens then outsideFrom (nest + 1) rest
    else if t.closes then outsideFrom (nest - 1) rest
    else if nest == 0 then t :: outsideFrom nest rest
    else outsideFrom nest rest

/-- The tokens that stand outside all brackets. -/
def outside (ts : List Token) : List Token := outsideFrom 0 ts

/-- Auxiliary to `splitOutside`: the current part is in reverse. -/
def splitOutsideFrom (stop sep : Token → Bool) : Int → List Token → List Token → List (List Token)
  | _, part, [] => [part.reverse]
  | nest, part, t :: rest =>
    if t.opens then splitOutsideFrom stop sep (nest + 1) (t :: part) rest
    else if t.closes then splitOutsideFrom stop sep (nest - 1) (t :: part) rest
    else if nest == 0 && stop t then [part.reverse ++ t :: rest]
    else if nest == 0 && sep t then part.reverse :: splitOutsideFrom stop sep nest [] rest
    else splitOutsideFrom stop sep nest (t :: part) rest

/-- The parts between the separators outside all brackets. Past a token that stops the search,
nothing separates any more. -/
def splitOutside (stop sep : Token → Bool) (ts : List Token) : List (List Token) :=
  splitOutsideFrom stop sep 0 [] ts

/-- A token that cannot be assigned to, in a target. An annotation, which starts at a colon, does not
count. -/
def checkTarget (target : List Token) : Except ParseError Unit :=
  let named := (outside target).takeWhile fun t => !t.isOp ":"
  match named.find? fun t => t.kind == .name && keywords.contains t.text with
  | some t => .error ((Fault.keywordTarget t.text).at t.line)
  | none =>
    match named.getLast? with
    | some t =>
      if t.kind == .string || t.kind == .number then .error (Fault.literalTarget.at t.line)
      else .ok ()
    | none => .ok ()

/-- A simple statement: each target of an assignment is there and can be assigned to, and a value
follows the last one. What follows a `lambda` are defaults of its parameters. -/
def checkSimple (ts : List Token) : Except ParseError Unit :=
  let parts := splitOutside (·.isWord "lambda") (·.isOp "=") ts
  match parts.dropLast, parts.getLast? with
  | [], _ => .ok ()
  | targets, some (_ :: _) =>
    targets.forM fun target =>
      match target, ts with
      | [], t :: _ => .error (Fault.emptyTarget.at t.line)
      | target, _ => checkTarget target
  | _, _ =>
    match ts.getLast? with
    | some t => .error (Fault.valueExpected.at t.line)
    | none => .ok ()

/-- Auxiliary to `splitHeader?`: `lambdas` lambdas wait for their colon. -/
def splitHeaderFrom : Int → Nat → List Token → List Token → Option (List Token × List Token)
  | _, _, _, [] => none
  | nest, lambdas, header, t :: rest =>
    if t.opens then splitHeaderFrom (nest + 1) lambdas (t :: header) rest
    else if t.closes then splitHeaderFrom (nest - 1) lambdas (t :: header) rest
    else if nest == 0 && t.isWord "lambda" then
      splitHeaderFrom nest (lambdas + 1) (t :: header) rest
    else if nest == 0 && t.isOp ":" then
      if lambdas == 0 then some (header.reverse, rest)
      else splitHeaderFrom nest (lambdas - 1) (t :: header) rest
    else splitHeaderFrom nest lambdas (t :: header) rest

/-- What stands before and after the colon that ends the header of a compound statement; the colons
of lambdas do not end it. -/
def splitHeader? (ts : List Token) : Option (List Token × List Token) := splitHeaderFrom 0 0 [] ts

/-- What a compound statement may have between its first word and the colon. -/
def checkHeader (first : Token) (header : List Token) : Except ParseError Unit :=
  let word := first.text
  if word == "else" || word == "try" || word == "finally" then
    match header with
    | t :: _ => .error ((Fault.colonExpectedAt word).at t.line)
    | [] => .ok ()
  else if word == "if" || word == "elif" || word == "while" || word == "with" then
    if header.isEmpty then .error ((Fault.conditionExpected word).at first.line) else .ok ()
  else if word == "for" then
    if (outside header).any (·.isWord "in") then .ok ()
    else .error (Fault.inExpected.at first.line)
  else .ok ()

/-- A compound statement that starts with `first`. -/
def checkCompound (first : Token) (rest : List Token) : Except ParseError Unit := do
  match splitHeader? rest with
  | none => throw ((Fault.colonExpected first.text).at first.line)
  | some (header, body) =>
    checkHeader first header
    match body with
    | [] => return
    | t :: _ =>
      if t.kind == .name && compoundWords.contains t.text then throw (Fault.nestedCompound.at t.line)
      checkSimple body

/-- What must follow `def` and `class`. -/
def checkDefinition (first : Token) (rest : List Token) : Except ParseError Unit :=
  match rest with
  | [] => .error ((Fault.nameExpected first.text).at first.line)
  | name :: rest =>
    if name.kind != .name || keywords.contains name.text then
      .error ((Fault.nameExpected first.text).at first.line)
    else match rest with
      | [] => .error ((Fault.colonExpected first.text).at first.line)
      | next :: _ =>
        if next.isOp "(" || next.isOp "[" || (first.text == "class" && next.isOp ":") then .ok ()
        else .error ((Fault.badDefinition first.text).at next.line)

/-- One statement. -/
def checkStatement : List Token → Except ParseError Unit
  | [] => .ok ()
  | first :: rest =>
    if first.kind != .name then checkSimple (first :: rest)
    else if first.text == "async" then
      match rest with
      | [] => .error (Fault.badAsync.at first.line)
      | t :: _ =>
        if t.isWord "def" || t.isWord "for" || t.isWord "with" then checkStatement rest
        else .error (Fault.badAsync.at first.line)
    else do
      if first.text == "def" || first.text == "class" then checkDefinition first rest
      if compoundWords.contains first.text then checkCompound first rest
      else checkSimple (first :: rest)

/-- The statements of one logical line, which semicolons separate. -/
def checkLine (ts : List Token) : Except ParseError Unit :=
  (splitOutside (fun _ => false) (·.isOp ";") ts).forM checkStatement

end LiteralAudit.Python
