import LiteralAudit.Literal.Basic
import LiteralAudit.Number.Integer
import LiteralAudit.Text.Quoted
import LiteralAudit.Text.Utf8
import LiteralAudit.Unicode.Category

/-!
# Tokens of Go

What the scanner makes of a Go source: tokens with their places, and the faults met on the way to
each one.
-/

namespace LiteralAudit.Go

/-- What a token is. Operators, brackets and separators are `op`. -/
inductive Tok where
  | illegal
  | eof
  | ident
  | int
  | float
  | imag
  | char
  | string
  | op (spelling : String)
  | keyword (spelling : String)
  deriving Repr, DecidableEq, BEq, Inhabited

namespace Tok

/-- The name of a kind of token in messages. -/
def name : Tok → String
  | illegal => "ILLEGAL"
  | eof => "EOF"
  | ident => "IDENT"
  | int => "INT"
  | float => "FLOAT"
  | imag => "IMAG"
  | char => "CHAR"
  | string => "STRING"
  | op s => s
  | keyword s => s

/-- Identifiers and basic literals, which messages show as they are written. -/
def isLiteral : Tok → Bool
  | ident | int | float | imag | char | string => true
  | _ => false

/-- How tightly a binary operator binds; 0 for anything else. -/
def precedence : Tok → Nat
  | op s =>
    if s == "||" then 1
    else if s == "&&" then 2
    else if ["==", "!=", "<", "<=", ">", ">="].contains s then 3
    else if ["+", "-", "|", "^"].contains s then 4
    else if ["*", "/", "%", "<<", ">>", "&", "&^"].contains s then 5
    else 0
  | _ => 0

end Tok

/-- A message about a place, given as the number of bytes before it. -/
structure Note where
  offset : Nat
  message : Text
  deriving Repr, Inhabited

/-- A token. `text` is its spelling, for a semicolon the one of the line break that stands for it. -/
structure Token where
  tok : Tok
  text : Text
  start : Nat
  stop : Nat
  /-- What was found wrong since the token before. -/
  notes : List Note := []
  deriving Repr, Inhabited

/-- The token is a semicolon that a line break or the end of the file stands for. -/
def Token.isImplicitSemicolon (t : Token) : Bool := t.tok == .op ";" && t.text == "\n"

def keywords : List String :=
  ["break", "case", "chan", "const", "continue", "default", "defer", "else", "fallthrough", "for",
   "func", "go", "goto", "if", "import", "interface", "map", "package", "range", "return",
   "select", "struct", "switch", "type", "var"]

/-- The operators, longer ones before those they start with. -/
def operators : List String :=
  ["<<=", ">>=", "&^=", "...", "&&", "||", "<-", "++", "--", "==", "!=", "<=", ">=", ":=", "+=",
   "-=", "*=", "/=", "%=", "&=", "|=", "^=", "<<", ">>", "&^", "+", "-", "*", "/", "%", "&", "|",
   "^", "<", ">", "=", "!", "(", "[", "\x7b", ",", ".", ")", "]", "\x7d", ";", ":", "~"]

/-- A directive that renumbers the lines from a place on. -/
structure LineDirective where
  offset : Nat
  file : Text
  line : Int
  /-- The column at the place; 0 when it is unknown. -/
  column : Int
  deriving Repr, Inhabited

/-- All that places are computed from. -/
structure Layout where
  file : Text
  /-- Where lines start, in increasing order. -/
  lineStarts : List Nat
  /-- The directives in the order in which they stand. -/
  directives : List LineDirective
  deriving Inhabited

/-- A place as messages give it. -/
structure Position where
  file : Text
  line : Int
  column : Int
  deriving Repr, DecidableEq, Inhabited

namespace Layout

/-- The physical line of an offset, and where the line starts. -/
def lineOf (l : Layout) (offset : Nat) : Nat × Nat :=
  let starts := l.lineStarts.takeWhile (· ≤ offset)
  (starts.length, starts.getLast?.getD 0)

/-- The place of an offset, as the last directive before it numbers lines. -/
def position (l : Layout) (offset : Nat) : Position :=
  let (line, start) := l.lineOf offset
  match (l.directives.takeWhile (·.offset ≤ offset)).getLast? with
  | none => ⟨l.file, line, offset - start + 1⟩
  | some d =>
    let distance := line - (l.lineOf d.offset).1
    let column : Int := if d.column == 0 then 0
      else if distance == 0 then d.column + (offset - d.offset)
      else offset - start + 1
    ⟨d.file, d.line + distance, column⟩

end Layout

end LiteralAudit.Go

/-!
## Syntax trees of Go

A tree has a form, the place where it starts, and its parts in the order in which they are written.
Only what the parser or the search for literals asks about has a form of its own: declarations
without values, blocks and clauses are a `group` of their parts.

`Tree.literals` lists the strings and numbers of a tree with the names they are bound to.
-/

namespace LiteralAudit.Go

inductive Form where
  /-- Stands where something could not be parsed; parsing goes on at `stop`. -/
  | bad (stop : Nat)
  | ident (name : Text)
  | literal (tok : Tok) (text : Text)
  /-- The tag of a field or the path of an import. -/
  | aside
  | paren
  | selector (name : Text)
  /-- A selection without a name; the name would end at `stop`. -/
  | nameless (stop : Nat)
  | index
  | indexList
  | slice
  | call (spread : Bool)
  /-- `x.(T)`, or `x.(type)` when `ofSwitch`. -/
  | assertion (ofSwitch : Bool)
  | star
  | unary (op : String)
  | binary (op : String)
  | keyValue
  | composite
  | function
  | ellipsis
  | arrayType
  | structType
  | mapType
  /-- A channel type; `arrow` is where its arrow stands, if it has one. -/
  | chanType (sends receives : Bool) (arrow : Nat)
  | functionType
  | interfaceType
  /-- An assignment: the first `targets` parts are assigned to. -/
  | assign (op : String) (targets : Nat) (operator : Nat)
  /-- A constant or variable specification: the parts are the type, if any, and the values. -/
  | values (names : List Text) (typed : Bool)
  /-- An expression as a statement. -/
  | expression
  | labeled
  /-- Any other simple statement. -/
  | simple
  | group
  deriving Repr, DecidableEq, Inhabited

inductive Tree where
  | node (form : Form) (start : Nat) (parts : List Tree)
  deriving Inhabited

namespace Tree

def form : Tree → Form
  | node f _ _ => f

def start : Tree → Nat
  | node _ s _ => s

def parts : Tree → List Tree
  | node _ _ ps => ps

/-- What is left when the brackets around an expression are taken off. -/
def unparen : Tree → Tree
  | node .paren _ [x] => unparen x
  | t => t

/-- Where an expression ends, of which the last token ends at `last`. Something that is missing at its
end has a place of its own. -/
def stop (last : Nat) : Tree → Nat
  | node form _ parts =>
    match form, parts with
    | .bad stop, _ | .nameless stop, _ => stop
    | .unary _, [x] | .star, [x] | .arrayType, [x] | .chanType .., [x] => x.stop last
    | .binary _, [_, x] | .arrayType, [_, x] | .mapType, [_, x] => x.stop last
    | _, _ => last

/-- The tree is a type, or contains one where only a type may hold it. -/
def isTypeElement : Tree → Bool
  | node form _ parts =>
    match form, parts with
    | .arrayType, _ | .structType, _ | .functionType, _ | .interfaceType, _ | .mapType, _ => true
    | .chanType .., _ => true
    | .binary _, [x, y] => isTypeElement x || isTypeElement y
    | .unary op, _ => op == "~"
    | .paren, [x] => isTypeElement x
    | _, _ => false

/-- The name that starts an expression which may also be read as a type parameter, and the type that
follows it. `force` takes an operand for a type whatever it is. -/
def splitName? (force : Bool) : Tree → Option (Tree × Option Tree)
  | node form start parts =>
    match form, parts with
    | .ident name, _ => some (node (.ident name) start [], none)
    | .binary op, [x, y] =>
      if op == "*" then
        match x.form with
        | .ident _ =>
          if force || isTypeElement y then some (x, some (node .star y.start [y])) else none
        | _ => none
      else if op == "|" then
        match splitName? (force || isTypeElement y) x with
        | some (name, some lhs) => some (name, some (node (.binary "|") lhs.start [lhs, y]))
        | _ => none
      else none
    | .call spread, [f, x] =>
      match f.form with
      | .ident _ =>
        if !spread && (force || isTypeElement x) then some (f, some (node .paren x.start [x]))
        else none
      | _ => none
    | _, _ => none

/-! ## Literals -/

/-- The text of a string literal. -/
def stringValue? : Tree → Option Text
  | node (.literal .string text) _ _ => Text.unquote? text
  | _ => none

/-- The name by which an expression is assigned to; empty when it has none. -/
def name : Tree → Text
  | node (.ident n) _ _ => if n == "_" then [] else n
  | node (.selector n) _ _ => n
  | node .index _ [x, i] => (stringValue? i).getD (name x)
  | node (.literal .string text) _ _ => (Text.unquote? text).getD []
  | _ => []

/-- The literal of a token, at an offset: strings are unquoted and integers written in decimal. -/
def literal? (tok : Tok) (text : Text) : Option (Text × Bool) :=
  match tok with
  | .string => (Text.unquote? text).map (·, false)
  | .int => some (((Number.readLiteral? text).map Text.ofInt).getD text, true)
  | .float => some (text, true)
  | _ => none

/-- The literals of a tree in the order in which they are written, each with its offset.
`binding` is the name to which the tree as a whole is bound. -/
def literals (binding : Text) : Tree → List (Nat × Literal)
  | node form start parts =>
    match form with
    | .literal tok text =>
      match literal? tok text with
      | some (value, numeric) => [(start, { value, line := 0, numeric, binding })]
      | none => []
    | .aside | .ident _ => []
    | .paren => ofParts (fun _ => binding) parts 0
    | .assign _ targets _ =>
      let names := (parts.take targets).map name
      if 2 * targets == parts.length then
        ofParts (fun i => if i < targets then [] else names.getD (i - targets) []) parts 0
      else ofParts (fun _ => []) parts 0
    | .values names typed =>
      let before := if typed then 1 else 0
      ofParts (fun i => if i < before then [] else names.getD (i - before) []) parts 0
    | .keyValue =>
      let key := match parts with
        | key :: _ => name key
        | [] => []
      ofParts (fun i => if i == 0 then [] else key) parts 0
    | _ => ofParts (fun _ => []) parts 0
where
  /-- The literals of the parts from the `i`-th on, which are bound as `bindings` says. -/
  ofParts (bindings : Nat → Text) : List Tree → Nat → List (Nat × Literal)
    | [], _ => []
    | t :: ts, i => literals (bindings i) t ++ ofParts bindings ts (i + 1)

end Tree

end LiteralAudit.Go
