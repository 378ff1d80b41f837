import LiteralAudit.Literal.Go.Parse
import LiteralAudit.Literal.Go.Scanner

/-!
# Types and expressions of Go

The parsers of this module take the parsers of the nested notions as a `Grammar`, so that each is
defined on its own; `Go.grammar` in the module on statements ties the knot.
-/

namespace LiteralAudit.Go

open Parse

/-- The parsers that nest. -/
structure Grammar where
  /-- How often a loop may repeat. -/
  fuel : Nat
  /-- A type, or nothing when none starts here. -/
  type? : Parse (Option Tree)
  unary : Parse Tree
  /-- A binary expression of operators that bind at least as tightly as given, behind its first
  operand if there is one already. -/
  binary : Option Tree → Nat → Parse Tree
  statement : Parse Tree
  /-- The elements of a composite literal in braces, behind its type. -/
  braces : Option Tree → Parse Tree
  ifStatement : Parse Tree

namespace Grammar

variable (g : Grammar)

/-! ## Names and lists of expressions -/

/-- An identifier. -/
def ident : Parse Tree := do
  let t ← token
  if t.tok == .ident then
    next
    return .node (.ident t.text) t.start []
  else
    discard (expect .ident)
    return .node (.ident "_") t.start []

def identName : Tree → Text
  | .node (.ident n) _ _ => n
  | _ => []

def isIdent (t : Tree) : Bool :=
  match t.form with
  | .ident _ => true
  | _ => false

def idents : Parse (List Tree) := do
  let first ← ident
  let rest ← whileTok g.fuel (· == .op ",") (do next; ident)
  return first :: rest

def expr : Parse Tree := g.binary none 1

/-- An expression in which an equals sign is taken for a comparison. -/
def rhs : Parse Tree := withRhs true g.expr

def exprs (inRhs : Bool) : Parse (List Tree) := withRhs inRhs do
  let first ← g.expr
  let rest ← whileTok g.fuel (· == .op ",") (do next; g.expr)
  return first :: rest

/-! ## Types -/

def type : Parse Tree := do
  match ← g.type? with
  | some t => return t
  | none =>
    let start ← place
    expected start "type"
    advance endsExpression
    bad start

/-- A type name behind its first identifier: a selection of a package's name, or the name alone. -/
def typeNameFrom (name : Tree) : Parse Tree := do
  if ← atOp "." then
    next
    let selected ← ident
    return .node (.selector (identName selected)) name.start [name]
  else return name

/-- An index with one or more arguments. -/
def indexed (x : Tree) (args : List Tree) : Tree :=
  .node (if args.length == 1 then .index else .indexList) x.start (x :: args)

/-- The type arguments of a generic type. -/
def typeInstance (x : Tree) : Parse Tree := do
  discard (expectOp "[")
  let args ← inside (listUntil g.fuel "type argument list" "]" g.type)
  let close ← place
  expectClosing "]" "type argument list"
  if args.isEmpty then expected close "type argument list"
  return indexed x args

def typeName : Parse Tree := do typeNameFrom (← ident)

/-- A type name, with type arguments if it has any. -/
def qualifiedFrom (name : Tree) : Parse Tree := do
  let x ← typeNameFrom name
  if ← atOp "[" then g.typeInstance x else return x

def qualified : Parse Tree := do g.qualifiedFrom (← ident)

/-- An array or slice type behind its opening bracket, and behind its length if there is one. -/
def arrayTypeFrom (start : Nat) (length? : Option Tree) : Parse Tree := do
  let length ← match length? with
    | some x => pure [x]
    | none => inside do
      let t ← token
      if t.tok == .op "..." then
        next
        pure [.node .ellipsis t.start []]
      else if t.tok == .op "]" then pure []
      else pure [← g.rhs]
  if ← atOp "," then
    error (← place) .unexpectedComma
    next
  discard (expectOp "]")
  let element ← g.type
  return .node .arrayType start (length ++ [element])

/-- Auxiliary to `arrayOrInstance`: the arguments, and the place of a comma behind the last one. -/
def bracketArguments : Nat → Parse (List Tree × Option Nat)
  | 0 => return ([], none)
  | fuel + 1 => do
    let x ← g.rhs
    if ← atOp "," then
      let comma ← place
      next
      if ← atOp "]" then return ([x], some comma)
      let (xs, trailing) ← bracketArguments fuel
      return (x :: xs, trailing)
    else return ([x], none)

/-- What a name before a bracket starts: a named thing of array type, or an instance of a generic
type. The name comes back only in the first case. -/
def arrayOrInstance (name : Tree) : Parse (Option Tree × Tree) := do
  let start ← expectOp "["
  let (args, trailing) ←
    if ← atOp "]" then pure ([], none) else inside (g.bracketArguments g.fuel)
  discard (expectOp "]")
  match args with
  | [] =>
    let element ← g.type
    return (some name, .node .arrayType start [element])
  | [length] =>
    match ← g.type? with
    | some element =>
      if let some comma := trailing then error comma .unexpectedComma
      return (some name, .node .arrayType start [length, element])
    | none => return (none, indexed name args)
  | _ => return (none, indexed name args)

/-- The type of one field of a struct. -/
def fieldType : Parse (List Tree) := do
  let t ← token
  match t.tok with
  | .ident =>
    let name ← ident
    let u ← tok
    if u == .op "." then return [← g.qualifiedFrom name]
    else if u == .string || u == .op ";" || u == .op "\x7d" then return []
    else
      let more ← whileTok g.fuel (· == .op ",") (do next; ident)
      if more.isEmpty && (← atOp "[") then return [(← g.arrayOrInstance name).2]
      else return [← g.type]
  | .op "*" =>
    next
    if ← atOp "(" then
      error (← place) .parenthesizedEmbedding
      next
      let x ← g.qualified
      if ← atOp ")" then next
      return [x]
    else return [← g.qualified]
  | .op "(" =>
    error t.start .parenthesizedEmbedding
    next
    if ← atOp "*" then next
    let x ← g.qualified
    if ← atOp ")" then next
    return [x]
  | _ =>
    expected t.start "field name or embedded type"
    advance endsExpression
    return []

/-- A field of a struct; its tag is no literal of the program. -/
def field : Parse Tree := do
  let start ← place
  let type ← g.fieldType
  if (← tok) == .string then next
  expectSemicolon
  return .node .group start type

def structType : Parse Tree := do
  let start ← expectKeyword "struct"
  discard (expectOp "\x7b")
  let fields ← whileTok g.fuel (fun t => t == .ident || t == .op "*" || t == .op "(") g.field
  discard (expectOp "\x7d")
  return .node .structType start fields

/-- A term of a union: a type, or a tilde and a type. -/
def unionTerm : Parse Tree := do
  let t ← token
  if t.tok == .op "~" then
    next
    let x ← g.type
    return .node (.unary "~") t.start [x]
  match ← g.type? with
  | some x => return x
  | none =>
    let start ← place
    expected start "~ term or type"
    advance endsExpression
    bad start

/-- A union of terms, behind its first one if there is one already. -/
def union (x? : Option Tree) : Parse Tree := do
  let first ← match x? with
    | some x => pure x
    | none => g.unionTerm
  let rest ← whileTok g.fuel (· == .op "|") (do next; g.unionTerm)
  return rest.foldl (fun x y => .node (.binary "|") x.start [x, y]) first

/-- A parameter as it is written. -/
structure Parameter where
  name? : Option Tree
  type? : Option Tree

/-- Tokens that start a type and nothing else a parameter can start with. -/
def startsPlainType (t : Tok) : Bool :=
  match t with
  | .op s => s == "*" || s == "<-" || s == "("
  | .keyword k => ["func", "chan", "interface", "map", "struct"].contains k
  | _ => false

def dotsType : Parse Tree := do
  let start ← expectOp "..."
  let x ← g.type
  return .node .ellipsis start [x]

/-- A parameter, behind its name if there is one already. `unions` says whether its type may be a
union. -/
def parameter (name? : Option Tree) (unions : Bool) : Parse Parameter := do
  /- A union goes on behind a type. -/
  let finish (p : Parameter) : Parse Parameter := do
    match p.type? with
    | some x => if unions && (← atOp "|") then return { p with type? := some (← g.union (some x)) }
    | none => pure ()
    return p
  let t ← tok
  if name?.isNone && unions && t == .op "~" then return ⟨none, some (← g.union none)⟩
  if name?.isSome || t == .ident then
    let name ← match name? with
      | some name => pure name
      | none => ident
    let u ← tok
    if u == .ident || startsPlainType u then finish ⟨some name, some (← g.type)⟩
    else if u == .op "[" then
      let (name?, type) ← g.arrayOrInstance name
      finish ⟨name?, some type⟩
    else if u == .op "..." then return ⟨some name, some (← g.dotsType)⟩
    else if u == .op "." then finish ⟨none, some (← g.qualifiedFrom name)⟩
    else if u == .op "~" && unions then return ⟨some name, some (← g.union none)⟩
    else if u == .op "|" && unions then return ⟨none, some (← g.union (some name))⟩
    else return ⟨some name, none⟩
  else if startsPlainType t || t == .op "[" then finish ⟨none, some (← g.type)⟩
  else if t == .op "..." then return ⟨none, some (← g.dotsType)⟩
  else
    expected (← place) "')'"
    advance endsExpression
    return ⟨none, none⟩

/-- Auxiliary to `parameterList`: the parameters, the first of which may be read already. -/
def parametersFrom (close : String) (unions : Bool) :
    Nat → Option Parameter → Parse (List Parameter)
  | 0, _ => return []
  | fuel + 1, first? => do
    let t ← tok
    if first?.isNone && (t == .op close || t == .eof) then return []
    let p ← match first? with
      | some ⟨name?, some type⟩ =>
        pure ⟨name?, some (← if unions then g.union (some type) else pure type)⟩
      | some ⟨name?, none⟩ => g.parameter name? unions
      | none => g.parameter none unions
    let here := if p.name?.isSome || p.type?.isSome then [p] else []
    if ← atComma "parameter list" close then
      next
      return here ++ (← parametersFrom close unions fuel none)
    else return here

/-- Where the first parameter from the left stands that has a type and no name, or that has no type
and is not followed by one. -/
def firstIncomplete? (ps : List Parameter) : Option Nat :=
  let step : Option Nat × Bool → Parameter → Option Nat × Bool := fun (place?, typed) p =>
    match p.name?, p.type? with
    | none, some x => (some x.start, true)
    | some _, some _ => (place?, true)
    | some n, none => (if typed then place? else some n.start, typed)
    | none, none => (place?, typed)
  (ps.reverse.foldl step (none, false)).1

/-- The types of parameters; a parameter without one has the type of the next one that has. Where no
parameter has both a name and a type, all of them are types. -/
def parameterTypes (ps : List Parameter) : List (Option Tree) :=
  if ps.all fun p => p.name?.isNone || p.type?.isNone then ps.map fun p => p.type?.or p.name?
  else
    (ps.foldr (fun p (types, later?) =>
      let type? := p.type?.or later?
      (type? :: types, type?)) ([], none)).1

/-- Where the first variadic type of a list stands that is not its last one. -/
def misplacedDots? (types : List (Option Tree)) : Option Nat :=
  let dots? (t? : Option Tree) : Option Nat := t?.bind fun t =>
    if t.form == .ellipsis then some t.start else none
  types.dropLast.findSome? dots?

/-- What a list of parameters in brackets belongs to. -/
inductive ParameterRole where
  /-- What a function takes; its last parameter may be variadic. -/
  | taken
  /-- What a function gives. -/
  | given
  /-- Type parameters, whose types may be unions and which must be named. -/
  | types
  deriving DecidableEq

/-- The types of a parameter list up to its closing bracket, which is not passed. The first parameter
may be read already. -/
def parameterList (first? : Option Parameter) (role : ParameterRole) : Parse (List Tree) := do
  let unions := role == .types
  let start ← place
  let start := match first? with
    | some ⟨some n, _⟩ => n.start
    | some ⟨none, some x⟩ => x.start
    | _ => start
  let ps ← g.parametersFrom (if unions then "]" else ")") unions g.fuel first?
  let named := (ps.filter fun p => p.name?.isSome && p.type?.isSome).length
  let typed := (ps.filter (·.type?.isSome)).length
  if !ps.isEmpty then
    if named == 0 then
      if unions then
        if typed == 0 then error (← place) .missingConstraint
        else error start (.missingTypeParameter (ps.length == 1))
    else if named != ps.length then
      if let some place? := firstIncomplete? ps then
        if named == typed then
          error (← place) (if unions then .missingConstraint else .missingParameterType)
        else if unions then error place? (.missingTypeParameter (ps.length == 1))
        else error place? .missingParameterName
  let types := parameterTypes ps
  let dots? := misplacedDots? (if role == .taken then types else types ++ [none])
  if let some place? := dots? then
    error place? (if role == .taken then .earlyDots else .invalidDots)
  return ps.filterMap fun p => if named == 0 then p.type?.or p.name? else p.type?

/-- The type parameters of a function, if it has any, and where they start. -/
def typeParameters : Parse (Option Nat × List Tree) := do
  if ← atOp "[" then
    let start ← place
    next
    let types ← g.parameterList none .types
    let close ← expectOp "]"
    if types.isEmpty then
      error close .emptyTypeParameters
      return (none, [])
    else return (some start, types)
  else return (none, [])

/-- Parameters in round brackets. -/
def parameters (role : ParameterRole) : Parse (List Tree) := do
  discard (expectOp "(")
  let params ← if ← atOp ")" then pure [] else g.parameterList none role
  discard (expectOp ")")
  return params

/-- The results of a function. -/
def results : Parse (List Tree) := do
  if ← atOp "(" then g.parameters .given else return (← g.type?).toList

/-- Parameters and results. -/
def signature : Parse (List Tree) := do
  let params ← g.parameters .taken
  return params ++ (← g.results)

def functionType : Parse Tree := do
  let start ← expectKeyword "func"
  let (types?, types) ← g.typeParameters
  if let some place? := types? then error place? (.typeParametersOf "function type")
  return .node .functionType start (types ++ (← g.signature))

/-- A method of an interface, or an embedded type, of which the second component says whether it may
be a union. -/
def methodSpec : Parse (Tree × Bool) := do
  let x ← typeName
  if !isIdent x then
    if ← atOp "[" then return (← g.typeInstance x, true) else return (x, true)
  else if ← atOp "[" then
    let bracket ← place
    next
    let arg ← inside g.expr
    let t ← tok
    if isIdent arg && t != .op "," && t != .op "]" then
      discard (g.parameterList (some ⟨some arg, none⟩) .types)
      discard (expectOp "]")
      error bracket (.typeParametersOf "interface method")
      return (.node .functionType x.start (← g.signature), false)
    else
      let more ←
        if ← atComma "type argument list" "]" then inside do
          next
          listUntil g.fuel "type argument list" "]" g.type
        else pure []
      expectClosing "]" "type argument list"
      return (indexed x (arg :: more), true)
  else if ← atOp "(" then return (.node .functionType x.start (← g.signature), false)
  else return (x, true)

/-- Auxiliary to `interfaceType`: its elements. -/
def interfaceElements : Nat → Parse (List Tree)
  | 0 => return []
  | fuel + 1 => do
    let t ← tok
    let element? ←
      if t == .ident then do
        let (x, embedded) ← g.methodSpec
        pure (some (← if embedded then g.union (some x) else pure x))
      else if t == .op "~" then pure (some (← g.union none))
      else match ← g.type? with
        | some x => pure (some (← g.union (some x)))
        | none => pure none
    match element? with
    | none => return []
    | some x =>
      expectSemicolon
      return x :: (← interfaceElements fuel)

def interfaceType : Parse Tree := do
  let start ← expectKeyword "interface"
  discard (expectOp "\x7b")
  let elements ← g.interfaceElements g.fuel
  discard (expectOp "\x7d")
  return .node .interfaceType start elements

def mapType : Parse Tree := do
  let start ← expectKeyword "map"
  discard (expectOp "[")
  let key ← g.type
  discard (expectOp "]")
  let value ← g.type
  return .node .mapType start [key, value]

def chanType : Parse Tree := do
  let start ← place
  if ← atKeyword "chan" then
    next
    let arrow ← place
    let sends ← atOp "<-"
    if sends then next
    let value ← g.type
    return .node (.chanType true (!sends) arrow) start [value]
  else
    let arrow ← expectOp "<-"
    discard (expectKeyword "chan")
    let value ← g.type
    return .node (.chanType false true arrow) start [value]

/-- A type, or nothing when none starts here. -/
def typeOrNone : Parse (Option Tree) := nested do
  let t ← token
  match t.tok with
  | .ident => return some (← g.qualified)
  | .op "[" =>
    next
    return some (← g.arrayTypeFrom t.start none)
  | .op "*" =>
    next
    let x ← g.type
    return some (.node .star t.start [x])
  | .op "<-" => return some (← g.chanType)
  | .op "(" =>
    next
    let x ← g.type
    discard (expectOp ")")
    return some (.node .paren t.start [x])
  | .keyword "struct" => return some (← g.structType)
  | .keyword "func" => return some (← g.functionType)
  | .keyword "interface" => return some (← g.interfaceType)
  | .keyword "map" => return some (← g.mapType)
  | .keyword "chan" => return some (← g.chanType)
  | _ => return none

/-! ## Expressions -/

/-- The statements up to the end of a block or clause. -/
def statements : Parse (List Tree) :=
  whileTok g.fuel
    (fun t => !(t == .keyword "case" || t == .keyword "default" || t == .op "\x7d" || t == .eof))
    g.statement

def block : Parse Tree := do
  let start ← expectOp "\x7b"
  let body ← g.statements
  discard (expectOp "\x7d")
  return .node .group start body

def functionTypeOrLiteral : Parse Tree := do
  let type ← g.functionType
  if ← atOp "\x7b" then
    let body ← inside g.block
    return .node .function type.start [type, body]
  else return type

def operand : Parse Tree := do
  let t ← token
  match t.tok with
  | .ident => ident
  | .int | .float | .imag | .char | .string =>
    next
    return .node (.literal t.tok t.text) t.start []
  | .op "(" =>
    next
    let x ← inside g.rhs
    discard (expectOp ")")
    return .node .paren t.start [x]
  | .keyword "func" => g.functionTypeOrLiteral
  | _ =>
    match ← g.type? with
    | some x => return x
    | none =>
      let start ← place
      expected start "operand"
      advance startsStatement
      bad start

def assertionFrom (x : Tree) : Parse Tree := do
  discard (expectOp "(")
  if ← atKeyword "type" then
    next
    discard (expectOp ")")
    return .node (.assertion true) x.start [x]
  else
    let type ← g.type
    discard (expectOp ")")
    return .node (.assertion false) x.start [x, type]

/-- The bounds of a slice expression behind its first one: the places of the colons, each with the
bound behind it. -/
def sliceBounds : Nat → Parse (List (Nat × Option Tree))
  | 0 => return []
  | n + 1 => do
    if ← atOp ":" then
      let colon ← place
      next
      let t ← tok
      let bound ←
        if t == .op ":" || t == .op "]" || t == .eof then pure none else some <$> g.rhs
      return (colon, bound) :: (← sliceBounds n)
    else return []

/-- An index, slice or instance behind its operand. -/
def indexFrom (x : Tree) : Parse Tree := do
  discard (expectOp "[")
  if ← atOp "]" then
    let start ← place
    expected start "operand"
    next
    return indexed x [← bad start]
  let (first, bounds, args) ← inside do
    let first ← if ← atOp ":" then pure none else some <$> g.rhs
    if ← atOp ":" then return (first, ← g.sliceBounds 2, [])
    let args ← whileTok g.fuel (· == .op ",") do
      next
      let t ← tok
      if t == .op "]" || t == .eof then pure [] else pure [← g.type]
    return (first, [], args.flatten)
  discard (expectOp "]")
  match bounds with
  | [] => return indexed x (first.toList ++ args)
  | _ =>
    if let [(colon, middle), (colon', last)] := bounds then
      if middle.isNone then error colon (.missingSliceIndex "middle")
      if last.isNone then error colon' (.missingSliceIndex "final")
    return .node .slice x.start (x :: first.toList ++ bounds.filterMap (·.2))

/-- Auxiliary to `callFrom`: the arguments, and whether the last one is spread. -/
def arguments : Nat → Parse (List Tree × Bool)
  | 0 => return ([], false)
  | fuel + 1 => do
    let t ← tok
    if t == .op ")" || t == .eof then return ([], false)
    let x ← g.rhs
    let spread ← atOp "..."
    if spread then next
    if ← atComma "argument list" ")" then
      next
      if spread then return ([x], true)
      let (xs, spread) ← arguments fuel
      return (x :: xs, spread)
    else return ([x], spread)

def callFrom (f : Tree) : Parse Tree := do
  discard (expectOp "(")
  let (args, spread) ← inside (g.arguments g.fuel)
  expectClosing ")" "argument list"
  return .node (.call spread) f.start (f :: args)

/-- An element of a composite literal, or a part of one. -/
def elementValue : Parse Tree := do
  if ← atOp "\x7b" then g.braces none else g.expr

def element : Parse Tree := do
  let x ← g.elementValue
  if ← atOp ":" then
    next
    let value ← g.elementValue
    return .node .keyValue x.start [x, value]
  else return x

/-- The braces of a composite literal, behind its type if it has one. -/
def compositeFrom (type? : Option Tree) : Parse Tree := nested do
  let start ← expectOp "\x7b"
  let elements ← inside (listUntil g.fuel "composite literal" "\x7d" g.element)
  expectClosing "\x7d" "composite literal"
  return .node .composite ((type?.map Tree.start).getD start) (type?.toList ++ elements)

/-- Whether braces behind an expression belong to it. In the header of a control clause they start
its body when the expression could stand alone. -/
def takesBraces (level : Int) (x : Tree) : Bool :=
  match x.unparen.form with
  | .bad _ | .ident _ | .selector _ | .nameless _ | .index | .indexList => level ≥ 0
  | .arrayType | .structType | .mapType => true
  | _ => false

/-- Auxiliary to `primary`: what follows an operand. `depth` levels of nesting were entered for it. -/
def primaryFrom : Nat → Nat → Tree → Parse Tree
  | 0, depth, x => do
    leave depth
    return x
  | fuel + 1, depth, x => do
    enter
    let depth := depth + 1
    let t ← token
    match t.tok with
    | .op "." =>
      next
      let u ← token
      let x ← match u.tok with
        | .ident => do
          next
          pure (.node (.selector u.text) x.start [x])
        | .op "(" => g.assertionFrom x
        | _ => do
          expected u.start "selector or type assertion"
          if u.tok != .op "\x7d" then next
          pure (.node (.nameless (u.start + 1)) x.start [x])
      primaryFrom fuel depth x
    | .op "[" => primaryFrom fuel depth (← g.indexFrom x)
    | .op "(" => primaryFrom fuel depth (← g.callFrom x)
    | .op "\x7b" =>
      if takesBraces (← get).level x then
        if x.form == .paren then error x.unparen.start .parenthesizedComposite
        primaryFrom fuel depth (← g.braces (some x))
      else
        leave depth
        return x
    | _ =>
      leave depth
      return x

def primary : Parse Tree := do g.primaryFrom g.fuel 0 (← g.operand)

/-- A channel type whose arrow stands before it, the arrow passed on to the type of its elements.
`fuel` bounds the nesting of channel types. -/
def receiving (arrow : Nat) : Nat → Tree → Parse Tree
  | fuel + 1, .node (.chanType sends receives arrow') start [value] => do
    if !sends then expected arrow' "'chan'"
    let value ←
      if sends && !receives then
        match value.form with
        | .chanType .. => receiving arrow' fuel value
        | _ => do
          expected arrow' "channel type"
          pure value
      else pure value
    return .node (.chanType false true arrow) (min arrow start) [value]
  | _, t => return t

/-- A unary expression. -/
def unaryExpr : Parse Tree := nested do
  let t ← token
  match t.tok with
  | .op op =>
    if ["+", "-", "!", "^", "&", "~"].contains op then
      next
      let x ← g.unary
      return .node (.unary op) t.start [x]
    else if op == "<-" then
      next
      let x ← g.unary
      match x.form with
      | .chanType .. => receiving t.start g.fuel x
      | _ => return .node (.unary op) t.start [x]
    else if op == "*" then
      next
      let x ← g.unary
      return .node .star t.start [x]
    else g.primary
  | _ => g.primary

/-- Auxiliary to `binaryExpr`: the operators behind an operand. -/
def binaryFrom (least : Nat) : Nat → Nat → Tree → Parse Tree
  | 0, depth, x => do
    leave depth
    return x
  | fuel + 1, depth, x => do
    enter
    let t ← tok
    let op := if (← get).inRhs && t == .op "=" then .op "==" else t
    if op.precedence < least then
      leave (depth + 1)
      return x
    discard (expect op)
    let y ← g.binary none (op.precedence + 1)
    binaryFrom least fuel (depth + 1) (.node (.binary op.name) x.start [x, y])

/-- A binary expression of operators that bind at least as tightly as given. -/
def binaryExpr (x? : Option Tree) (least : Nat) : Parse Tree := do
  let x ← match x? with
    | some x => pure x
    | none => g.unary
  g.binaryFrom least g.fuel 0 x

end Grammar

end LiteralAudit.Go
