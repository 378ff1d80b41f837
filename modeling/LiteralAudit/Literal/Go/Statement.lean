import LiteralAudit.Literal.Go.Grammar

/-!
# Statements, declarations and files of Go

`Go.grammar` ties the parsers together, nesting at most as deep as its argument; `Go.file` parses a
file.
-/

namespace LiteralAudit.Go

open Parse

namespace Grammar

variable (g : Grammar)

/-! ## Declarations -/

def importSpec : Parse Tree := do
  let t ← token
  if t.tok == .ident then discard ident
  else if t.tok == .op "." then next
  let u ← token
  if u.tok == .string then next
  else if u.tok.isLiteral then
    error u.start .importPathNoString
    next
  else
    error u.start .missingImportPath
    advance endsExpression
  expectSemicolon
  return .node .aside t.start []

/-- The values behind an equals sign, if there is one. -/
def initializers : Parse (List Tree) := do
  if ← atOp "=" then
    next
    g.exprs true
  else return []

def valueSpec (isConst : Bool) : Parse Tree := do
  let start ← place
  let names ← g.idents
  let t ← tok
  let (type?, values) ←
    if isConst then
      if t == .eof || t == .op ";" || t == .op ")" then pure (none, [])
      else do
        let type? ← g.type?
        pure (type?, ← g.initializers)
    else do
      let type? ← if t == .op "=" then pure none else some <$> g.type
      pure (type?, ← g.initializers)
  expectSemicolon
  return .node (.values (names.map identName) type?.isSome) start (type?.toList ++ values)

/-- The type of a declared type, behind the equals sign of an alias. -/
def declaredType : Parse Tree := do
  if ← atOp "=" then next
  g.type

def genericTypeFrom (first : Parameter) : Parse (List Tree) := do
  let params ← g.parameterList (some first) .types
  discard (expectOp "]")
  return params ++ [← g.declaredType]

def typeSpec : Parse Tree := do
  let name ← ident
  let parts ←
    if ← atOp "[" then do
      let bracket ← place
      next
      if (← tok) == .ident then
        let first ← ident
        let x ←
          if ← atOp "[" then pure first
          else inside do g.binary (some (← g.primaryFrom g.fuel 0 first)) 1
        let t ← tok
        match x.splitName? (t == .op ",") with
        | some (name, type?) =>
          if type?.isSome || t != .op "]" then g.genericTypeFrom ⟨some name, type?⟩
          else pure [← g.arrayTypeFrom bracket (some x)]
        | none => pure [← g.arrayTypeFrom bracket (some x)]
      else pure [← g.arrayTypeFrom bracket none]
    else pure [← g.declaredType]
  expectSemicolon
  return .node .group name.start parts

/-- A declaration that starts with a keyword and may have several specifications in brackets. -/
def specs (keyword : String) (spec : Parse Tree) : Parse Tree := do
  let start ← expectKeyword keyword
  if ← atOp "(" then
    next
    let list ← whileTok g.fuel (fun t => t != .op ")" && t != .eof) spec
    discard (expectOp ")")
    expectSemicolon
    return .node .group start list
  else return .node .group start [← spec]

def functionBody : Parse (List Tree) := do
  if ← atOp "\x7b" then
    let body ← g.block
    expectSemicolon
    return [body]
  else if ← atOp ";" then
    next
    if ← atOp "\x7b" then
      error (← place) .semicolonBeforeBody
      let body ← g.block
      expectSemicolon
      return [body]
    else return []
  else
    expectSemicolon
    return []

def functionDeclaration : Parse Tree := do
  let start ← expectKeyword "func"
  let receiver ← if ← atOp "(" then g.parameters .taken else pure []
  discard ident
  let (_, types) ← g.typeParameters
  let signature ← g.signature
  let body ← g.functionBody
  return .node .group start (receiver ++ types ++ signature ++ body)

/-- A declaration; where none starts, tokens up to one of `stops` are skipped. -/
def declaration (stops : Tok → Bool) : Parse Tree := do
  match ← tok with
  | .keyword "import" => g.specs "import" importSpec
  | .keyword "const" => g.specs "const" (g.valueSpec true)
  | .keyword "var" => g.specs "var" (g.valueSpec false)
  | .keyword "type" => g.specs "type" g.typeSpec
  | .keyword "func" => g.functionDeclaration
  | _ =>
    let start ← place
    expected start "declaration"
    advance stops
    bad start

/-! ## Simple statements -/

/-- Where a simple statement stands: alone, where it may have a label, or in the header of a loop,
where it may be a range. -/
inductive Role where
  | plain
  | labelled
  | ranged
  deriving DecidableEq

def isAssignment (op : String) : Bool :=
  [":=", "=", "+=", "-=", "*=", "/=", "%=", "&=", "|=", "^=", "<<=", ">>=", "&^="].contains op

/-- A simple statement, and whether it is a range clause. -/
def simpleStatement (role : Role) : Parse (Tree × Bool) := do
  let xs ← g.exprs false
  let x := xs.head?.getD default
  let t ← token
  match t.tok with
  | .op op =>
    if isAssignment op then
      next
      let ranges ← atKeyword "range"
      if role == .ranged && ranges && (op == ":=" || op == "=") then
        let start ← place
        next
        let y ← g.rhs
        return (.node (.assign op xs.length t.start) x.start
          (xs ++ [.node (.unary "range") start [y]]), true)
      let ys ← g.exprs true
      return (.node (.assign op xs.length t.start) x.start (xs ++ ys), false)
    if xs.length > 1 then expected x.start "1 expression"
    if op == ":" then
      next
      if role == .labelled && isIdent x then
        let body ← g.statement
        return (.node .labeled x.start [body], false)
      error t.start .illegalLabel
      return (.node .simple x.start [], false)
    else if op == "<-" then
      next
      let y ← g.rhs
      return (.node .simple x.start [x, y], false)
    else if op == "++" || op == "--" then
      next
      return (.node .simple x.start [x], false)
    else return (.node .expression x.start [x], false)
  | _ =>
    if xs.length > 1 then expected x.start "1 expression"
    return (.node .expression x.start [x], false)

/-- The call that a `go` or `defer` statement makes. -/
def callStatement (keyword : String) : Parse Tree := do
  let start ← expectKeyword keyword
  let x ← g.rhs
  if x.form == .paren then error x.start (.parenthesizedCall keyword)
  match x.unparen.form with
  | .call _ | .bad _ => pure ()
  | _ => error (x.unparen.stop (← get).lastStop) (.noCall keyword)
  expectSemicolon
  return .node .group start [x]

def returnStatement : Parse Tree := do
  let start ← expectKeyword "return"
  let t ← tok
  let xs ← if t == .op ";" || t == .op "\x7d" then pure [] else g.exprs true
  expectSemicolon
  return .node .group start xs

/-- A jump; a `goto` has a label, and a `break` or `continue` may have one. -/
def branchStatement (keyword : String) : Parse Tree := do
  let start ← expectKeyword keyword
  if keyword == "goto" || (keyword != "fallthrough" && (← tok) == .ident) then discard ident
  expectSemicolon
  return .node .group start []

/-- Checks that a statement of a header is an expression. -/
def asExpression (s? : Option Tree) (wanted : String) : Parse Unit := do
  match s? with
  | none => return
  | some s =>
    match s.form with
    | .expression => return
    | .assign .. => error s.start (.noExpression wanted "assignment")
    | _ => error s.start (.noExpression wanted "simple statement")

/-! ## Compound statements -/

def ifHeader : Parse (List Tree) := do
  if ← atOp "\x7b" then
    error (← place) .missingCondition
    return []
  asHeader do
    let init? ←
      if ← atOp ";" then pure none
      else do
        if ← atKeyword "var" then
          next
          error (← place) .variableInIf
        pure (some (← g.simpleStatement .plain).1)
    if ← atOp "\x7b" then
      asExpression init? "boolean expression"
      return init?.toList
    let semi ← token
    discard (expectOp ";")
    let cond? ← if ← atOp "\x7b" then pure none else some <$> g.simpleStatement .plain
    match cond? with
    | some (cond, _) => asExpression (some cond) "boolean expression"
    | none =>
      if semi.tok == .op ";" then
        error semi.start (if semi.text == "\n" then .newlineAfterIf else .missingCondition)
    return init?.toList ++ (cond?.map (·.1)).toList

def ifFrom : Parse Tree := nested do
  let start ← expectKeyword "if"
  let header ← g.ifHeader
  let body ← g.block
  let rest ←
    if ← atKeyword "else" then do
      next
      if ← atKeyword "if" then pure [← g.ifStatement]
      else if ← atOp "\x7b" then
        let other ← g.block
        expectSemicolon
        pure [other]
      else
        expected (← place) "if statement or block"
        pure []
    else do
      expectSemicolon
      pure []
  return .node .group start (header ++ body :: rest)

def caseClause : Parse Tree := do
  let start ← place
  let xs ←
    if ← atKeyword "case" then do
      next
      g.exprs true
    else do
      discard (expectKeyword "default")
      pure []
  discard (expectOp ":")
  return .node .group start (xs ++ (← g.statements))

/-- Whether a statement is the guard of a type switch. -/
def isTypeSwitchGuard (s? : Option Tree) : Parse Bool := do
  match s? with
  | some (.node .expression _ [x]) => return x.form == .assertion true
  | some (.node (.assign op 1 operator) _ [_, x]) =>
    if x.form == .assertion true && (op == "=" || op == ":=") then
      if op == "=" then error operator .defineExpected
      return true
    else return false
  | _ => return false

/-- Whether a clause of a switch or select statement starts here. -/
def startsClause (t : Tok) : Bool := t == .keyword "case" || t == .keyword "default"

def switchStatement : Parse Tree := do
  let start ← expectKeyword "switch"
  let (init?, guard?) ←
    if ← atOp "\x7b" then pure (none, none)
    else asHeader do
      let first? ← if ← atOp ";" then pure none else some <$> g.simpleStatement .plain
      if ← atOp ";" then
        next
        let second? ← if ← atOp "\x7b" then pure none else some <$> g.simpleStatement .plain
        return (first?.map (·.1), second?.map (·.1))
      else return (none, first?.map (·.1))
  let typeSwitch ← isTypeSwitchGuard guard?
  discard (expectOp "\x7b")
  let clauses ← whileTok g.fuel startsClause g.caseClause
  discard (expectOp "\x7d")
  expectSemicolon
  if !typeSwitch then asExpression guard? "switch expression"
  return .node .group start (init?.toList ++ guard?.toList ++ clauses)

/-- What a clause of a select statement waits for. -/
def communication : Parse (List Tree) := do
  let xs ← g.exprs false
  let x := xs.head?.getD default
  let t ← token
  if t.tok == .op "<-" then
    if xs.length > 1 then expected x.start "1 expression"
    next
    return [x, ← g.rhs]
  else if t.tok == .op "=" || t.tok == .op ":=" then
    if xs.length > 2 then expected x.start "1 or 2 expressions"
    next
    let y ← g.rhs
    return [.node (.assign t.tok.name xs.length t.start) x.start (xs ++ [y])]
  else
    if xs.length > 1 then expected x.start "1 expression"
    return [x]

def communicationClause : Parse Tree := do
  let start ← place
  let parts ←
    if ← atKeyword "case" then do
      next
      g.communication
    else do
      discard (expectKeyword "default")
      pure []
  discard (expectOp ":")
  return .node .group start (parts ++ (← g.statements))

def selectStatement : Parse Tree := do
  let start ← expectKeyword "select"
  discard (expectOp "\x7b")
  let clauses ← whileTok g.fuel startsClause g.communicationClause
  discard (expectOp "\x7d")
  expectSemicolon
  return .node .group start clauses

/-- The header of a loop: its statements, the second of which is the condition, and whether it is a
range. -/
def forHeader : Parse (List Tree × Option Tree × List Tree × Bool) := asHeader do
  let (first?, ranges) ←
    if ← atOp ";" then pure (none, false)
    else if ← atKeyword "range" then do
      let start ← place
      next
      let y ← g.rhs
      pure (some (.node (.assign "" 0 start) start [y]), true)
    else do
      let (s, ranges) ← g.simpleStatement .ranged
      pure (some s, ranges)
  if !ranges && (← atOp ";") then
    next
    let second? ← if ← atOp ";" then pure none else some <$> g.simpleStatement .plain
    expectSemicolon
    let third? ← if ← atOp "\x7b" then pure none else some <$> g.simpleStatement .plain
    return (first?.toList, second?.map (·.1), (third?.map (·.1)).toList, false)
  else return ([], first?, [], ranges)

def forStatement : Parse Tree := do
  let start ← expectKeyword "for"
  let (init, middle?, post, ranges) ←
    if ← atOp "\x7b" then pure ([], none, [], false) else g.forHeader
  let body ← g.block
  expectSemicolon
  if ranges then
    match middle? with
    | some (.node (.assign _ targets _) _ parts) =>
      if targets > 2 then
        expected ((parts[targets - 1]?).getD default).start "at most 2 expressions"
    | _ => pure ()
    return .node .group start ((middle?.map Tree.parts).getD [] ++ [body])
  else
    asExpression middle? "boolean or range expression"
    return .node .group start (init ++ middle?.toList ++ post ++ [body])

/-- Tokens that start an expression. -/
def startsExpression (t : Tok) : Bool :=
  match t with
  | .ident | .int | .float | .imag | .char | .string => true
  | .op s => ["(", "[", "+", "-", "*", "&", "^", "<-", "!"].contains s
  | .keyword k => ["func", "struct", "map", "chan", "interface"].contains k
  | _ => false

def statementFrom : Parse Tree := nested do
  let t ← token
  if startsExpression t.tok then
    let (s, _) ← g.simpleStatement .labelled
    if s.form != .labeled then expectSemicolon
    return s
  match t.tok with
  | .keyword k =>
    if k == "const" || k == "type" || k == "var" then g.declaration startsStatement
    else if k == "go" || k == "defer" then g.callStatement k
    else if k == "return" then g.returnStatement
    else if k == "break" || k == "continue" || k == "goto" || k == "fallthrough" then
      branchStatement k
    else if k == "if" then g.ifStatement
    else if k == "switch" then g.switchStatement
    else if k == "select" then g.selectStatement
    else if k == "for" then g.forStatement
    else noStatement t
  | .op "\x7b" =>
    let body ← g.block
    expectSemicolon
    return body
  | .op ";" =>
    next
    return .node .group t.start []
  | .op "\x7d" => return .node .group t.start []
  | _ => noStatement t
where
  /-- No statement starts at a token. -/
  noStatement (t : Token) : Parse Tree := do
    expected t.start "statement"
    advance startsStatement
    bad t.start

end Grammar

/-! ## Files -/

/-- The grammar, for sources that nest at most `depth` deep. -/
def grammar (fuel : Nat) : Nat → Grammar
  | 0 =>
    { fuel, type? := tooDeep, unary := tooDeep, binary := fun _ _ => tooDeep
      statement := tooDeep, braces := fun _ => tooDeep, ifStatement := tooDeep }
  | depth + 1 =>
    { fuel
      type? := fun s => (grammar fuel depth).typeOrNone s
      unary := fun s => (grammar fuel depth).unaryExpr s
      binary := fun x? least s => (grammar fuel depth).binaryExpr x? least s
      statement := fun s => (grammar fuel depth).statementFrom s
      braces := fun type? s => (grammar fuel depth).compositeFrom type? s
      ifStatement := fun s => (grammar fuel depth).ifFrom s }

/-- Auxiliary to `file`: the declarations; `imports` says whether only imports came before. -/
def declarations (g : Grammar) : Nat → Bool → Parse (List Tree)
  | 0, _ => return []
  | fuel + 1, imports => do
    if ← atEnd then return []
    let isImport ← atKeyword "import"
    if isImport && !imports then error (← place) .lateImport
    let d ← g.declaration startsDeclaration
    return d :: (← declarations g fuel isImport)

/-- A whole file. A file with errors up to the end of its package clause is not parsed further. -/
def file (g : Grammar) : Parse (List Tree) := do
  if !(← get).complaints.isEmpty then return []
  discard (expectKeyword "package")
  discard Grammar.ident
  expectSemicolon
  if !(← get).complaints.isEmpty then return []
  declarations g g.fuel true

/-- Whether an error comes before another one: by file, line, column and message. -/
def Complaint.le (a b : Complaint) : Bool :=
  match Text.cmp a.place.file b.place.file with
  | .lt => true
  | .gt => false
  | .eq =>
    if a.place.line != b.place.line then a.place.line < b.place.line
    else if a.place.column != b.place.column then a.place.column < b.place.column
    else Text.le a.message b.message

/-- How deep the grammar nests. A binary expression and its first operand are two levels of the grammar
and at least one of the tree, so that the limit on trees is met first. -/
def grammarDepth : Nat := 2 * nestingLimit + 3

/-- The declarations of a source, or the first of its errors. -/
def parse (path source : Text) : Except Complaint (List Tree × Layout) :=
  let (tokens, layout) := scan path source
  let fuel := 20 * tokens.length + 100
  let start : State := { layout, tokens }
  let start := start.record start.current.notes
  let (trees, complaints) := match (file (grammar fuel grammarDepth)).run start with
    | .ok trees s => (trees, s.complaints)
    | .error _ s => ([], s.complaints)
  match complaints with
  | [] => .ok (trees, layout)
  | first :: rest =>
    .error (rest.foldl (fun least c => if Complaint.le c least then c else least) first)

/-- The literals of a source, or why it cannot be parsed. -/
def literals (path source : Text) : Except ParseError (List Literal) :=
  match parse path source with
  | .error c => .error ⟨c.place.line, c.message⟩
  | .ok (trees, layout) =>
    .ok ((trees.flatMap (Tree.literals [])).map fun (offset, l) =>
      { l with line := (layout.position offset).line })

end LiteralAudit.Go
