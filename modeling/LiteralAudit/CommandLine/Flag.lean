import LiteralAudit.Settings.Value
import LiteralAudit.Text.Basic
import LiteralAudit.Text.Quoted

/-!
# Flags

A command takes flags, each with a name, perhaps a letter, and a value of some kind. `Options.read`
reads a command line: flags may stand anywhere before `--`, and what is no flag is an operand.
-/

/-!
## Values with commas between them

`Separated.read` reads the first record of a text: values with commas between them, up to the end of
the first line that is not empty. A value in double quotes may hold commas, line breaks and doubled
quotes.
-/

namespace LiteralAudit.Separated

/-- Why a text is no record. A place is given by its line and its column, and the record by the line
where it starts. -/
inductive Fault where
  | bareQuote (start line column : Nat)
  | openQuote (start line column : Nat)
  | noRecord
  deriving Repr, DecidableEq

/-- A place, with the start of the record if that is on another line. -/
def placeText (start line column : Nat) : Text :=
  (if start == line then [] else "record on line " ++ Text.ofNat start ++ "; " : Text) ++
    "parse error on line " ++ Text.ofNat line ++ ", column " ++ Text.ofNat column ++ ": "

def Fault.message : Fault → Text
  | bareQuote start line column => placeText start line column ++ "bare \" in non-quoted-field"
  | openQuote start line column =>
    placeText start line column ++ "extraneous or missing \" in quoted-field"
  | noRecord => "EOF"

/-- Auxiliary to `linesOf`: `line` is the current line so far, in reverse. -/
def linesFrom (line : Text) : Text → List Text
  | [] =>
    let line := if line.head? == some ('\r' : UInt8) then line.drop 1 else line
    if line.isEmpty then [] else [line.reverse]
  | b :: rest =>
    if b == '\n' then
      let line := if line.head? == some ('\r' : UInt8) then line.drop 1 else line
      (b :: line).reverse :: linesFrom [] rest
    else linesFrom (b :: line) rest

/-- The lines of a text with their breaks, before which no carriage return is left. -/
def linesOf (t : Text) : List Text := linesFrom [] t

/-- A place between two bytes of a record: what is left of its line, the lines behind, and the numbers
of its line and column. -/
structure Place where
  rest : Text
  behind : List Text
  line : Nat
  column : Nat := 1

/-- The place `n` bytes further on in the same line. -/
def Place.skip (p : Place) (n : Nat) : Place :=
  { p with rest := p.rest.drop n, column := p.column + n }

/-- Whether nothing but a line break is left of the line. -/
def Place.atEnd (p : Place) : Bool := p.rest.isEmpty || p.rest == "\n"

/-- A value behind its opening quote, of which `done` was read, and the place behind its closing one. -/
def quoted (start : Nat) : Nat → Text → Place → Except Fault (Text × Place)
  | 0, _, p => .error (.openQuote start p.line p.column)
  | fuel + 1, done, p =>
    match Text.indexOfByte? p.rest '"' with
    | some i =>
      let done := done ++ p.rest.take i
      let p := p.skip (i + 1)
      if p.rest.head? == some ('"' : UInt8) then quoted start fuel (done ++ "\"") (p.skip 1)
      else if p.rest.head? == some (',' : UInt8) || p.atEnd then .ok (done, p)
      else .error (.openQuote start p.line (p.column - 1))
    | none =>
      match p.behind with
      | next :: behind => quoted start fuel (done ++ p.rest) ⟨next, behind, p.line + 1, 1⟩
      | [] => .error (.openQuote start p.line (p.column + p.rest.length))

/-- The values from a place on, at most `fuel` of them. -/
def values (start : Nat) : Nat → Place → Except Fault (List Text)
  | 0, _ => .ok []
  | fuel + 1, p =>
    let more (value : Text) (p : Place) : Except Fault (List Text) :=
      if p.rest.head? == some (',' : UInt8) then (values start fuel (p.skip 1)).map (value :: ·)
      else .ok [value]
    if p.rest.head? == some ('"' : UInt8) then do
      let (value, p) ← quoted start (p.rest.length + p.behind.flatten.length + 1) [] (p.skip 1)
      more value p
    else
      let value := p.rest.takeWhile fun (b : UInt8) => b != ',' && b != '\n'
      match Text.indexOfByte? value '"' with
      | some j => .error (.bareQuote start p.line (p.column + j))
      | none => more value (p.skip value.length)

/-- The values of the first record of a text; an empty text has none. -/
def read (t : Text) : Except Fault (List Text) :=
  if t.isEmpty then .ok []
  else
    let lines := linesOf t
    let empty := lines.takeWhile (· == Text.ofString "\n")
    match lines.drop empty.length with
    | [] => .error .noRecord
    | line :: behind => values (empty.length + 1) (t.length + 1) ⟨line, behind, empty.length + 1, 1⟩

end LiteralAudit.Separated

namespace LiteralAudit.CommandLine

/-- What a flag is set to. -/
inductive Value where
  | switch (on : Bool)
  | text (t : Text)
  | list (ts : List Text)
  | int (i : Int)
  | real (x : Float)
  | duration (d : Duration)

/-- How the value of a flag is written. -/
inductive Kind where
  /-- On or off; the flag alone switches it on. -/
  | switch
  | text
  /-- Values with commas between them; a flag that is repeated adds to them. -/
  | separated
  /-- One value each time that the flag is given. -/
  | repeated
  | int
  | real
  | duration
  deriving Repr, DecidableEq, BEq, Inhabited

structure Flag where
  name : Text
  letter? : Option UInt8 := none
  kind : Kind
  /-- The value when the flag is not given. -/
  builtin : Value
  usage : Text

/-! ## Reading values -/

/-- Why a text is no value. -/
inductive ValueFault where
  | notSwitch (t : Text)
  | notInt (t : Text)
  | intRange (t : Text)
  | notReal (t : Text)
  | realRange (t : Text)
  | duration (cause : Duration.Fault)
  | separated (cause : Separated.Fault)

def ValueFault.message : ValueFault → Text
  | notSwitch t => "strconv.ParseBool: parsing " ++ t.quoted ++ ": invalid syntax"
  | notInt t => "strconv.ParseInt: parsing " ++ t.quoted ++ ": invalid syntax"
  | intRange t => "strconv.ParseInt: parsing " ++ t.quoted ++ ": value out of range"
  | notReal t => "strconv.ParseFloat: parsing " ++ t.quoted ++ ": invalid syntax"
  | realRange t => "strconv.ParseFloat: parsing " ++ t.quoted ++ ": value out of range"
  | duration cause => cause.message
  | separated cause => cause.message

/-- The value that a text writes for a flag. `before?` is what the flag was set to already. -/
def Kind.read (k : Kind) (before? : Option Value) (t : Text) : Except ValueFault Value :=
  let earlier : List Text := match before? with
    | some (.list ts) => ts
    | _ => []
  match k with
  | .switch => match Setting.readBool? t with
    | some b => .ok (.switch b)
    | none => .error (.notSwitch t)
  | .text => .ok (.text t)
  | .separated => match Separated.read t with
    | .ok ts => .ok (.list (earlier ++ ts))
    | .error e => .error (.separated e)
  | .repeated => .ok (.list (earlier ++ [t]))
  | .int => match Number.literalValue? t with
    | none => .error (.notInt t)
    | some i => if Number.fits64 i then .ok (.int i) else .error (.intRange t)
  | .real => match Number.readReal? t with
    | some x => .ok (.real x)
    | none => .error (if (Number.realValue? t).isSome then .realRange t else .notReal t)
  | .duration => match Duration.read t with
    | .ok d => .ok (.duration d)
    | .error e => .error (.duration e)

/-! ## Reading flags -/

/-- Why the flags of a command line cannot be read. -/
inductive FlagFault where
  | badSyntax (argument : Text)
  | unknown (name : Text)
  | unknownLetter (letter : UInt8) (group : Text)
  | noValue (argument : Text)
  | noLetterValue (letter : UInt8) (group : Text)
  | invalid (flag : Flag) (written : Text) (cause : ValueFault)

/-- A letter between single quotes. -/
def quotedLetter (b : UInt8) : Text :=
  let c := Char.ofNat b.toNat
  if c == '\'' then "'\\''"
  else if c == '"' then "'\"'"
  else
    let q := Text.quoted (Text.ofChar c)
    "'" ++ (q.drop 1).take (q.length - 2) ++ "'"

/-- A flag as messages name it. -/
def Flag.shown (f : Flag) : Text :=
  match f.letter? with
  | some c => "-" ++ [c] ++ ", --" ++ f.name
  | none => "--" ++ f.name

def FlagFault.message : FlagFault → Text
  | badSyntax argument => "bad flag syntax: " ++ argument
  | unknown name => "unknown flag: --" ++ name
  | unknownLetter letter group =>
    "unknown shorthand flag: " ++ quotedLetter letter ++ " in -" ++ group
  | noValue argument => "flag needs an argument: " ++ argument
  | noLetterValue letter group =>
    "flag needs an argument: " ++ quotedLetter letter ++ " in -" ++ group
  | invalid flag written cause =>
    "invalid argument " ++ written.quoted ++ " for " ++ flag.shown.quoted ++ " flag: " ++ cause.message

/-- The flags that a command takes, and the values of those that were given. -/
structure Options where
  flags : List Flag
  given : List (Text × Value) := []

namespace Options

def flag? (o : Options) (name : Text) : Option Flag := o.flags.find? (·.name == name)

def letterFlag? (o : Options) (letter : UInt8) : Option Flag :=
  o.flags.find? (·.letter? == some letter)

/-- The options with a flag set to what a text writes. -/
def set (o : Options) (f : Flag) (written : Text) : Except FlagFault Options :=
  match f.kind.read (o.given.lookup f.name) written with
  | .ok v => .ok { o with given := (f.name, v) :: o.given }
  | .error e => .error (.invalid f written e)

/-- Reads a group of letters behind a single dash. A flag that takes a value takes the rest of the
group, or else the next argument. What starts with `test.` is passed over. -/
def readLetters (o : Options) (next : List Text) : Text → Except FlagFault (Options × List Text)
  | [] => .ok (o, next)
  | c :: more =>
    if Text.startsWith (c :: more) "test." then .ok (o, next)
    else match o.letterFlag? c with
    | none => .error (.unknownLetter c (c :: more))
    | some f =>
      if more.head? == some ('=' : UInt8) && 1 < more.length then do
        return (← o.set f (more.drop 1), next)
      else if f.kind == .switch then
        match o.set f "true" with
        | .ok o => readLetters o next more
        | .error e => .error e
      else if !more.isEmpty then do return (← o.set f more, next)
      else match next with
        | value :: rest => do return (← o.set f value, rest)
        | [] => .error (.noLetterValue c [c])

/-- Reads an argument behind two dashes. -/
def readName (o : Options) (next : List Text) (name : Text) : Except FlagFault (Options × List Text) :=
  if name.isEmpty || name.head? == some ('-' : UInt8) || name.head? == some ('=' : UInt8) then
    .error (.badSyntax ("--" ++ name))
  else
    let (flagName, value?) := match Text.cutByte? name '=' with
      | some (flagName, value) => (flagName, some value)
      | none => (name, none)
    match o.flag? flagName with
    | none => .error (.unknown flagName)
    | some f =>
      match value? with
      | some value => do return (← o.set f value, next)
      | none =>
        if f.kind == .switch then do return (← o.set f "true", next)
        else match next with
          | value :: rest => do return (← o.set f value, rest)
          | [] => .error (.noValue ("--" ++ name))

/-- Auxiliary to `read`: at most `fuel` arguments are read; the operands so far are in reverse. -/
def readFrom (o : Options) (operands : List Text) : Nat → List Text →
    Except FlagFault (Options × List Text)
  | 0, rest => .ok (o, operands.reverse ++ rest)
  | _, [] => .ok (o, operands.reverse)
  | fuel + 1, a :: rest =>
    match a with
    | d :: e :: more =>
      if d != '-' then readFrom o (a :: operands) fuel rest
      else if e == '-' && more.isEmpty then .ok (o, operands.reverse ++ rest)
      else
        match if e == '-' then o.readName rest more else o.readLetters rest (e :: more) with
        | .error fault => .error fault
        | .ok (o, rest) => readFrom o operands fuel rest
    | _ => readFrom o (a :: operands) fuel rest

/-- Reads a command line: the options with the flags set that it gives, and its operands. -/
def read (flags : List Flag) (args : List Text) : Except FlagFault (Options × List Text) :=
  readFrom { flags } [] args.length args

/-! ## Values -/

/-- Whether a flag was given. -/
def isGiven (o : Options) (name : Text) : Bool := (o.given.lookup name).isSome

/-- The value of a flag. -/
def get? (o : Options) (name : Text) : Option Value :=
  (o.given.lookup name).or ((o.flag? name).map (·.builtin))

def isOn (o : Options) (name : Text) : Bool :=
  match o.get? name with
  | some (.switch b) => b
  | _ => false

def text (o : Options) (name : Text) : Text :=
  match o.get? name with
  | some (.text t) => t
  | _ => []

def list (o : Options) (name : Text) : List Text :=
  match o.get? name with
  | some (.list ts) => ts
  | _ => []

def int (o : Options) (name : Text) : Int :=
  match o.get? name with
  | some (.int i) => i
  | _ => 0

def real (o : Options) (name : Text) : Float :=
  match o.get? name with
  | some (.real x) => x
  | _ => 0

def duration (o : Options) (name : Text) : Duration :=
  match o.get? name with
  | some (.duration d) => d
  | _ => ⟨0⟩

end Options

end LiteralAudit.CommandLine
